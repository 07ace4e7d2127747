import TickerWatch.Proofs.Monitor.Window

namespace TickerWatch

theorem Market.view_congr {m : Market} {o o' : FetchOptions} (bars : o'.historyBars = o.historyBars)
    (period : o'.period = o.period) (code : String) : m.view o' code = m.view o code := by
  simp only [view, history, bars, period]

namespace Pass

variable {o o' : FetchOptions} {m : Market} {alerts : List Alert} {p q : Pass}
  {calls calls' : List ProviderCall}

theorem Turn.sourced (turn : Turn o m.Answers p calls q) (sourced : p.Sourced o m alerts) :
    q.Sourced o m alerts := by
  cases turn with
  | begins due next room => exact ⟨sourced.listed, sourced.found, sourced.failed⟩
  | @ends code due early late n answers now underway =>
    have left : Sourced o m alerts { p with inFlight := early ++ late } :=
      ⟨sourced.listed, sourced.found, sourced.failed⟩
    rw [answers.fetch]
    exact left.enter code now

theorem Course.sourced (course : Course o m.Answers (.ofAlerts alerts) calls p) :
    p.Sourced o m alerts := by
  induction course with
  | start => exact ofAlerts_sourced o m alerts
  | on _ turn ih => exact turn.sourced ih

theorem Sourced.faithful (sourced : p.Sourced o m alerts) (codes : p.codes.Perm (codesOf alerts)) :
    p.Faithful m alerts [] where
  listed := sourced.listed
  codes := by rwa [List.append_nil]
  found l member := by
    obtain ⟨q, -, quoted, -⟩ := sourced.found l member
    rw [quoted]
    rfl
  failed l member := by
    rw [sourced.failed l member]
    rfl

theorem Course.faithful (course : Course o m.Answers (.ofAlerts alerts) calls p) :
    p.Faithful m alerts [] :=
  course.sourced.faithful (course.codes.trans (by simp [Pass.codes, ofAlerts]))

theorem Faithful.codesFailed (faithful : p.Faithful m alerts []) (done : p.isDone = true)
    (other : q.Faithful m alerts []) (doneToo : q.isDone = true) : q.codesFailed = p.codesFailed := by
  have sorted := faithful.codesFailed_sorted done
  have sortedToo := other.codesFailed_sorted doneToo
  have same : ∀ code, code ∈ q.codesFailed ↔ code ∈ p.codesFailed := by
    intro code
    rw [Pass.codesFailed, Pass.codesFailed, List.mem_mergeSort, List.mem_mergeSort,
      faithful.mem_failed done, other.mem_failed doneToo]
  have perm : q.codesFailed.Perm p.codesFailed :=
    (List.perm_ext_iff_of_nodup (sortedToo.imp String.ne_of_lt) (sorted.imp String.ne_of_lt)).mpr same
  exact perm.eq_of_pairwise (fun a b _ _ below above => absurd (String.lt_trans below above)
    (String.lt_irrefl a)) sortedToo sorted

/-- What is judged when all lookups have ended does not hang on how they came to their end. -/
theorem Course.judge (course : Course o m.Answers (.ofAlerts alerts) calls p)
    (done : p.isDone = true) (other : Course o' m.Answers (.ofAlerts alerts) calls' q)
    (doneToo : q.isDone = true) (bars : o'.historyBars = o.historyBars)
    (period : o'.period = o.period) (w : Watch) (e : Surroundings) : w.judge e q = w.judge e p := by
  have listed : p.alerts = alerts := course.sourced.listed
  have listedToo : q.alerts = alerts := other.sourced.listed
  have seen : ∀ a ∈ alerts, (q.snapshot a.code).map Snapshot.timeless =
      (p.snapshot a.code).map Snapshot.timeless := by
    intro a member
    have among := List.mem_map_of_mem (f := Alert.code) member
    rw [course.sourced.view course.faithful done among,
      other.sourced.view other.faithful doneToo among, Market.view_congr bars period]
  have decided : w.processAll e q.snapshot q.alerts = w.processAll e p.snapshot p.alerts := by
    rw [listed, listedToo]
    exact Watch.processAll_congr seen
  rw [Watch.judge, Watch.judge, decided, codeCount, codeCount, listed, listedToo,
    course.faithful.codesFailed done other.faithful doneToo]

end Pass

namespace Timeline

variable {t u later : Timeline} {err : AlertError} {first p : Pass}

theorem tick_refused (begun : t.watch.beginTick t.surroundings = .error err) :
    t.tick = (.error err, t) := by
  simp only [tick, begun]

theorem tick_finished (begun : t.watch.beginTick t.surroundings = .ok first)
    (finished : t.finish first = (p, later)) :
    t.tick = (.ok (later.watch.judge later.surroundings p).1,
      { later with watch := (later.watch.judge later.surroundings p).2 }) := by
  simp only [tick, begun, finished]

theorem finish_course {among : Market → Prop} {alerts : List Alert} (admitted : among t.market)
    (undisturbed : t.Undisturbed (.ofAlerts alerts)) :
    ∃ p later calls, t.finish (.ofAlerts alerts) = (p, later) ∧ p.isDone = true ∧
      Pass.Course t.options among (.ofAlerts alerts) calls p ∧
      later.watch = t.watch ∧ later.outages = t.outages ∧ later.clock = t.judgedAt alerts := by
  obtain ⟨p, later, finished, done, -, watch, outages⟩ := finish_ends undisturbed
  have led := complete_led (t.patience (.ofAlerts alerts)) t (.ofAlerts alerts)
  rw [← finish, finished] at led
  obtain ⟨calls, course⟩ := led.course admitted
  exact ⟨p, later, calls, finished, done, course, watch, outages, by rw [judgedAt, finished]⟩

/-- In whatever order the lookups of a pass end, and however many run at a time, the pass judges the
same, reports the same and leaves the same behind. So do two ticks of the same watch that judge at
the same time, in markets that give the same answers after whatever delays. -/
theorem order_of_lookups_hidden :
    (∀ (m : Market) (o o' : FetchOptions) (alerts : List Alert) (calls calls' : List ProviderCall)
      (p q : Pass), o'.historyBars = o.historyBars → o'.period = o.period →
      Pass.Course o m.Answers (.ofAlerts alerts) calls p → p.isDone = true →
      Pass.Course o' m.Answers (.ofAlerts alerts) calls' q → q.isDone = true →
      ∀ (w : Watch) (e : Surroundings), w.judge e q = w.judge e p) ∧
    ∀ t u : Timeline, u.watch = t.watch → u.outages = t.outages → t.market.Answers u.market →
      u.options.historyBars = t.options.historyBars → u.options.period = t.options.period →
      t.Undisturbed (.ofAlerts t.store.listActive) →
      u.Undisturbed (.ofAlerts t.store.listActive) →
      u.judgedAt t.store.listActive = t.judgedAt t.store.listActive →
      u.tick.1 = t.tick.1 ∧ u.tick.2.watch = t.tick.2.watch := by
  constructor
  · intro m o o' alerts calls calls' p q bars period course done other doneToo w e
    exact course.judge done other doneToo bars period w e
  · intro t u watch outages answers bars period quiet quietToo clock
    have begins : u.watch.beginTick u.surroundings = t.watch.beginTick t.surroundings := by
      simp only [Watch.beginTick, Desk.listActive, surroundings, watch, outages]
    cases begun : t.watch.beginTick t.surroundings with
    | error err =>
      rw [begun] at begins
      rw [tick_refused begun, tick_refused begins]
      exact ⟨rfl, watch⟩
    | ok first =>
      obtain rfl := beginTick_ok begun
      rw [begun] at begins
      obtain ⟨p, later, calls, finished, done, course, kept, same, now⟩ :=
        finish_course (Market.Answers.refl t.market) quiet
      obtain ⟨q, later', calls', finished', done', course', kept', same', now'⟩ :=
        finish_course answers quietToo
      have judging : later'.surroundings = later.surroundings := by
        rw [surroundings, surroundings, same, same', outages, now, now', clock]
      have judged := course.judge done course' done' bars period t.watch later.surroundings
      rw [tick_finished begun finished, tick_finished begins finished', kept, kept', watch, judging,
        judged]
      exact ⟨rfl, rfl⟩

def hurriedMarket : Timeline :=
  { halfMarket with
    market := { halfMarket.market with delay := fun code => if code = "600519" then 8 else 1 }
    options := { halfMarket.options with concurrency := 7 } }

def deadMarket : Market := { quote := fun _ => .error "timed out" }

theorem hurry_is_hidden :
    hurriedMarket.tick.1 = halfMarket.tick.1 ∧
    hurriedMarket.tick.2.watch = halfMarket.tick.2.watch ∧
    halfMarket.tick.1.toOption.map Report.fired = some 1 ∧
    ∃ p q : Pass, p.failed.map Prod.fst = ["000001", "600519"] ∧
      q.failed.map Prod.fst = ["600519", "000001"] ∧
      ∀ (w : Watch) (e : Surroundings), w.judge e q = w.judge e p := by
  obtain ⟨courses, ticks⟩ := order_of_lookups_hidden
  have pass := beginTick_ok halfMarket_begins
  have clock : hurriedMarket.judgedAt halfMarket.store.listActive =
      halfMarket.judgedAt halfMarket.store.listActive := by
    rw [judgedAt, judgedAt, ← pass]
    decide +kernel
  have fired : halfMarket.tick.1.toOption.map Report.fired = some 1 := by
    rw [tick, halfMarket_begins]
    decide +kernel
  have quiet : halfMarket.Undisturbed (.ofAlerts halfMarket.store.listActive) := by
    intro due going
    cases going
  have quietToo : hurriedMarket.Undisturbed (.ofAlerts halfMarket.store.listActive) := by
    intro due going
    cases going
  obtain ⟨report, watch⟩ := ticks halfMarket hurriedMarket rfl rfl ⟨rfl, rfl⟩ rfl rfl quiet quietToo
    clock
  refine ⟨report, watch, fired, ?_⟩
  -- Both lookups are under way at once, and end in one order or the other.
  have begun : ∀ o : FetchOptions, 2 ≤ Pass.bound o →
      Pass.Course o deadMarket.Answers (.ofAlerts halfMarket.store.listActive)
        [.quote "000001", .quote "600519"]
        { alerts := halfMarket.store.alerts, waiting := []
          inFlight := [("000001", 0), ("600519", 0)] } := by
    intro o room
    rw [← pass]
    exact Pass.begins_course (fun _ => 0) ["000001", "600519"] rfl room
  have inOrder := ((begun {} (by decide)).on
    (.ends (.refl deadMarket) 0 (List.nil_append _).symm)).on
    (.ends (.refl deadMarket) 0 (List.nil_append _).symm)
  have reversed := ((begun { concurrency := 2 } (by decide)).on
    (.ends (.refl deadMarket) 0 (List.singleton_append).symm)).on
    (.ends (.refl deadMarket) 0 (List.nil_append _).symm)
  exact ⟨_, _, rfl, rfl,
    courses deadMarket {} { concurrency := 2 } _ _ _ _ _ rfl rfl inOrder rfl reversed rfl⟩

end Timeline

end TickerWatch
