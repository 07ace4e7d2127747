import TickerWatch.Proofs.Desk.Fires

namespace TickerWatch

def Snapshot.timeless (x : Snapshot) : Snapshot := { x with fetchedAt := 0 }

theorem Condition.verdict_timeless (c : Condition) (x : Snapshot) (sensitivity : Float) :
    c.verdict x.timeless sensitivity = c.verdict x sensitivity := by
  have value : c.field.value? x.timeless = c.field.value? x := by
    cases c.field <;> rfl
  have benchmark : ∀ actual reference, benchmark? x.timeless actual sensitivity c.field reference =
      benchmark? x actual sensitivity c.field reference := by
    intro actual reference
    cases c.field <;> cases reference <;> rfl
  simp only [verdict, value, benchmark]

theorem Rule.verdict_timeless (r : Rule) (x : Snapshot) (sensitivity : Float) :
    r.verdict x.timeless sensitivity = r.verdict x sensitivity := by
  simp only [verdict, Condition.verdict_timeless]

def Market.view (m : Market) (o : FetchOptions) (code : String) : Option Snapshot :=
  (m.quote code).toOption.map fun q => .build code q (m.history o code).1 0

namespace Pass

variable {o : FetchOptions} {m : Market} {alerts : List Alert} {p q r : Pass}

inductive Led (o : FetchOptions) (m : Market) (p : Pass) : Pass → Prop
  | start : Led o m p p
  | on {q : Pass} (led : Led o m p q) (time : Nat) (now : Int) :
      Led o m p (q.advance o m time now).1

theorem Led.trans (first : Led o m p q) (second : Led o m q r) : Led o m p r := by
  induction second with
  | start => exact first
  | on _ time now ih => exact ih.on time now

structure Sourced (o : FetchOptions) (m : Market) (alerts : List Alert) (p : Pass) : Prop where
  listed : p.alerts = alerts
  found : ∀ l ∈ p.found, ∃ q now, m.quote l.1 = .ok q ∧
    l.2 = .build l.1 q (m.history o l.1).1 now
  failed : ∀ l ∈ p.failed, m.quote l.1 = .error l.2

theorem ofAlerts_sourced (o : FetchOptions) (m : Market) (alerts : List Alert) :
    (ofAlerts alerts).Sourced o m alerts := ⟨rfl, nofun, nofun⟩

theorem Sourced.enter (sourced : p.Sourced o m alerts) (code : String) (now : Int) :
    (p.enter code (m.fetch o code now).1).Sourced o m alerts := by
  cases quoted : m.quote code with
  | error reason =>
    have fetched : (m.fetch o code now).1 = .error reason := by simp only [Market.fetch, quoted]
    rw [fetched]
    refine ⟨sourced.listed, sourced.found, fun l member => ?_⟩
    rcases List.mem_append.mp member with before | new
    · exact sourced.failed l before
    · rw [List.mem_singleton.mp new]
      exact quoted
  | ok quote =>
    have fetched : (m.fetch o code now).1 =
        .ok (.build code quote (m.history o code).1 now) := by simp only [Market.fetch, quoted]
    rw [fetched]
    refine ⟨sourced.listed, fun l member => ?_, sourced.failed⟩
    rcases List.mem_append.mp member with before | new
    · exact sourced.found l before
    · rw [List.mem_singleton.mp new]
      exact ⟨quote, now, quoted, rfl⟩

theorem Sourced.enterAll (sourced : p.Sourced o m alerts) (now : Int) (ended : List String) :
    (enterAll o m now p ended).1.Sourced o m alerts := by
  induction ended generalizing p with
  | nil => exact sourced
  | cons code ended ih => exact ih (sourced.enter code now)

theorem Sourced.land (sourced : p.Sourced o m alerts) (time : Nat) (now : Int) :
    (p.land o m time now).1.Sourced o m alerts := by
  unfold Pass.land
  cases p.inFlight.partition fun l => l.2 ≤ time with
  | mk due later =>
    have left : Sourced o m alerts { p with inFlight := later } :=
      ⟨sourced.listed, sourced.found, sourced.failed⟩
    exact left.enterAll now (due.map Prod.fst)

theorem Sourced.rounds (sourced : p.Sourced o m alerts) (time : Nat) (now : Int) (fuel : Nat) :
    (rounds o m time now fuel p).1.Sourced o m alerts := by
  induction fuel generalizing p with
  | zero => exact sourced
  | succ fuel ih =>
    unfold Pass.rounds
    split
    · exact sourced
    · have launched : (p.launch o m time).1.Sourced o m alerts :=
        ⟨sourced.listed, sourced.found, sourced.failed⟩
      exact ih (launched.land time now)

theorem Led.sourced (led : Led o m (ofAlerts alerts) p) : p.Sourced o m alerts := by
  induction led with
  | start => exact ofAlerts_sourced o m alerts
  | on _ time now ih => exact ih.rounds time now _

theorem Sourced.snapshot {code : String} {x : Snapshot} (sourced : p.Sourced o m alerts)
    (seen : p.snapshot code = some x) :
    ∃ q now, m.quote code = .ok q ∧ x = .build code q (m.history o code).1 now := by
  obtain ⟨before, after, found, -⟩ := List.lookup_eq_some_iff.mp seen
  exact sourced.found (code, x) (by simp [found])

theorem Sourced.view {code : String} (sourced : p.Sourced o m alerts)
    (faithful : p.Faithful m alerts []) (done : p.isDone = true)
    (among : code ∈ alerts.map Alert.code) :
    (p.snapshot code).map Snapshot.timeless = m.view o code := by
  have absent := faithful.snapshot_none done among
  cases seen : p.snapshot code with
  | none =>
    rw [seen] at absent
    cases quoted : m.quote code with
    | ok q =>
      rw [quoted] at absent
      cases absent
    | error reason => simp only [Market.view, quoted, Except.toOption, Option.map_none]
  | some x =>
    obtain ⟨q, now, quoted, rfl⟩ := sourced.snapshot seen
    simp only [Market.view, quoted, Except.toOption, Option.map_some]
    rfl

end Pass

namespace Watch

variable {w : Watch} {e : Surroundings} {a : Alert} {x : Snapshot} {p : Pass}

def outcomes (w : Watch) (e : Surroundings) (p : Pass) : List (Alert × Decision) :=
  p.alerts.zip (w.processAll e p.snapshot p.alerts).1

theorem outcomes_alerts (w : Watch) (e : Surroundings) (p : Pass) :
    (w.outcomes e p).map Prod.fst = p.alerts :=
  List.map_fst_zip (Nat.le_of_eq (w.processAll_length e p.snapshot p.alerts).symm)

theorem judge_outcomes (w : Watch) (e : Surroundings) (p : Pass) :
    (w.judge e p).1 =
      .ofDecisions p.codeCount p.codesFailed ((w.outcomes e p).map Prod.snd) := by
  have decisions : (w.outcomes e p).map Prod.snd = (w.processAll e p.snapshot p.alerts).1 :=
    List.map_snd_zip (Nat.le_of_eq (w.processAll_length e p.snapshot p.alerts))
  rw [decisions]
  rfl

/-- What becomes of an alert is decided by its snapshot, at some moment of the pass. -/
theorem mem_processAll {snapshot : String → Option Snapshot} {as : List Alert} {d : Decision}
    (member : (a, d) ∈ as.zip (w.processAll e snapshot as).1) :
    (snapshot a.code = none ∧ d = .skipped) ∨
      ∃ v x, snapshot a.code = some x ∧ d = (process v e a x).1 := by
  induction as generalizing w with
  | nil => cases member
  | cons b bs ih =>
    cases seen : snapshot b.code with
    | none =>
      simp only [processAll, seen, List.zip_cons_cons] at member
      rcases List.mem_cons.mp member with here | later
      · cases here
        exact .inl ⟨seen, rfl⟩
      · exact ih later
    | some x =>
      simp only [processAll, seen, List.zip_cons_cons] at member
      rcases List.mem_cons.mp member with here | later
      · cases here
        exact .inr ⟨w, x, seen, rfl⟩
      · exact ih later

def firing (w : Watch) (e : Surroundings) (a : Alert) (x : Snapshot) (message : String) : Watch :=
  { w with desk := (w.desk.fire e a x message).2 }.dispatch (Desk.notification a x message e.now)

theorem process_eq (w : Watch) (e : Surroundings) (a : Alert) (x : Snapshot) :
    w.process e a x =
      match w.desk.check e a x with
      | .error _ => (.skipped, w)
      | .ok none => (.cooling, w)
      | .ok (some v) =>
        if v.fired then (.fired (Desk.notification a x v.message e.now), w.firing e a x v.message)
        else (.quiet, w) := rfl

theorem process_fires (fires : (w.process e a x).1.isFired = true) :
    (a.rule.verdict x a.sensitivity).fired = true := by
  rw [process_eq] at fires
  split at fires
  · cases fires
  · cases fires
  · rename_i v checked
    split at fires
    · rename_i fired
      rw [(Desk.check_some.mp checked).2]
      exact fired
    · cases fires

theorem firing_notifications (w : Watch) (e : Surroundings) (a : Alert) (x : Snapshot)
    (message : String) :
    (w.firing e a x message).desk.feed.notifications =
      w.desk.feed.notifications ++ [Desk.notification a x message e.now] := by
  have sent : (w.firing e a x message).desk.feed =
      (w.desk.fire e a x message).2.feed.send (.triggered _) := rfl
  rw [sent, Feed.notifications_triggered, Desk.fire_notifications]

theorem process_sends (w : Watch) (e : Surroundings) (a : Alert) (x : Snapshot) :
    (w.process e a x).2.desk.feed.notifications =
      w.desk.feed.notifications ++ (w.process e a x).1.notification?.toList := by
  rw [process_eq]
  split
  · exact (List.append_nil _).symm
  · exact (List.append_nil _).symm
  · split
    · exact w.firing_notifications e a x _
    · exact (List.append_nil _).symm

theorem processAll_sends (w : Watch) (e : Surroundings) (snapshot : String → Option Snapshot)
    (as : List Alert) :
    (w.processAll e snapshot as).2.desk.feed.notifications =
      w.desk.feed.notifications ++
        (w.processAll e snapshot as).1.filterMap Decision.notification? := by
  induction as generalizing w with
  | nil => exact (List.append_nil _).symm
  | cons a as ih =>
    cases seen : snapshot a.code with
    | none =>
      simp only [processAll, seen]
      exact ih w
    | some x =>
      simp only [processAll, seen]
      rw [ih, process_sends, List.append_assoc]
      cases (w.process e a x).1 <;> rfl

theorem process_timeless (w : Watch) (e : Surroundings) (a : Alert) (x : Snapshot) :
    w.process e a x.timeless = w.process e a x := by
  have checked : w.desk.check e a x.timeless = w.desk.check e a x := by
    simp only [Desk.check, Rule.verdict_timeless]
  rw [process, checked, process]
  rfl

theorem processAll_congr {f g : String → Option Snapshot} {as : List Alert}
    (same : ∀ a ∈ as, (f a.code).map Snapshot.timeless = (g a.code).map Snapshot.timeless) :
    w.processAll e f as = w.processAll e g as := by
  induction as generalizing w with
  | nil => rfl
  | cons a as ih =>
    have first := same a List.mem_cons_self
    have rest : ∀ w : Watch, w.processAll e f as = w.processAll e g as :=
      fun _ => ih fun b member => same b (List.mem_cons_of_mem a member)
    cases seen : f a.code with
    | none =>
      have unseen : g a.code = none := by simpa [seen] using first.symm
      simp only [processAll, seen, unseen, rest]
    | some x =>
      obtain ⟨y, seenToo, alike⟩ : ∃ y, g a.code = some y ∧ y.timeless = x.timeless := by
        simpa [seen] using first.symm
      have processed : w.process e a x = w.process e a y := by
        rw [← process_timeless, ← alike, process_timeless]
      simp only [processAll, seen, seenToo, processed, rest]

end Watch

namespace Timeline

variable {t after : Timeline}

theorem stepLoop?_sources {l : Loop} (stepped : t.stepLoop? l = some after) :
    after.market = t.market ∧ after.options = t.options := by
  unfold stepLoop? at stepped
  split at stepped
  · cases stepped
    exact ⟨rfl, rfl⟩
  · obtain ⟨w, -, rfl⟩ := Option.map_eq_some_iff.mp stepped
    unfold wake
    split
    · unfold beginTick
      split <;> exact ⟨rfl, rfl⟩
    · exact ⟨rfl, rfl⟩
  · split at stepped
    · cases stepped
      exact ⟨rfl, rfl⟩
    · split at stepped
      · cases stepped
      · cases stepped
        exact ⟨rfl, rfl⟩
  · cases stepped
    exact ⟨rfl, rfl⟩

theorem settleFrom_sources (fuel : Nat) (t : Timeline) :
    (settleFrom fuel t).market = t.market ∧ (settleFrom fuel t).options = t.options := by
  induction fuel generalizing t with
  | zero => exact ⟨rfl, rfl⟩
  | succ fuel ih =>
    unfold settleFrom
    cases found : t.polling.loops.findSome? t.stepLoop? with
    | none => exact ⟨rfl, rfl⟩
    | some after =>
      obtain ⟨l, -, stepped⟩ := List.exists_of_findSome?_eq_some found
      obtain ⟨market, options⟩ := stepLoop?_sources stepped
      rw [← market, ← options]
      exact ih after

theorem complete_led (fuel : Nat) (t : Timeline) (p : Pass) :
    p.Led t.options t.market (complete fuel t p).1 := by
  -- Loops that settle in between leave market and options to the turns that follow.
  induction fuel generalizing t p with
  | zero => exact .start
  | succ fuel ih =>
    have first : p.Led t.options t.market (t.advance p).1 := Pass.Led.start.on t.time t.clock
    have rest : ∀ u : Timeline, u.market = t.market → u.options = t.options →
        p.Led t.options t.market (complete fuel u (t.advance p).1).1 := by
      intro u market options
      have later := ih u (t.advance p).1
      rw [market, options] at later
      exact first.trans later
    unfold complete
    dsimp only
    split
    · exact first
    · split
      · exact rest _ rfl rfl
      · obtain ⟨market, options⟩ := settleFrom_sources _ _
        exact rest _ market options

theorem finish_sourced {alerts : List Alert} {p : Pass} {later : Timeline}
    (finished : t.finish (.ofAlerts alerts) = (p, later)) :
    p.Sourced t.options t.market alerts := by
  have led := complete_led (t.patience (.ofAlerts alerts)) t (.ofAlerts alerts)
  rw [← finish, finished] at led
  exact led.sourced

/-- What the clock shows when these alerts, looked up from `t` on, are judged. -/
def judgedAt (t : Timeline) (alerts : List Alert) : Int := (t.finish (.ofAlerts alerts)).2.clock

def judging (t : Timeline) (alerts : List Alert) : Surroundings :=
  { now := t.judgedAt alerts, outages := t.outages }

def judged (t : Timeline) (alerts : List Alert) : List Decision × Watch :=
  t.watch.processAll (t.judging alerts) (t.market.view t.options) alerts

theorem finish_judged {alerts : List Alert} (undisturbed : t.Undisturbed (.ofAlerts alerts)) :
    ∃ p later, t.finish (.ofAlerts alerts) = (p, later) ∧ p.isDone = true ∧
      p.Faithful t.market alerts [] ∧ p.Sourced t.options t.market alerts ∧
      later.watch = t.watch ∧
      t.watch.processAll later.surroundings p.snapshot p.alerts = t.judged alerts := by
  obtain ⟨p, later, finished, done, faithful, watch, outages⟩ := finish_ends undisturbed
  have sourced := finish_sourced finished
  have clock : t.judgedAt alerts = later.clock := by rw [judgedAt, finished]
  refine ⟨p, later, finished, done, faithful, sourced, watch, ?_⟩
  -- What was found differs from what the market shows in the times of the fetches only.
  rw [surroundings, outages, judged, judging, clock, sourced.listed]
  refine Watch.processAll_congr fun a member => ?_
  have seen := sourced.view faithful done (List.mem_map_of_mem member)
  have shown : (t.market.view t.options a.code).map Snapshot.timeless =
      t.market.view t.options a.code := by
    rw [Market.view, Option.map_map]
    rfl
  rw [seen, shown]

def tickOutcomes (t : Timeline) : List (Alert × Decision) :=
  match t.watch.beginTick t.surroundings with
  | .error _ => []
  | .ok p =>
    let (p, t) := t.finish p
    t.watch.outcomes t.surroundings p

/-- A tick that goes through lists the alerts, looks up their stocks, and judges them by what it has
found. -/
theorem tick_ok {r : Report} (ended : t.tick = (.ok r, after)) :
    ∃ p later, t.watch.beginTick t.surroundings = .ok (.ofAlerts t.store.listActive) ∧
      t.finish (.ofAlerts t.store.listActive) = (p, later) ∧
      p.Sourced t.options t.market t.store.listActive ∧
      t.tickOutcomes = later.watch.outcomes later.surroundings p ∧
      r = .ofDecisions p.codeCount p.codesFailed (t.tickOutcomes.map Prod.snd) ∧
      after = { later with watch := (later.watch.judge later.surroundings p).2 } := by
  cases begun : t.watch.beginTick t.surroundings with
  | error err => simp [tick, begun] at ended
  | ok listing =>
    obtain rfl := beginTick_ok begun
    cases finished : t.finish (.ofAlerts t.store.listActive) with
    | mk p later =>
      have outcomes : t.tickOutcomes = later.watch.outcomes later.surroundings p := by
        simp only [tickOutcomes, begun, finished]
      simp only [tick, begun, finished] at ended
      cases ended
      refine ⟨p, later, rfl, rfl, finish_sourced finished, outcomes, ?_, rfl⟩
      rw [outcomes, Watch.judge_outcomes]

structure Decided (t : Timeline) (r : Report) (after : Timeline) : Prop where
  ended : t.tick = (.ok r, after)
  alerts : t.tickOutcomes.map Prod.fst = t.store.listActive
  report : r = .ofDecisions r.codes r.codesFailed (t.tickOutcomes.map Prod.snd)
  sent : after.feed.notifications =
    t.feed.notifications ++ t.tickOutcomes.filterMap fun outcome => outcome.2.notification?

theorem tick_judged
    (begun : t.watch.beginTick t.surroundings = .ok (.ofAlerts t.store.listActive))
    (undisturbed : t.Undisturbed (.ofAlerts t.store.listActive)) :
    ∃ r after, t.Decided r after ∧
      t.tickOutcomes = t.store.listActive.zip (t.judged t.store.listActive).1 ∧
      after.watch = (t.judged t.store.listActive).2 ∧
      ∀ code, code ∈ r.codesFailed ↔
        code ∈ t.store.listActive.map Alert.code ∧ (t.market.quote code).isOk = false := by
  obtain ⟨p, later, finished, done, faithful, sourced, watch, judged⟩ := finish_judged undisturbed
  have judge : later.watch.judge later.surroundings p =
      (.ofDecisions p.codeCount p.codesFailed (t.judged t.store.listActive).1,
        (t.judged t.store.listActive).2) := by
    rw [Watch.judge, watch, judged]
  have outcomes : t.tickOutcomes = t.store.listActive.zip (t.judged t.store.listActive).1 := by
    simp only [tickOutcomes, begun, finished, Watch.outcomes, watch]
    rw [judged, sourced.listed]
  have length : (t.judged t.store.listActive).1.length = t.store.listActive.length :=
    Watch.processAll_length ..
  have alerts : t.tickOutcomes.map Prod.fst = t.store.listActive := by
    rw [outcomes]
    exact List.map_fst_zip (Nat.le_of_eq length.symm)
  have decisions : t.tickOutcomes.map Prod.snd = (t.judged t.store.listActive).1 := by
    rw [outcomes]
    exact List.map_snd_zip (Nat.le_of_eq length)
  refine ⟨.ofDecisions p.codeCount p.codesFailed (t.judged t.store.listActive).1,
    { later with watch := (t.judged t.store.listActive).2 }, ⟨?_, alerts, ?_, ?_⟩, outcomes, rfl,
    fun code => ?_⟩
  · simp only [tick, begun, finished, judge]
  · rw [decisions]
    rfl
  · have sent := t.watch.processAll_sends (t.judging t.store.listActive)
      (t.market.view t.options) t.store.listActive
    have notified : t.tickOutcomes.filterMap (fun outcome => outcome.2.notification?) =
        (t.judged t.store.listActive).1.filterMap Decision.notification? := by
      rw [← decisions, List.filterMap_map]
      rfl
    rw [notified]
    exact sent
  · rw [← faithful.mem_failed done]
    exact (List.mergeSort_perm _ _).mem_iff

end Timeline

end TickerWatch
