import TickerWatch.Proofs.Monitor.LookupOrder
import TickerWatch.Proofs.Monitor.Patience

namespace TickerWatch

abbrev Tick := Option (List Alert × List ProviderCall)

def Doing.tickAfter (tick : Tick) : Doing → Tick
  | begins listed => some (listed, [])
  | asks calls => tick.map fun (listed, before) => (listed, before ++ calls)
  | _ => tick

def lastTick (beats : List Beat) : Tick :=
  beats.foldl (fun tick beat => beat.doing.tickAfter tick) none

theorem lastTick_append (beats more : List Beat) :
    lastTick (beats ++ more) =
      more.foldl (fun tick beat => beat.doing.tickAfter tick) (lastTick beats) :=
  List.foldl_append

def Market.Kin (m n : Market) : Prop := n.bars.isSome = m.bars.isSome

namespace Pass

variable {o : FetchOptions} {among : Market → Prop} {m : Market} {alerts : List Alert} {p : Pass}
  {calls : List ProviderCall} {asking : Bool}

theorem Course.bounded (course : Course o among (.ofAlerts alerts) calls p)
    (asks : ∀ m, among m → m.asksBars o = asking) :
    p.inFlight.length ≤ max 1 o.concurrency ∧
      (p.isDone = true → p.Asked o asking alerts calls) := by
  have tallied := course.tallied asks (ofAlerts_tallied o asking alerts)
  rw [List.nil_append] at tallied
  exact ⟨Nat.max_comm o.concurrency 1 ▸ tallied.room, tallied.asked⟩

theorem Faithful.mem_found (faithful : p.Faithful m alerts []) (done : p.isDone = true)
    (code : String) :
    code ∈ p.found.map Prod.fst ↔
      code ∈ alerts.map Alert.code ∧ (m.quote code).isOk = true := by
  rw [← faithful.known done]
  constructor
  · intro found
    obtain ⟨l, member, rfl⟩ := List.mem_map.mp found
    exact ⟨.inl found, faithful.found l member⟩
  · rintro ⟨found | failed, answered⟩
    · exact found
    · obtain ⟨l, member, rfl⟩ := List.mem_map.mp failed
      rw [faithful.failed l member] at answered
      cases answered

end Pass

namespace Timeline

variable {first t u later after : Timeline} {l : Loop} {p : Pass} {log : List Entry}
  {calls new : List ProviderCall} {doings : List Doing} {next : Option Phase} {err : AlertError}

structure LooksUp (t : Timeline) (p : Pass) (later : Timeline) (calls new : List ProviderCall)
    (log : List Entry) : Prop where
  course : Pass.Course t.options t.market.Answers (.ofAlerts t.store.listActive) calls p
  done : p.isDone = true
  asked : p.Asked t.options (t.market.asksBars t.options) t.store.listActive calls
  found : ∀ code, code ∈ p.found.map Prod.fst ↔
    code ∈ t.store.listActive.map Alert.code ∧ (t.market.quote code).isOk = true
  judged : t.tick = (.ok (later.watch.judge later.surroundings p).1,
    { later with watch := (later.watch.judge later.surroundings p).2 })
  meanwhile : t.Meanwhile calls new log later
  undisturbed : t.Undisturbed (.ofAlerts t.store.listActive) → later.watch = t.watch

theorem tick_looksUp {listing : Pass} (sound : t.polling.Sound) (rest : t.AtRest)
    (begun : t.watch.beginTick t.surroundings = .ok listing) :
    ∃ p later calls new log, t.LooksUp p later calls new log := by
  obtain rfl := beginTick_ok begun
  cases finished : t.finish (.ofAlerts t.store.listActive) with
  | mk p later =>
    obtain ⟨calls, new, log, course, meanwhile⟩ :=
      finish_runs (Market.Answers.refl t.market) rest.calm sound finished
    have done := finish_done sound finished
    have asks : ∀ m, t.market.Answers m → m.asksBars t.options = t.market.asksBars t.options :=
      fun m answers => by rw [Market.asksBars, Market.asksBars, answers.bars]
    refine ⟨p, later, calls, new, log, course, done, (course.bounded asks).2 done,
      course.faithful.mem_found done, tick_finished begun finished, meanwhile,
      fun undisturbed => ?_⟩
    obtain ⟨q, ending, same, -, -, watch, -⟩ := finish_ends undisturbed
    rw [finished] at same
    cases same
    exact watch

theorem Runs.sources (run : t.Runs log u) :
    u.options = t.options ∧ u.market.bars.isSome = t.market.bars.isSome := by
  have kept : ∀ {u v : Timeline} {more : List Entry}, u.Passage more v →
      v.options = u.options ∧ v.market.bars.isSome = u.market.bars.isSome := by
    intro u v more passage
    cases passage with
    | setInterval positive => rw [setInterval_polling positive]; exact ⟨rfl, rfl⟩
    | around polling time options history => exact ⟨options, history⟩
    | loop lives does =>
      obtain ⟨-, options, market⟩ := does.around
      exact ⟨options, by rw [market]⟩
    | _ => exact ⟨rfl, rfl⟩
  induction run with
  | begin => exact ⟨rfl, rfl⟩
  | on _ passage ih =>
    obtain ⟨options, history⟩ := kept passage
    exact ⟨options.trans ih.1, history.trans ih.2⟩

/-- A loop inside a tick has come there by a course of the lookups that it listed. -/
theorem Runs.looks (run : first.Runs log t) (sound : first.polling.Sound)
    (fresh : first.polling.loops = []) (lives : l ∈ t.polling.loops) (ticks : l.phase = .ticking p) :
    ∃ listed calls, lastTick (beatsOf l.generation log) = some (listed, calls) ∧
      Pass.Course first.options first.market.Kin (.ofAlerts listed) calls p := by
  induction run generalizing l p with
  | begin =>
    rw [fresh] at lives
    cases lives
  | @on log more u v run passage ih =>
    obtain ⟨options, history⟩ := run.sources
    rw [beatsOf_append]
    -- Only a step of the loop itself brings it into a tick, or further in it.
    rcases passage.origin (run.sound sound) lives with
      ⟨k, before, same, phase, -, quiet⟩ | ⟨begun, -⟩ | ⟨k, before, doings, phase, does, rfl, own⟩
    · rw [quiet, List.append_nil, ← same]
      exact ih before (phase.trans ticks)
    · rw [begun] at ticks
      cases ticks
    · rw [own, lastTick_append]
      cases does with
      | begins waits expired untold listed =>
        cases ticks
        exact ⟨_, _, rfl, .start⟩
      | @asks q was busy free =>
        cases ticks
        obtain ⟨listed, calls, known, course⟩ := ih before was
        have onward : Pass.Course u.options first.market.Kin q _ _ :=
          Pass.advance_course history q u.time u.clock
        rw [options] at onward
        refine ⟨listed, calls ++ (q.advance u.options u.market u.time u.clock).2, ?_, ?_⟩
        · show Option.map _ (lastTick (beatsOf k.generation log)) = _
          rw [known]
          rfl
        · have whole := course.trans onward
          rw [← options] at whole ⊢
          exact whole
      | _ => cases ticks

theorem Does.watch (does : t.Does l doings next after) :
    after.watch = t.watch ∨ ∃ p, l.phase = .ticking p ∧ p.isDone = true ∧
      after.watch = (t.watch.judge t.surroundings p).2 := by
  cases does with
  | ends ticks done => exact .inr ⟨_, ticks, done, rfl⟩
  | _ => exact .inl rfl

theorem Does.lists {listed : List Alert} (does : t.Does l doings next after)
    (begun : .begins listed ∈ doings) :
    (t.watch.beginTick t.surroundings = .ok (.ofAlerts t.store.listActive) ∧
      listed = t.store.listActive) ∨
    ∃ err, t.watch.beginTick t.surroundings = .error err ∧ listed = [] ∧ after.calls = t.calls := by
  cases does with
  | begins waits expired untold active =>
    rw [List.mem_singleton, Doing.begins.injEq] at begun
    exact .inl ⟨active, begun⟩
  | fails waits expired untold refused =>
    simp only [List.mem_cons, Doing.begins.injEq, reduceCtorEq, List.not_mem_nil, or_false] at begun
    exact .inr ⟨_, refused, begun, rfl⟩
  | _ => simp at begun

/-- How a step of a loop goes through after a run: what it asks for, lists and judges. -/
structure LoopLooksUp (t : Timeline) (log : List Entry) (l : Loop) (doings : List Doing)
    (after : Timeline) : Prop where
  asks : after.calls = (doings.flatMap Doing.calls).reverse ++ t.calls
  lists : ∀ listed, .begins listed ∈ doings →
    (t.watch.beginTick t.surroundings = .ok (.ofAlerts t.store.listActive) ∧
      listed = t.store.listActive) ∨
    ∃ err, t.watch.beginTick t.surroundings = .error err ∧ listed = [] ∧ after.calls = t.calls
  judges : after.watch = t.watch ∨ ∃ p listed calls, l.phase = .ticking p ∧
    lastTick (beatsOf l.generation log) = some (listed, calls) ∧
    p.Asked t.options (t.market.asksBars t.options) listed calls ∧
    after.watch = (t.watch.judge t.surroundings p).2

theorem Runs.asks (run : first.Runs log t) {m : Market} (kin : first.market.Kin m) :
    m.asksBars first.options = t.market.asksBars t.options := by
  obtain ⟨options, history⟩ := run.sources
  rw [Market.asksBars, Market.asksBars, options, history, kin]

theorem Runs.looksUp (run : first.Runs log t) (sound : first.polling.Sound)
    (fresh : first.polling.loops = []) (lives : l ∈ t.polling.loops)
    (does : t.Does l doings next after) : t.LoopLooksUp log l doings after := by
  refine ⟨does.calls, fun listed begun => does.lists begun, ?_⟩
  rcases does.watch with same | ⟨p, ticks, done, judged⟩
  · exact .inl same
  · obtain ⟨listed, calls, known, course⟩ := run.looks sound fresh lives ticks
    have asked := (course.bounded fun m kin => run.asks kin).2 done
    rw [← run.sources.1] at asked
    exact .inr ⟨p, listed, calls, ticks, known, asked, judged⟩

/-- However the lookups of a tick begin and end, no more run at a time than there may, and in the
end each code among the listed alerts has been asked for once. A caller's tick judges when all its
lookups have ended, and the tick of a loop does, whatever goes on around them. -/
theorem lookups_once_within_bound :
    (∀ (o : FetchOptions) (among : Market → Prop) (asking : Bool) (alerts : List Alert)
      (calls : List ProviderCall) (p : Pass), (∀ m, among m → m.asksBars o = asking) →
      Pass.Course o among (.ofAlerts alerts) calls p →
      p.inFlight.length ≤ max 1 o.concurrency ∧
      (p.isDone = true → p.Asked o asking alerts calls)) ∧
    (∀ t : Timeline, t.polling.Sound → t.AtRest →
      (∀ err, t.watch.beginTick t.surroundings = .error err → t.tick = (.error err, t)) ∧
      ∀ listing, t.watch.beginTick t.surroundings = .ok listing →
        ∃ p later calls new log, t.LooksUp p later calls new log) ∧
    ∀ (first t : Timeline) (log : List Entry), first.polling.Sound → first.polling.loops = [] →
      first.Runs log t → ∀ l ∈ t.polling.loops,
      (∀ p, l.phase = .ticking p → p.inFlight.length ≤ max 1 t.options.concurrency) ∧
      ∀ after, t.Goes l after →
        ∃ doings next, t.Does l doings next after ∧ t.LoopLooksUp log l doings after := by
  refine ⟨fun o among asking alerts calls p asks course => course.bounded asks,
    fun t sound rest => ⟨fun err => tick_refused, fun listing => tick_looksUp sound rest⟩, ?_⟩
  intro first t log sound fresh run l lives
  constructor
  · intro p ticks
    obtain ⟨listed, calls, -, course⟩ := run.looks sound fresh lives ticks
    rw [run.sources.1]
    exact (course.bounded fun m kin => run.asks kin).1
  · intro after goes
    obtain ⟨doings, next, does⟩ := goes.does
    exact ⟨doings, next, does, run.looksUp sound fresh lives does⟩

def silentTick : Timeline := silentMarket.start.2.settle.sleep 12

theorem half_market_asked_once :
    (∃ p later calls new log, halfMarket.LooksUp p later calls new log ∧
      p.inFlight.length ≤ max 1 halfMarket.options.concurrency) ∧
    halfMarket.tick.2.calls = [.quote "600519", .quote "000001"] ∧
    ∃ log, silentMarket.Runs log silentTick ∧ silentTick.calls = [.quote "600519"] ∧
      ∀ l ∈ silentTick.polling.loops, ∀ after, silentTick.Goes l after →
        ∃ doings next, silentTick.Does l doings next after ∧
          silentTick.LoopLooksUp log l doings after := by
  obtain ⟨courses, ticks, loops⟩ := lookups_once_within_bound
  obtain ⟨p, later, calls, new, log, looks⟩ :=
    (ticks halfMarket (Polling.ofInterval_sound 10 .unattached) nofun).2 _ halfMarket_begins
  obtain ⟨bounded, -⟩ := courses halfMarket.options halfMarket.market.Answers
    (halfMarket.market.asksBars halfMarket.options) _ calls p
    (fun m answers => by rw [Market.asksBars, Market.asksBars, answers.bars]) looks.course
  have asked : halfMarket.tick.2.calls = [.quote "600519", .quote "000001"] := by
    rw [tick, halfMarket_begins]
    decide +kernel
  obtain ⟨silence, run⟩ :=
    start_runs (t := silentMarket) rfl (Polling.ofInterval_sound 10 .unattached) 12
  refine ⟨⟨p, later, calls, new, log, looks, bounded⟩, asked, silence, run, by decide +kernel, ?_⟩
  intro l lives after goes
  exact (loops silentMarket silentTick silence (Polling.ofInterval_sound 10 .unattached) rfl run l
    lives).2 after goes

end Timeline

end TickerWatch
