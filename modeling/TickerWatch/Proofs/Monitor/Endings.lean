import TickerWatch.Proofs.Monitor.Settling

namespace TickerWatch

def Doing.isBegin : Doing → Bool
  | begins _ => true
  | _ => false

def ticksOf (generation : Nat) (log : List Entry) : List Beat :=
  (beatsOf generation log).filter fun b => b.doing.isBegin

theorem ticksOf_append (generation : Nat) (log more : List Entry) :
    ticksOf generation (log ++ more) = ticksOf generation log ++ ticksOf generation more := by
  rw [ticksOf, beatsOf_append, List.filter_append]
  rfl

def Loop.isTicking (l : Loop) : Bool :=
  match l.phase with
  | .ticking _ => true
  | _ => false

namespace Timeline

variable {t u after : Timeline} {l : Loop} {doings : List Doing} {next : Option Phase} {b : Beat}
  {log more : List Entry} {generation : Nat}

/-- A tick begins after a wait that is over, unless the loop was told to stop. -/
theorem Does.begun (does : t.Does l doings next after) :
    (doings.map t.beat).filter (fun b => b.doing.isBegin) = [] ∨
      l.stopSent = false ∧ (∃ due, l.phase = .waiting due ∧ due ≤ t.time) ∧
        ∃ b, (doings.map t.beat).filter (fun b => b.doing.isBegin) = [b] ∧ b.time = t.time := by
  cases does with
  | begins waits expired untold listed => exact .inr ⟨untold, ⟨_, waits, expired⟩, _, rfl, rfl⟩
  | fails waits expired untold refused => exact .inr ⟨untold, ⟨_, waits, expired⟩, _, rfl, rfl⟩
  | _ => exact .inl rfl

theorem Passage.begun (passage : t.Passage log after) (generation : Nat) :
    ticksOf generation log = [] ∨
      ∃ l ∈ t.polling.loops, l.generation = generation ∧ l.stopSent = false ∧
        (∃ due, l.phase = .waiting due ∧ due ≤ t.time) ∧
        ∃ b, ticksOf generation log = [b] ∧ b.time = t.time := by
  rw [ticksOf]
  rcases passage.beats generation with quiet | ⟨-, -, own⟩ | ⟨l, lives, doings, next, does, mine, own⟩
  · exact .inl (by rw [quiet]; rfl)
  · exact .inl (by rw [own]; rfl)
  · rw [own]
    rcases does.begun with none | ⟨untold, expired, b, one, now⟩
    · exact .inl none
    · exact .inr ⟨l, lives, mine, untold, expired, b, one, now⟩

structure Halted (generation : Nat) (u : Timeline) (log : List Entry) : Prop where
  issued : generation ≤ u.polling.generation
  told : ∀ l ∈ u.polling.loops, l.generation ≤ generation → l.stopSent = true
  ticks : ∀ g ≤ generation, ticksOf g log = []

theorem stop_halted (sound : t.polling.Sound) : Halted t.polling.generation t.stop.2 [] where
  issued := Nat.le_refl _
  told l lives _ := Polling.stop_stopped sound l lives
  ticks _ _ := rfl

theorem Passage.halted (passage : t.Passage more after) (sound : t.polling.Sound)
    (halted : Halted generation t log) : Halted generation after (log ++ more) where
  issued := Nat.le_trans halted.issued passage.later
  told k lives old := by
    have issued := halted.issued
    rcases passage.origin sound lives with
      ⟨l, before, same, -, told, -⟩ | ⟨-, new, -⟩ | ⟨l, before, -, phase, -, rfl, -⟩
    · exact told (halted.told l before (same ▸ old))
    · omega
    · exact halted.told l before old
  ticks g old := by
    -- A tick would be begun by a loop of before, and they all know of the stop.
    rw [ticksOf_append, halted.ticks g old, List.nil_append]
    rcases passage.begun g with none | ⟨l, lives, rfl, untold, -⟩
    · exact none
    · rw [halted.told l lives old] at untold
      cases untold

theorem Runs.halted (run : t.stop.2.Runs log u) (sound : t.polling.Sound) :
    Halted t.polling.generation u log := by
  induction run with
  | begin => exact stop_halted sound
  | on run passage ih => exact passage.halted (run.sound sound.stop) ih

def Insisted (log : List Entry) : Prop := ∀ e ∈ log, ∀ s, e.note = .shutdown s → s.isFinal = true

/-- Since the owner wants the end, which he has wanted from `t` on. A tick has begun only where a
wait was over at that very time. -/
structure Closing (t u : Timeline) (log : List Entry) : Prop where
  shutdown : u.polling.shutdown.isFinal = true
  waits : ∀ l ∈ u.polling.loops, ∀ due, l.phase = .waiting due → due ≤ u.time →
    u.time = t.time ∧ (∃ k ∈ t.polling.loops, k.generation = l.generation ∧ k.phase = .waiting due) ∧
      ticksOf l.generation log = []
  ticks : ∀ g, (ticksOf g log).length ≤ 1 ∧ ∀ b ∈ ticksOf g log, b.time = t.time ∧
    ∃ l ∈ t.polling.loops, l.generation = g ∧ ∃ due, l.phase = .waiting due ∧ due ≤ t.time

theorem closing_begin (shutdown : t.polling.shutdown.isFinal = true) : Closing t t [] where
  shutdown := shutdown
  waits l lives _ waits _ := ⟨rfl, ⟨l, lives, rfl, waits⟩, rfl⟩
  ticks _ := ⟨Nat.zero_le _, nofun⟩

theorem Passage.closing (passage : u.Passage more after) (sound : u.polling.Sound)
    (insisted : Insisted more) (closing : Closing t u log) : Closing t after (log ++ more) where
  shutdown := by
    rcases passage.signalled with same | ⟨s, rfl, given⟩
    · rw [same, closing.shutdown]
    · rw [given, insisted _ (List.mem_singleton_self _) s rfl]
  waits k lives due waits past := by
    obtain ⟨forward, idle⟩ := passage.forward
    rcases passage.origin sound lives with
      ⟨l, before, same, phase, -, quiet⟩ | ⟨begun, -⟩ | ⟨l, before, doings, phase, does, rfl, own⟩
    · -- No time passes while somebody waits, because the end is wanted.
      have still : after.time = u.time := by
        by_contra moved
        have passes : u.time < after.time := by omega
        have rest := stepLoop?_eq_none.mp (idle u.time (Nat.le_refl _) passes l before)
        simp [phase, waits, closing.shutdown] at rest
      rw [still] at past ⊢
      obtain ⟨now, stems, none⟩ := closing.waits l before due (phase.trans waits) past
      rw [same] at stems none
      refine ⟨now, stems, ?_⟩
      rw [ticksOf_append, none, ticksOf, quiet]
      rfl
    · rw [begun] at waits
      cases waits
    · cases does with
      | rests begun =>
        cases waits
        have later : u.time < u.polling.due u.time := waitEnd_later.mpr sound.interval
        exact absurd past (Nat.not_le.mpr later)
      | _ => cases waits
  ticks g := by
    obtain ⟨once, known⟩ := closing.ticks g
    rw [ticksOf_append]
    rcases passage.begun g with none | ⟨l, lives, rfl, -, ⟨due, waits, past⟩, b, one, now⟩
    · rw [none, List.append_nil]
      exact ⟨once, known⟩
    · obtain ⟨begun, ⟨k, before, same, waited⟩, none⟩ := closing.waits l lives due waits past
      rw [none, one, List.nil_append]
      refine ⟨Nat.le_refl _, fun c member => ?_⟩
      rw [List.mem_singleton.mp member]
      exact ⟨now.trans begun, k, before, same, due, waited, begun ▸ past⟩

theorem Runs.closing (run : t.Runs log u) (sound : t.polling.Sound)
    (shutdown : t.polling.shutdown.isFinal = true) (insisted : Insisted log) : Closing t u log := by
  induction run with
  | begin => exact closing_begin shutdown
  | on run passage ih =>
    have before := ih fun e member => insisted e (List.mem_append_left _ member)
    exact passage.closing (run.sound sound)
      (fun e member => insisted e (List.mem_append_right _ member)) before

/-- At rest, a loop that is to end is still inside the tick that it was in. -/
theorem AtRest.ticking (rest : t.AtRest) (lives : l ∈ t.polling.loops)
    (told : l.stopSent = true ∨ t.polling.shutdown.isFinal = true) :
    ∃ p, l.phase = .ticking p ∧ p.isDone = false := by
  rcases stepLoop?_eq_none.mp (rest l lives) with
    ⟨due, -, -, untold, unfinal⟩ | ⟨p, ticks, busy, -⟩
  · simp [untold, unfinal] at told
  · exact ⟨p, ticks, busy⟩

/-- After a stop, no loop of before begins a tick any more. At rest it is inside the tick that it
was in, or gone, and the polling runs only if it was started anew. Once the owner wants the end, and
as long as he does, a loop begins at most one tick more, and only if its wait is over at that very
time; a loop that is started later begins none. -/
theorem told_loops_begin_no_tick (sound : t.polling.Sound) :
    (∀ log u, t.stop.2.Runs log u →
      (∀ g ≤ t.polling.generation, ticksOf g log = []) ∧
      (u.polling.running = true →
        ∃ g, u.polling.recorded = some g ∧ t.polling.generation < g) ∧
      (u.AtRest → ∀ l ∈ u.polling.loops, l.generation ≤ t.polling.generation →
        ∃ p, l.phase = .ticking p ∧ p.isDone = false)) ∧
    (t.polling.shutdown.isFinal = true → ∀ log u, t.Runs log u → Insisted log →
      (∀ g, (ticksOf g log).length ≤ 1 ∧ ∀ b ∈ ticksOf g log, b.time = t.time ∧
        ∃ l ∈ t.polling.loops, l.generation = g ∧ ∃ due, l.phase = .waiting due ∧ due ≤ t.time) ∧
      (∀ g, t.polling.generation < g → ticksOf g log = []) ∧
      (u.AtRest → (∀ l ∈ u.polling.loops, ∃ p, l.phase = .ticking p ∧ p.isDone = false) ∧
        (u.polling.loops = [] → u.polling.running = false))) := by
  constructor
  · intro log u run
    have halted := run.halted sound
    have soundNow := run.sound sound.stop
    refine ⟨halted.ticks, fun running => ?_, fun rest l lives old =>
      rest.ticking lives (.inl (halted.told l lives old))⟩
    obtain ⟨g, recorded⟩ := Option.isSome_iff_exists.mp (soundNow.running.symm.trans running)
    obtain ⟨l, lives, rfl⟩ := soundNow.lives g recorded
    refine ⟨l.generation, recorded, Nat.lt_of_not_le fun old => ?_⟩
    have untold := (soundNow.unstopped l lives).mpr recorded
    rw [halted.told l lives old] at untold
    cases untold
  · intro shutdown log u run insisted
    have closing := run.closing sound shutdown insisted
    have soundNow := run.sound sound
    refine ⟨closing.ticks, fun g new => ?_, fun rest => ⟨fun l lives =>
      rest.ticking lives (.inr closing.shutdown), fun gone => ?_⟩⟩
    · refine List.eq_nil_iff_forall_not_mem.mpr fun b member => ?_
      obtain ⟨-, l, lives, rfl, -⟩ := (closing.ticks g).2 b member
      exact absurd (sound.issued l lives) (Nat.not_le.mpr new)
    · rw [soundNow.running, Option.isSome_eq_false_iff, Option.isNone_iff_eq_none]
      refine Option.eq_none_iff_forall_ne_some.mpr fun g recorded => ?_
      obtain ⟨l, lives, -⟩ := soundNow.lives g recorded
      simp [gone] at lives

def signal (t : Timeline) (s : Shutdown) : Timeline :=
  { t with polling := { t.polling with shutdown := s } }

def owned : Timeline := { silentMarket with polling := .ofInterval 10 (.attached false) }

def ownedTick : Timeline := owned.start.2.settle.sleep 12

theorem owned_sound : owned.polling.Sound := Polling.ofInterval_sound 10 (.attached false)

theorem ownedTick_runs : ∃ log, owned.Runs log ownedTick := start_runs rfl owned_sound 12

theorem ownedTick_ends :
    (∃ log, ownedTick.stop.2.Runs log (ownedTick.stop.2.settle.sleep 20) ∧ ticksOf 1 log = []) ∧
    (ownedTick.stop.2.settle.sleep 20).polling.running = false ∧
    (∃ log, (ownedTick.signal .dropped).Runs log ((ownedTick.signal .dropped).settle.sleep 20) ∧
      Insisted log ∧ (ticksOf 1 log).length ≤ 1 ∧ ticksOf 2 log = []) ∧
    ((ownedTick.signal .dropped).settle.sleep 20).polling.running = false := by
  obtain ⟨past, run⟩ := ownedTick_runs
  have sound := run.sound owned_sound
  have dropped := (run.on (.shutdown .dropped)).sound owned_sound
  have generation : ownedTick.polling.generation = 1 := by decide +kernel
  obtain ⟨log, stops, -⟩ := settle_sleep_runs (t := ownedTick.stop.2) sound.stop 20
  obtain ⟨more, drops, -⟩ := settle_sleep_runs dropped 20
  have insisted : Insisted more := by
    intro e member s shutdown
    obtain ⟨g, doing, own⟩ := drops.driven e member
    rw [own] at shutdown
    cases shutdown
  obtain ⟨stopped, -, -⟩ := (told_loops_begin_no_tick sound).1 log _ stops.run
  obtain ⟨ended, later, -⟩ :=
    (told_loops_begin_no_tick dropped).2 rfl more _ drops.run insisted
  exact ⟨⟨log, stops.run, stopped 1 (Nat.le_of_eq generation.symm)⟩, by decide +kernel,
    ⟨more, drops.run, insisted, (ended 1).1, later 2 (by rw [generation]; decide)⟩,
    by decide +kernel⟩

theorem Runs.begun (run : t.Runs log u) (sound : t.polling.Sound)
    (before : ∀ l ∈ t.polling.loops, l.isTicking = false) (lives : l ∈ u.polling.loops)
    (ticks : l.isTicking = true) : ticksOf l.generation log ≠ [] := by
  induction run generalizing l with
  | begin =>
    rw [before l lives] at ticks
    cases ticks
  | @on log more u v run passage ih =>
    rw [ticksOf_append]
    rcases passage.origin (run.sound sound) lives with
      ⟨k, there, same, phase, -, -⟩ | ⟨begun, -⟩ | ⟨k, there, doings, phase, does, rfl, own⟩
    · have ticked : k.isTicking = true := by rwa [Loop.isTicking, phase]
      rw [← same]
      exact fun none => ih there ticked (List.append_eq_nil_iff.mp none).1
    · simp [Loop.isTicking, begun] at ticks
    · cases does with
      | begins waits expired untold listed =>
        rw [ticksOf, ticksOf, own]
        simp [beat, Doing.isBegin]
      | @asks p was busy free =>
        have ticked : k.isTicking = true := by simp [Loop.isTicking, was]
        exact fun none => ih there ticked (List.append_eq_nil_iff.mp none).1
      | _ => cases ticks

def takenBack : Timeline :=
  ((ownedTick.signal (.attached true)).signal (.attached false)).settle.sleep 4

theorem takenBack_ticks :
    ∃ log, (ownedTick.signal (.attached true)).Runs log (takenBack.sleep 11) ∧
      ticksOf 1 log ≠ [] := by
  obtain ⟨past, run⟩ := ownedTick_runs
  have signalled := run.on (.shutdown (.attached true))
  have sound := (signalled.on (.shutdown (.attached false))).sound owned_sound
  obtain ⟨log, settles, rest⟩ := settle_sleep_runs sound 4
  have soundToo : takenBack.polling.Sound := settles.run.sound sound
  obtain ⟨more, sleeps, -⟩ := sleep_runs (t := takenBack) rest soundToo 11
  have silent : takenBack.polling.loops.all (fun l => !l.isTicking) = true := by decide +kernel
  have before : ∀ l ∈ takenBack.polling.loops, l.isTicking = false := by simpa using silent
  have after : ((takenBack.sleep 11).polling.loops.map fun l => (l.generation, l.isTicking)) =
      [(1, true)] := by decide +kernel
  obtain ⟨l, lives, known⟩ : ∃ l ∈ (takenBack.sleep 11).polling.loops,
      (l.generation, l.isTicking) = (1, true) := List.mem_map.mp (by rw [after]; simp)
  obtain ⟨generation, ticks⟩ := Prod.ext_iff.mp known
  have begun := sleeps.run.begun soundToo before lives ticks
  rw [show l.generation = 1 from generation] at begun
  refine ⟨_, ((Passage.shutdown (.attached false)).run.trans settles.run).trans sleeps.run, ?_⟩
  rw [ticksOf_append]
  exact fun none => begun (List.append_eq_nil_iff.mp none).2

def lateSignal : Timeline :=
  { owned.start.2.setPhase 1 (.waiting 10) with time := 10 }.signal (.attached true)

theorem lateSignal_ticks :
    (∃ log, owned.Runs log lateSignal) ∧
      ∃ log after, lateSignal.Runs log after ∧ Insisted log ∧ ticksOf 1 log ≠ [] := by
  have started : owned.Passage _ owned.start.2 := .start rfl
  have rests : owned.start.2.Passage _ (owned.start.2.setPhase 1 (.waiting 10)) :=
    .loop (l := { generation := 1 }) (List.mem_singleton_self _) (.rests rfl)
  have waits : (owned.start.2.setPhase 1 (.waiting 10)).Passage []
      { owned.start.2.setPhase 1 (.waiting 10) with time := 10 } := by
    refine .wait (Nat.zero_le _) fun now _ early l lives => ?_
    rw [List.mem_singleton.mp lives]
    exact stepLoop?_eq_none.mpr (.inl ⟨_, rfl, early, rfl, rfl⟩)
  have begins : lateSignal.Passage _ _ :=
    .loop (l := { generation := 1, phase := .waiting 10 }) (List.mem_singleton_self _)
      (.begins rfl (Nat.le_refl _) rfl rfl)
  refine ⟨⟨_, ((started.run.on rests).on waits).on (.shutdown _)⟩, _, _, begins.run, ?_, ?_⟩
  · intro e member s shutdown
    cases List.mem_singleton.mp member
    cases shutdown
  · exact List.cons_ne_nil _ _

/-- A signal that is taken back during a tick is missed, and the loop goes on. While a signal
stands, one tick more may begin if the wait is over when it comes. -/
theorem signals_are_missed :
    (∃ t u log more, owned.Runs log t ∧ t.polling.shutdown.isFinal = true ∧
      t.polling.loops.map Loop.generation = [1] ∧ t.Runs more u ∧ ticksOf 1 more ≠ [] ∧
      u.polling.running = true) ∧
    ∃ t u log more, owned.Runs log t ∧ t.polling.shutdown.isFinal = true ∧
      t.polling.loops.map Loop.generation = [1] ∧ t.Runs more u ∧ Insisted more ∧
      ticksOf 1 more ≠ [] := by
  obtain ⟨past, run⟩ := ownedTick_runs
  obtain ⟨log, further, ticks⟩ := takenBack_ticks
  obtain ⟨⟨start, late⟩, more, after, tick, insisted, ticksToo⟩ := lateSignal_ticks
  exact ⟨⟨_, _, _, log, run.on (.shutdown (.attached true)), rfl, by decide +kernel, further, ticks,
      by decide +kernel⟩,
    ⟨_, after, start, more, late, rfl, rfl, tick, insisted, ticksToo⟩⟩

end Timeline

end TickerWatch
