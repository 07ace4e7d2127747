import TickerWatch.Proofs.Monitor.Lifecycle
import TickerWatch.Proofs.Monitor.Window

namespace TickerWatch

inductive Doing where
  | starts
  | rests
  | begins (listed : List Alert)
  | asks (calls : List ProviderCall)
  | ends

inductive Note where
  | loop (generation : Nat) (doing : Doing)
  | stopped
  | interval (length : Nat)
  | shutdown (s : Shutdown)

structure Entry where
  time : Nat
  interval : Nat
  note : Note

structure Beat where
  time : Nat
  interval : Nat
  doing : Doing

def Entry.beat? (generation : Nat) (e : Entry) : Option Beat :=
  match e.note with
  | .loop owner doing => if owner = generation then some ⟨e.time, e.interval, doing⟩ else none
  | _ => none

def beatsOf (generation : Nat) (log : List Entry) : List Beat :=
  log.filterMap (Entry.beat? generation)

theorem beatsOf_append (generation : Nat) (log more : List Entry) :
    beatsOf generation (log ++ more) = beatsOf generation log ++ beatsOf generation more :=
  List.filterMap_append

def Doing.calls : Doing → List ProviderCall
  | asks calls => calls
  | _ => []

def Note.calls : Note → List ProviderCall
  | loop _ doing => doing.calls
  | _ => []

def asked (log : List Entry) : List ProviderCall := log.flatMap fun e => e.note.calls

namespace Polling

variable {p : Polling} {l k : Loop}

def onward (p : Polling) (generation : Nat) : Option Phase → Polling
  | some phase => p.setPhase generation phase
  | none => p.leave generation

theorem mem_onward (sound : p.Sound) (lives : l ∈ p.loops) {next : Option Phase} :
    k ∈ (p.onward l.generation next).loops ↔
      (k ∈ p.loops ∧ k.generation ≠ l.generation) ∨ ∃ phase ∈ next, k = { l with phase } := by
  cases next with
  | none => simp [onward, mem_leave]
  | some phase =>
    simp only [onward, setPhase, List.mem_map, Option.mem_some_iff, exists_eq_left']
    constructor
    · rintro ⟨j, before, rfl⟩
      by_cases mine : j.generation = l.generation
      · obtain rfl := List.inj_on_of_nodup_map sound.distinct before lives mine
        exact .inr (by simp)
      · exact .inl (by simpa [mine] using before)
    · rintro (⟨before, other⟩ | rfl)
      · exact ⟨k, before, by simp [other]⟩
      · exact ⟨l, lives, by simp⟩

theorem leave_settings (p : Polling) (generation : Nat) :
    (p.leave generation).shutdown = p.shutdown ∧ (p.leave generation).interval = p.interval ∧
      (p.leave generation).generation = p.generation := by
  unfold leave
  dsimp only
  split <;> exact ⟨rfl, rfl, rfl⟩

@[simp] theorem onward_shutdown (p : Polling) (generation : Nat) (next : Option Phase) :
    (p.onward generation next).shutdown = p.shutdown := by
  cases next with
  | none => exact (p.leave_settings generation).1
  | some phase => rfl

@[simp] theorem onward_interval (p : Polling) (generation : Nat) (next : Option Phase) :
    (p.onward generation next).interval = p.interval := by
  cases next with
  | none => exact (p.leave_settings generation).2.1
  | some phase => rfl

@[simp] theorem onward_generation (p : Polling) (generation : Nat) (next : Option Phase) :
    (p.onward generation next).generation = p.generation := by
  cases next with
  | none => exact (p.leave_settings generation).2.2
  | some phase => rfl

end Polling

namespace Timeline

inductive Does (t : Timeline) (l : Loop) : List Doing → Option Phase → Timeline → Prop
  | rests (begun : l.phase = .starting) :
      Does t l [.rests] (some (.waiting (t.polling.due t.time)))
        (t.setPhase l.generation (.waiting (t.polling.due t.time)))
  | begins {due : Nat} (waits : l.phase = .waiting due) (expired : due ≤ t.time)
      (untold : l.stopSent = false)
      (listed : t.watch.beginTick t.surroundings = .ok (.ofAlerts t.store.listActive)) :
      Does t l [.begins t.store.listActive] (some (.ticking (.ofAlerts t.store.listActive)))
        (t.setPhase l.generation (.ticking (.ofAlerts t.store.listActive)))
  | fails {due : Nat} {err : AlertError} (waits : l.phase = .waiting due) (expired : due ≤ t.time)
      (untold : l.stopSent = false) (refused : t.watch.beginTick t.surroundings = .error err) :
      Does t l [.begins [], .ends] (some .starting) (t.setPhase l.generation .starting)
  | quits {due : Nat} (waits : l.phase = .waiting due)
      (told : l.stopSent = true ∨ t.polling.shutdown.isFinal = true) :
      Does t l [] (some .leaving) (t.setPhase l.generation .leaving)
  | asks {p : Pass} (ticks : l.phase = .ticking p) (busy : p.isDone = false)
      (free : p.isStuck t.options t.time = false) :
      Does t l [.asks (p.advance t.options t.market t.time t.clock).2]
        (some (.ticking (t.advance p).1))
        ((t.advance p).2.setPhase l.generation (.ticking (t.advance p).1))
  | ends {p : Pass} (ticks : l.phase = .ticking p) (done : p.isDone = true) :
      Does t l [.ends] (some .starting) (t.endTick l.generation p)
  | leaves (left : l.phase = .leaving) :
      Does t l [] none { t with polling := t.polling.leave l.generation }

variable {t u v after : Timeline} {l k : Loop} {doings : List Doing} {next : Option Phase}
  {time : Nat} {log more : List Entry}

theorem Goes.does (goes : t.Goes l after) : ∃ doings next, t.Does l doings next after := by
  cases goes with
  | @woken due w waits ready =>
    unfold wake
    by_cases ticks : w.leadsToTick l.stopSent = true
    · have timer : w = .timer ∧ l.stopSent = false := by
        cases w <;> simp_all [Wake.leadsToTick]
      obtain ⟨rfl, untold⟩ := timer
      have expired : due ≤ t.time := by simpa [Wake.isReady] using ready
      rw [if_pos ticks]
      unfold beginTick
      cases listed : t.watch.beginTick t.surroundings with
      | error err => exact ⟨_, _, .fails waits expired untold listed⟩
      | ok p =>
        obtain rfl := beginTick_ok listed
        exact ⟨_, _, .begins waits expired untold listed⟩
    · rw [if_neg ticks]
      exact ⟨_, _, .quits waits (Wake.ends ready (by simpa using ticks))⟩
  | steps awake stepped =>
    unfold stepLoop? at stepped
    split at stepped
    · rename_i begun
      cases stepped
      exact ⟨_, _, .rests begun⟩
    · rename_i due waits
      exact absurd waits (awake due)
    · rename_i p ticks
      split at stepped
      · rename_i done
        cases stepped
        exact ⟨_, _, .ends ticks done⟩
      · rename_i busy
        split at stepped
        · cases stepped
        · rename_i free
          cases stepped
          exact ⟨_, _, .asks ticks (by simpa using busy) (by simpa using free)⟩
    · rename_i left
      cases stepped
      exact ⟨_, _, .leaves left⟩

theorem Does.goes (does : t.Does l doings next after) : t.Goes l after := by
  cases does with
  | rests begun => exact .steps (by simp [begun]) (by simp only [stepLoop?, begun])
  | begins waits expired untold listed =>
    have goes := Goes.woken .timer waits (by simpa [Wake.isReady] using expired)
    have ticks : Wake.timer.leadsToTick l.stopSent = true := by simp [Wake.leadsToTick, untold]
    simpa only [wake, ticks, ↓reduceIte, beginTick, listed] using goes
  | fails waits expired untold refused =>
    have goes := Goes.woken .timer waits (by simpa [Wake.isReady] using expired)
    have ticks : Wake.timer.leadsToTick l.stopSent = true := by simp [Wake.leadsToTick, untold]
    simpa only [wake, ticks, ↓reduceIte, beginTick, refused] using goes
  | quits waits told =>
    rcases told with stopped | final
    · exact .woken .stop waits stopped
    · exact .woken .shutdown waits final
  | asks ticks busy free =>
    exact .steps (by simp [ticks])
      (by simp only [stepLoop?, ticks, busy, free, Bool.false_eq_true, ↓reduceIte])
  | ends ticks done =>
    exact .steps (by simp [ticks]) (by simp only [stepLoop?, ticks, done, ↓reduceIte])
  | leaves left => exact .steps (by simp [left]) (by simp only [stepLoop?, left])

theorem Does.polling (does : t.Does l doings next after) :
    after.polling = t.polling.onward l.generation next := by
  cases does <;> rfl

theorem Does.around (does : t.Does l doings next after) :
    after.time = t.time ∧ after.options = t.options ∧ after.market = t.market := by
  cases does <;> exact ⟨rfl, rfl, rfl⟩

theorem Does.calls (does : t.Does l doings next after) :
    after.calls = (doings.flatMap Doing.calls).reverse ++ t.calls := by
  cases does with
  | asks ticks busy free =>
    rw [List.flatMap_singleton]
    rfl
  | _ => rfl

def AtRest (t : Timeline) : Prop := ∀ l ∈ t.polling.loops, t.stepLoop? l = none

def IdleUntil (t : Timeline) (time : Nat) : Prop :=
  ∀ now, t.time ≤ now → now < time → { t with time := now }.AtRest

def entry (t : Timeline) (note : Note) : Entry := ⟨t.time, t.polling.interval, note⟩

def entries (t : Timeline) (generation : Nat) (doings : List Doing) : List Entry :=
  doings.map fun doing => t.entry (.loop generation doing)

def beat (t : Timeline) (doing : Doing) : Beat := ⟨t.time, t.polling.interval, doing⟩

theorem beatsOf_entries (t : Timeline) (generation owner : Nat) (doings : List Doing) :
    beatsOf generation (t.entries owner doings) =
      if owner = generation then doings.map t.beat else [] := by
  unfold beatsOf entries
  rw [List.filterMap_map]
  by_cases mine : owner = generation
  · simp [Entry.beat?, entry, beat, mine]
  · simp [Function.comp_def, Entry.beat?, entry, mine]

/-- One step of a run, with what is noted of it. Around the polling anything may happen, except that
the options and the presence of a history do not change. -/
inductive Passage (t : Timeline) : List Entry → Timeline → Prop
  | start (idle : t.polling.running = false) :
      Passage t [t.entry (.loop (t.polling.generation + 1) .starts)] t.start.2
  | stop : Passage t [t.entry .stopped] t.stop.2
  | setInterval {interval : Nat} (positive : 0 < interval) :
      Passage t [t.entry (.interval interval)] (t.setInterval interval).2
  | shutdown (s : Shutdown) :
      Passage t [t.entry (.shutdown s)] { t with polling := { t.polling with shutdown := s } }
  | around {after : Timeline} (polling : after.polling = t.polling) (time : after.time = t.time)
      (options : after.options = t.options)
      (history : after.market.bars.isSome = t.market.bars.isSome) : Passage t [] after
  | loop {l : Loop} {doings : List Doing} {next : Option Phase} {after : Timeline}
      (lives : l ∈ t.polling.loops) (does : t.Does l doings next after) :
      Passage t (t.entries l.generation doings) after
  | wait {time : Nat} (forward : t.time ≤ time) (idle : t.IdleUntil time) :
      Passage t [] { t with time }

inductive Runs (t : Timeline) : List Entry → Timeline → Prop
  | begin : Runs t [] t
  | on {log more : List Entry} {u v : Timeline} (run : Runs t log u) (passage : u.Passage more v) :
      Runs t (log ++ more) v

theorem Passage.step (passage : t.Passage log after) : t.Step after := by
  cases passage with
  | start idle => exact .start
  | stop => exact .stop
  | setInterval positive => exact .setInterval _
  | shutdown s => exact .around rfl
  | around polling time options history => exact .around (by rw [polling])
  | loop lives does => exact .loop lives does.goes
  | wait forward idle => exact .around rfl

theorem Passage.forward (passage : t.Passage log after) :
    t.time ≤ after.time ∧ t.IdleUntil after.time := by
  have still : ∀ now, now = t.time → t.time ≤ now ∧ t.IdleUntil now := by
    rintro now rfl
    exact ⟨Nat.le_refl _, fun moment late early => absurd early (Nat.not_lt.mpr late)⟩
  cases passage with
  | wait forward idle => exact ⟨forward, idle⟩
  | start idle => exact still _ rfl
  | stop => exact still _ rfl
  | @setInterval interval positive =>
    refine still _ ?_
    unfold Timeline.setInterval
    split <;> rfl
  | shutdown s => exact still _ rfl
  | around polling time options history => exact still _ time
  | loop lives does => exact still _ does.around.1

theorem setInterval_polling {interval : Nat} (positive : 0 < interval) :
    (t.setInterval interval).2 = { t with polling := { t.polling with interval } } := by
  have given : interval ≠ 0 := Nat.pos_iff_ne_zero.mp positive
  simp [Timeline.setInterval, Polling.setInterval, given]

/-- Where the loops come from that there are after a step: from before, from a start, or they have
taken the step themselves. -/
theorem Passage.origin (passage : t.Passage log after) (sound : t.polling.Sound)
    (lives : k ∈ after.polling.loops) :
    (∃ l ∈ t.polling.loops, l.generation = k.generation ∧ l.phase = k.phase ∧
      (l.stopSent = true → k.stopSent = true) ∧ beatsOf k.generation log = []) ∨
    (k.phase = .starting ∧ k.generation = t.polling.generation + 1 ∧ after.time = t.time ∧
      beatsOf k.generation log = [t.beat .starts]) ∨
    ∃ l ∈ t.polling.loops, ∃ doings phase, t.Does l doings (some phase) after ∧
      k = { l with phase } ∧ beatsOf k.generation log = doings.map t.beat := by
  cases passage with
  | start idle =>
    simp only [Timeline.start, Polling.start, idle, Bool.false_eq_true, ↓reduceIte] at lives
    rcases List.mem_append.mp lives with before | new
    · have other : k.generation ≠ t.polling.generation + 1 := by
        have issued := sound.issued k before
        omega
      exact .inl ⟨k, before, rfl, rfl, id, by simp [beatsOf, Entry.beat?, entry, other.symm]⟩
    · rw [List.mem_singleton.mp new]
      exact .inr (.inl ⟨rfl, rfl, rfl, by simp [beatsOf, Entry.beat?, entry, beat]⟩)
  | stop =>
    obtain ⟨l, before, rfl⟩ := List.mem_map.mp lives
    refine .inl ⟨l, before, ?_⟩
    by_cases recorded : t.polling.recorded = some l.generation
    · simp [recorded, beatsOf, Entry.beat?, entry]
    · simp [recorded, beatsOf, Entry.beat?, entry]
  | setInterval positive =>
    rw [setInterval_polling positive] at lives
    exact .inl ⟨k, lives, rfl, rfl, id, rfl⟩
  | shutdown s => exact .inl ⟨k, lives, rfl, rfl, id, rfl⟩
  | around polling time options history => exact .inl ⟨k, polling ▸ lives, rfl, rfl, id, rfl⟩
  | @loop l doings next _ going does =>
    rw [does.polling] at lives
    rcases (Polling.mem_onward sound going).mp lives with ⟨before, other⟩ | ⟨phase, known, rfl⟩
    · exact .inl ⟨k, before, rfl, rfl, id, by rw [beatsOf_entries, if_neg other.symm]⟩
    · obtain rfl := Option.mem_def.mp known
      refine .inr (.inr ⟨l, going, doings, phase, does, rfl, ?_⟩)
      rw [beatsOf_entries, if_pos rfl]
  | wait forward idle => exact .inl ⟨k, lives, rfl, rfl, id, rfl⟩

theorem Passage.beats (passage : t.Passage log after) (generation : Nat) :
    beatsOf generation log = [] ∨
    (generation = t.polling.generation + 1 ∧ after.polling.generation = generation ∧
      beatsOf generation log = [t.beat .starts]) ∨
    ∃ l ∈ t.polling.loops, ∃ doings next, t.Does l doings next after ∧
      l.generation = generation ∧ beatsOf generation log = doings.map t.beat := by
  cases passage with
  | start idle =>
    by_cases new : t.polling.generation + 1 = generation
    · exact .inr (.inl ⟨new.symm, by simp [Timeline.start, Polling.start, idle, new],
        by simp [beatsOf, Entry.beat?, entry, beat, new]⟩)
    · exact .inl (by simp [beatsOf, Entry.beat?, entry, new])
  | @loop l doings next _ going does =>
    rw [beatsOf_entries]
    by_cases mine : l.generation = generation
    · exact .inr (.inr ⟨l, going, doings, next, does, mine, if_pos mine⟩)
    · exact .inl (if_neg mine)
  | _ => exact .inl rfl

theorem Passage.later (passage : t.Passage log after) :
    t.polling.generation ≤ after.polling.generation := by
  cases passage with
  | start idle => simp [Timeline.start, Polling.start, idle]
  | setInterval positive => rw [setInterval_polling positive]
  | around polling time options history => rw [polling]
  | loop lives does =>
    rw [does.polling, Polling.onward_generation]
  | _ => exact Nat.le_refl _

theorem Passage.signalled (passage : t.Passage log after) :
    after.polling.shutdown = t.polling.shutdown ∨
      ∃ s, log = [t.entry (.shutdown s)] ∧ after.polling.shutdown = s := by
  cases passage with
  | start idle => exact .inl (by simp [Timeline.start, Polling.start, idle])
  | setInterval positive => exact .inl (by rw [setInterval_polling positive])
  | shutdown s => exact .inr ⟨s, rfl, rfl⟩
  | around polling time options history => exact .inl (by rw [polling])
  | loop lives does => exact .inl (by rw [does.polling, Polling.onward_shutdown])
  | _ => exact .inl rfl

theorem Passage.run (passage : t.Passage log u) : t.Runs log u := .on .begin passage

theorem Runs.trans (first : t.Runs log u) (second : u.Runs more v) : t.Runs (log ++ more) v := by
  induction second with
  | begin => rwa [List.append_nil]
  | on _ passage ih =>
    rw [← List.append_assoc]
    exact ih.on passage

theorem Runs.reaches (run : t.Runs log u) : t.Reaches u := by
  induction run with
  | begin => exact .refl
  | on _ passage ih => exact ih.tail passage.step

theorem Runs.sound (run : t.Runs log u) (sound : t.polling.Sound) : u.polling.Sound :=
  run.reaches.sound sound

theorem asked_append (log more : List Entry) : asked (log ++ more) = asked log ++ asked more :=
  List.flatMap_append

theorem asked_entries (t : Timeline) (generation : Nat) (doings : List Doing) :
    asked (t.entries generation doings) = doings.flatMap Doing.calls :=
  List.flatMap_map ..

structure Unattended (t : Timeline) (log : List Entry) (u : Timeline) : Prop where
  run : t.Runs log u
  calls : u.calls = (asked log).reverse ++ t.calls
  driven : ∀ e ∈ log, ∃ generation doing, e.note = .loop generation doing

theorem Unattended.begin (t : Timeline) : t.Unattended [] t := ⟨.begin, rfl, nofun⟩

theorem Unattended.trans (first : t.Unattended log u) (second : u.Unattended more v) :
    t.Unattended (log ++ more) v where
  run := first.run.trans second.run
  calls := by
    rw [second.calls, first.calls, asked_append, List.reverse_append, List.append_assoc]
  driven e member := by
    rcases List.mem_append.mp member with before | later
    · exact first.driven e before
    · exact second.driven e later

theorem Does.unattended (lives : l ∈ t.polling.loops) (does : t.Does l doings next after) :
    t.Unattended (t.entries l.generation doings) after where
  run := (Passage.loop lives does).run
  calls := by rw [asked_entries, does.calls]
  driven e member := by
    obtain ⟨doing, -, rfl⟩ := List.mem_map.mp member
    exact ⟨_, _, rfl⟩

theorem findStep_does (found : t.polling.loops.findSome? t.stepLoop? = some after) :
    ∃ l ∈ t.polling.loops, ∃ doings next, t.Does l doings next after := by
  obtain ⟨l, lives, stepped⟩ := List.exists_of_findSome?_eq_some found
  exact ⟨l, lives, (stepLoop?_goes stepped).does⟩

theorem settleFrom_runs (fuel : Nat) (t : Timeline) :
    ∃ log, t.Unattended log (settleFrom fuel t) := by
  induction fuel generalizing t with
  | zero => exact ⟨[], .begin t⟩
  | succ fuel ih =>
    unfold settleFrom
    cases found : t.polling.loops.findSome? t.stepLoop? with
    | none => exact ⟨[], .begin t⟩
    | some after =>
      obtain ⟨l, lives, doings, next, does⟩ := findStep_does found
      obtain ⟨more, rest⟩ := ih after
      exact ⟨_, (does.unattended lives).trans rest⟩

theorem settle_runs (t : Timeline) : ∃ log, t.Unattended log t.settle := settleFrom_runs _ t

theorem stepLoop?_eq_none :
    t.stepLoop? l = none ↔
      (∃ due, l.phase = .waiting due ∧ t.time < due ∧ l.stopSent = false ∧
        t.polling.shutdown.isFinal = false) ∨
      ∃ p, l.phase = .ticking p ∧ p.isDone = false ∧ p.isStuck t.options t.time = true := by
  unfold stepLoop?
  cases l.phase with
  | starting => simp
  | leaving => simp
  | waiting due =>
    simp only [Option.map_eq_none_iff, Wake.first?, List.find?_eq_none, Phase.waiting.injEq,
      exists_eq_left', reduceCtorEq, false_and, exists_false, or_false]
    simp [Wake.isReady]
    tauto
  | ticking p =>
    simp only [reduceCtorEq, false_and, exists_false, false_or, Phase.ticking.injEq, exists_eq_left']
    by_cases done : p.isDone = true
    · simp [done]
    · by_cases stuck : p.isStuck t.options t.time = true <;> simp [done, stuck]

end Timeline

end TickerWatch
