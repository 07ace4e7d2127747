import Mathlib.Data.List.Chain
import TickerWatch.Proofs.Monitor.Settling

namespace TickerWatch

def Beat.Follows (b c : Beat) : Prop :=
  match b.doing, c.doing with
  | .starts, .rests => c.time = b.time
  | .rests, .begins _ => c.time = waitEnd b.time b.interval
  | .begins _, .asks _ => b.time ≤ c.time
  | .begins _, .ends => b.time ≤ c.time
  | .asks _, .asks _ => b.time ≤ c.time
  | .asks _, .ends => b.time ≤ c.time
  | .ends, .rests => c.time = b.time
  | _, _ => False

def Phase.Since (time : Nat) (b : Beat) : Phase → Prop
  | starting => (b.doing = .starts ∨ b.doing = .ends) ∧ b.time = time
  | waiting due => b.doing = .rests ∧ due = waitEnd b.time b.interval ∧ time ≤ due
  | ticking _ => ((∃ listed, b.doing = .begins listed) ∨ ∃ calls, b.doing = .asks calls) ∧
      b.time ≤ time
  | leaving => True

def Note.lengthAfter (length : Nat) : Note → Nat
  | .interval changed => changed
  | _ => length

def inForce (opening : Nat) (log : List Entry) : Nat :=
  log.foldl (fun length e => e.note.lengthAfter length) opening

def Steady (opening : Nat) : List Entry → Prop
  | [] => True
  | e :: log => e.interval = opening ∧ Steady (e.note.lengthAfter opening) log

theorem steady_append {opening : Nat} {log more : List Entry} :
    Steady opening (log ++ more) ↔ Steady opening log ∧ Steady (inForce opening log) more := by
  induction log generalizing opening with
  | nil => simp [Steady, inForce]
  | cons e log ih =>
    simp only [List.cons_append, Steady, ih, inForce, List.foldl_cons, and_assoc]

theorem inForce_append (opening : Nat) (log more : List Entry) :
    inForce opening (log ++ more) = inForce (inForce opening log) more := List.foldl_append

/-- A tick begins when the rest before it is over, which began with the loop or with the end of the
tick before. -/
theorem begins_timed {beats before later : List Beat} {b : Beat} {listed : List Alert}
    (chain : beats.IsChain Beat.Follows) (opens : ∀ c ∈ beats.head?, c.doing = .starts)
    (split : beats = before ++ b :: later) (begins : b.doing = .begins listed) :
    ∃ earlier e r, before = earlier ++ [e, r] ∧ r.doing = .rests ∧
      (e.doing = .ends ∨ e.doing = .starts ∧ earlier = []) ∧ r.time = e.time ∧
      b.time = waitEnd e.time r.interval := by
  subst split
  -- The beats before it are read from the end: neither of the last two can be the first.
  rcases List.eq_nil_or_concat' before with rfl | ⟨rest, r, rfl⟩
  · have first := opens b rfl
    rw [begins] at first
    cases first
  · rw [List.append_assoc, List.singleton_append] at chain opens
    have second := (List.isChain_append_cons_cons.mp chain).2.1
    obtain ⟨time, interval, doing⟩ := r
    obtain ⟨moment, length, begun⟩ := b
    cases begins
    cases doing with
    | rests =>
      rcases List.eq_nil_or_concat' rest with rfl | ⟨earlier, e, rfl⟩
      · have first := opens _ rfl
        cases first
      · rw [List.append_assoc, List.singleton_append] at chain opens
        obtain ⟨past, third, -⟩ := List.isChain_append_cons_cons.mp chain
        refine ⟨earlier, e, ⟨time, interval, .rests⟩, by simp, rfl, ?_⟩
        obtain ⟨ended, span, doing⟩ := e
        cases doing with
        | ends =>
          cases third
          exact ⟨.inl rfl, rfl, second⟩
        | starts =>
          cases third
          refine ⟨.inr ⟨rfl, ?_⟩, rfl, second⟩
          rcases List.eq_nil_or_concat' earlier with rfl | ⟨oldest, d, rfl⟩
          · rfl
          · rw [List.append_assoc, List.singleton_append] at past
            have fourth := (List.isChain_append_cons_cons.mp past).2.1
            obtain ⟨_, _, doing⟩ := d
            cases doing <;> cases fourth
        | _ => cases third
    | _ => cases second

namespace Timeline

variable {first t u after : Timeline} {l : Loop} {doings : List Doing} {next : Option Phase}
  {b : Beat} {log more : List Entry} {opening generation : Nat}

theorem Does.follows (does : t.Does l doings next after) (since : l.phase.Since t.time b) :
    (b :: doings.map t.beat).tail.IsChain Beat.Follows ∧
      (∀ c ∈ (doings.map t.beat).head?, b.Follows c) ∧
      ∀ phase ∈ next, phase.Since t.time ((doings.map t.beat).getLast?.getD b) := by
  obtain ⟨time, interval, doing⟩ := b
  cases does with
  | rests begun =>
    rw [begun] at since
    obtain ⟨rfl | rfl, rfl⟩ := since
    · refine ⟨.singleton _, ?_, ?_⟩ <;> simp [beat, Beat.Follows, Phase.Since, Polling.due, waitEnd]
    · refine ⟨.singleton _, ?_, ?_⟩ <;> simp [beat, Beat.Follows, Phase.Since, Polling.due, waitEnd]
  | begins waits expired untold listed =>
    rw [waits] at since
    obtain ⟨rfl, rfl, soon⟩ := since
    have now : t.time = waitEnd time interval := Nat.le_antisymm soon expired
    refine ⟨.singleton _, ?_, ?_⟩ <;> simp [beat, Beat.Follows, Phase.Since, now]
  | fails waits expired untold refused =>
    rw [waits] at since
    obtain ⟨rfl, rfl, soon⟩ := since
    have now : t.time = waitEnd time interval := Nat.le_antisymm soon expired
    refine ⟨?_, ?_, ?_⟩ <;> simp [beat, Beat.Follows, Phase.Since, now]
  | quits waits told => exact ⟨.nil, by simp, by simp [Phase.Since]⟩
  | asks ticks busy free =>
    rw [ticks] at since
    obtain ⟨⟨listed, rfl⟩ | ⟨calls, rfl⟩, early⟩ := since
    · refine ⟨.singleton _, ?_, ?_⟩ <;> simp [beat, Beat.Follows, Phase.Since, early]
    · refine ⟨.singleton _, ?_, ?_⟩ <;> simp [beat, Beat.Follows, Phase.Since, early]
  | ends ticks done =>
    rw [ticks] at since
    obtain ⟨⟨listed, rfl⟩ | ⟨calls, rfl⟩, early⟩ := since
    · refine ⟨.singleton _, ?_, ?_⟩ <;> simp [beat, Beat.Follows, Phase.Since, early]
    · refine ⟨.singleton _, ?_, ?_⟩ <;> simp [beat, Beat.Follows, Phase.Since, early]
  | leaves left => exact ⟨.nil, by simp, by simp⟩

/-- No loop misses the end of its wait. -/
theorem since_forward {time : Nat} (since : l.phase.Since t.time b) (lives : l ∈ t.polling.loops)
    (forward : t.time ≤ time) (idle : t.IdleUntil time) : l.phase.Since time b := by
  rcases Nat.eq_or_lt_of_le forward with rfl | passes
  · exact since
  · have rest := fun now late early => stepLoop?_eq_none.mp (idle now late early l lives)
    cases phase : l.phase with
    | starting =>
      have awake := rest t.time (Nat.le_refl _) passes
      simp [phase] at awake
    | waiting due =>
      rw [phase] at since
      obtain ⟨rests, length, soon⟩ := since
      refine ⟨rests, length, Nat.not_lt.mp fun early => ?_⟩
      have awake := rest due soon early
      simp [phase] at awake
    | ticking p =>
      rw [phase] at since
      exact ⟨since.1, Nat.le_trans since.2 forward⟩
    | leaving => trivial

structure Rhythmic (t : Timeline) (log : List Entry) : Prop where
  fresh : ∀ g, t.polling.generation < g → beatsOf g log = []
  chain : ∀ g, (beatsOf g log).IsChain Beat.Follows
  opens : ∀ g, ∀ b ∈ (beatsOf g log).head?, b.doing = .starts
  since : ∀ l ∈ t.polling.loops, ∃ b ∈ (beatsOf l.generation log).getLast?, l.phase.Since t.time b

theorem Passage.rhythmic (passage : t.Passage more after) (sound : t.polling.Sound)
    (rhythmic : t.Rhythmic log) : after.Rhythmic (log ++ more) where
  fresh g new := by
    rw [beatsOf_append, rhythmic.fresh g (Nat.lt_of_le_of_lt passage.later new), List.nil_append]
    rcases passage.beats g with quiet | ⟨-, started, -⟩ | ⟨l, lives, -, -, -, rfl, -⟩
    · exact quiet
    · omega
    · have issued := sound.issued l lives
      have later := passage.later
      omega
  chain g := by
    rw [beatsOf_append]
    rcases passage.beats g with quiet | ⟨rfl, -, own⟩ | ⟨l, lives, doings, next, does, rfl, own⟩
    · rw [quiet, List.append_nil]
      exact rhythmic.chain g
    · rw [rhythmic.fresh _ (Nat.lt_succ_self _), own]
      exact .singleton _
    · obtain ⟨b, last, since⟩ := rhythmic.since l lives
      obtain ⟨chain, follows, -⟩ := does.follows since
      rw [own]
      refine (rhythmic.chain _).append chain fun c known d => ?_
      obtain rfl : b = c := Option.some.inj (last.symm.trans known)
      exact follows d
  opens g := by
    rw [beatsOf_append]
    rcases passage.beats g with quiet | ⟨rfl, -, own⟩ | ⟨l, lives, -, -, -, rfl, -⟩
    · rw [quiet, List.append_nil]
      exact rhythmic.opens g
    · rw [rhythmic.fresh _ (Nat.lt_succ_self _), own]
      rintro c ⟨⟩
      rfl
    · -- The loop has a beat already, so the first is not a new one.
      obtain ⟨b, last, -⟩ := rhythmic.since l lives
      have opens := rhythmic.opens l.generation
      cases own : beatsOf l.generation log with
      | nil =>
        rw [own] at last
        cases last
      | cons c rest =>
        rw [own] at opens
        exact opens
  since k lives := by
    obtain ⟨forward, idle⟩ := passage.forward
    rw [beatsOf_append]
    rcases passage.origin sound lives with
      ⟨l, before, same, phase, -, quiet⟩ | ⟨begun, new, now, own⟩ |
        ⟨l, before, doings, phase, does, rfl, own⟩
    · obtain ⟨b, last, since⟩ := rhythmic.since l before
      rw [quiet, List.append_nil, ← same, ← phase]
      exact ⟨b, last, since_forward since before forward idle⟩
    · rw [own, begun]
      exact ⟨t.beat .starts, by simp, .inl rfl, now.symm⟩
    · obtain ⟨b, last, since⟩ := rhythmic.since l before
      obtain ⟨-, -, next⟩ := does.follows since
      rw [own]
      refine ⟨_, ?_, does.around.1 ▸ next phase rfl⟩
      rw [List.getLast?_append, last]
      cases (doings.map t.beat).getLast? <;> rfl

theorem Runs.rhythmic (run : first.Runs log t) (sound : first.polling.Sound)
    (fresh : first.polling.loops = []) : t.Rhythmic log := by
  induction run with
  | begin => exact ⟨fun _ _ => rfl, fun _ => .nil, nofun, by simp [fresh]⟩
  | on run passage ih => exact passage.rhythmic (run.sound sound) ih

theorem Passage.steady (passage : t.Passage log after) :
    Steady t.polling.interval log ∧ after.polling.interval = inForce t.polling.interval log := by
  cases passage with
  | start idle => simp [Steady, entry, inForce, Note.lengthAfter, Timeline.start, Polling.start, idle]
  | stop => exact ⟨⟨rfl, trivial⟩, rfl⟩
  | setInterval positive =>
    rw [setInterval_polling positive]
    exact ⟨⟨rfl, trivial⟩, rfl⟩
  | shutdown s => exact ⟨⟨rfl, trivial⟩, rfl⟩
  | around polling time options history => exact ⟨trivial, by rw [polling]; rfl⟩
  | @loop l doings next _ lives does =>
    have same : after.polling.interval = t.polling.interval := by
      rw [does.polling, Polling.onward_interval]
    have unset : ∀ doings, inForce t.polling.interval (t.entries l.generation doings) =
        t.polling.interval := by
      intro doings
      induction doings with
      | nil => rfl
      | cons doing doings ih => exact ih
    have steady : ∀ doings, Steady t.polling.interval (t.entries l.generation doings) := by
      intro doings
      induction doings with
      | nil => trivial
      | cons doing doings ih => exact ⟨rfl, ih⟩
    exact ⟨steady doings, same.trans (unset doings).symm⟩
  | wait forward idle => exact ⟨trivial, rfl⟩

theorem Runs.steady (run : first.Runs log t) :
    Steady first.polling.interval log ∧
      t.polling.interval = inForce first.polling.interval log := by
  induction run with
  | begin => exact ⟨trivial, rfl⟩
  | on run passage ih =>
    obtain ⟨steady, now⟩ := ih
    obtain ⟨more, later⟩ := passage.steady
    rw [now] at more later
    exact ⟨steady_append.mpr ⟨steady, more⟩, later.trans (inForce_append ..).symm⟩

def Untold (log : List Entry) : Prop :=
  ∀ e ∈ log, e.note ≠ .stopped ∧ ∀ s, e.note = .shutdown s → s.isFinal = false

structure Lasts (t : Timeline) (generation : Nat) : Prop where
  shutdown : t.polling.shutdown.isFinal = false
  lives : ∃ l ∈ t.polling.loops, l.generation = generation ∧ l.stopSent = false ∧
    l.phase ≠ .leaving

theorem start_lasts (idle : t.polling.running = false)
    (shutdown : t.polling.shutdown.isFinal = false) :
    t.start.2.Lasts (t.polling.generation + 1) := by
  constructor
  · simpa [Timeline.start, Polling.start, idle] using shutdown
  · simp [Timeline.start, Polling.start, idle]

theorem Does.stays (does : t.Does l doings next after) (unstopped : l.stopSent = false)
    (shutdown : t.polling.shutdown.isFinal = false) (stays : l.phase ≠ .leaving) :
    ∃ phase, next = some phase ∧ phase ≠ .leaving := by
  cases does with
  | quits waits told => simp [unstopped, shutdown] at told
  | leaves left => exact absurd left stays
  | _ => exact ⟨_, rfl, nofun⟩

theorem Passage.lasts (passage : t.Passage log after) (sound : t.polling.Sound) (untold : Untold log)
    (lasts : t.Lasts generation) : after.Lasts generation := by
  obtain ⟨shutdown, l, lives, rfl, unstopped, stays⟩ := lasts
  have final : after.polling.shutdown.isFinal = false := by
    rcases passage.signalled with same | ⟨s, rfl, given⟩
    · rw [same, shutdown]
    · rw [given, (untold _ (List.mem_singleton_self _)).2 s rfl]
  refine ⟨final, ?_⟩
  cases passage with
  | start idle => exact ⟨l, Polling.mem_start lives, rfl, unstopped, stays⟩
  | stop => exact absurd rfl (untold _ (List.mem_singleton_self _)).1
  | setInterval positive =>
    rw [setInterval_polling positive]
    exact ⟨l, lives, rfl, unstopped, stays⟩
  | around polling time options history => exact ⟨l, polling ▸ lives, rfl, unstopped, stays⟩
  | @loop k doings next _ going does =>
    rw [does.polling]
    by_cases mine : l.generation = k.generation
    · obtain rfl := List.inj_on_of_nodup_map sound.distinct lives going mine
      obtain ⟨phase, rfl, staysToo⟩ := does.stays unstopped shutdown stays
      exact ⟨{ l with phase }, (Polling.mem_onward sound going).mpr (.inr ⟨phase, rfl, rfl⟩), rfl,
        unstopped, staysToo⟩
    · exact ⟨l, (Polling.mem_onward sound going).mpr (.inl ⟨lives, mine⟩), rfl, unstopped, stays⟩
  | _ => exact ⟨l, lives, rfl, unstopped, stays⟩

theorem Runs.lasts (run : t.Runs log u) (sound : t.polling.Sound) (untold : Untold log)
    (lasts : t.Lasts generation) : u.Lasts generation := by
  induction run with
  | begin => exact lasts
  | on run passage ih =>
    have before := ih fun e member => untold e (List.mem_append_left _ member)
    exact passage.lasts (run.sound sound) (fun e member => untold e (List.mem_append_right _ member))
      before

theorem Lasts.awaits (lasts : t.Lasts generation) (rest : t.AtRest) (rhythmic : t.Rhythmic log) :
    ∃ b ∈ (beatsOf generation log).getLast?,
      (b.doing = .rests ∧ t.time < waitEnd b.time b.interval) ∨
      ∃ p, ⟨generation, false, .ticking p⟩ ∈ t.polling.loops ∧ p.isDone = false ∧
        p.isStuck t.options t.time = true := by
  obtain ⟨-, l, lives, rfl, unstopped, -⟩ := lasts
  obtain ⟨b, last, since⟩ := rhythmic.since l lives
  refine ⟨b, last, ?_⟩
  rcases stepLoop?_eq_none.mp (rest l lives) with ⟨due, waits, ahead, -⟩ | ⟨p, ticks, busy, stuck⟩
  · rw [waits] at since
    obtain ⟨rests, rfl, -⟩ := since
    exact .inl ⟨rests, ahead⟩
  · refine .inr ⟨p, ?_, busy, stuck⟩
    rw [← ticks, ← unstopped]
    exact lives

/-- From the start of the program on, the first tick of a loop begins one interval after the loop,
and each further one an interval after the end of the tick before, cut to the longest wait. The
interval is the one in force when the wait begins. Ticks of one loop do not overlap, a refused
interval changes nothing, and a loop goes on like that as long as nobody tells it to end. -/
theorem ticks_keep_time {interval : Nat} {shutdown : Shutdown}
    (opening : first.polling = .ofInterval interval shutdown) (run : first.Runs log t) :
    (∀ g, (beatsOf g log).IsChain Beat.Follows ∧
      (∀ b ∈ (beatsOf g log).head?, b.doing = .starts) ∧
      ∀ before b later listed, beatsOf g log = before ++ b :: later → b.doing = .begins listed →
        ∃ earlier e r, before = earlier ++ [e, r] ∧ r.doing = .rests ∧
          (e.doing = .ends ∨ e.doing = .starts ∧ earlier = []) ∧ r.time = e.time ∧
          b.time = waitEnd e.time r.interval) ∧
    (Steady first.polling.interval log ∧
      t.polling.interval = inForce first.polling.interval log ∧
      t.setInterval 0 = (.error .zeroInterval, t)) ∧
    (t.polling.running = false → t.polling.shutdown.isFinal = false →
      t.start.2.Lasts (t.polling.generation + 1)) ∧
    (∀ g, t.Lasts g →
      (∀ u more, t.Runs more u → Untold more → u.Lasts g) ∧
      (t.AtRest → ∃ b ∈ (beatsOf g log).getLast?,
        (b.doing = .rests ∧ t.time < waitEnd b.time b.interval) ∨
        ∃ p, ⟨g, false, .ticking p⟩ ∈ t.polling.loops ∧ p.isDone = false ∧
          p.isStuck t.options t.time = true)) ∧
    (t.AtRest → ∀ duration, ∃ more, t.Unattended more (t.sleep duration) ∧
      (t.sleep duration).AtRest ∧ (t.sleep duration).time = waitEnd t.time duration) := by
  have sound : first.polling.Sound := opening ▸ Polling.ofInterval_sound _ _
  have rhythmic : t.Rhythmic log := run.rhythmic sound (by rw [opening]; rfl)
  have soundNow := run.sound sound
  refine ⟨fun g => ⟨rhythmic.chain g, rhythmic.opens g, ?_⟩, ⟨run.steady.1, run.steady.2, rfl⟩,
    start_lasts, fun g lasts => ⟨fun u more onward untold => onward.lasts soundNow untold lasts,
      fun rest => lasts.awaits rest rhythmic⟩, fun rest => sleep_runs rest soundNow⟩
  intro before b later listed split begins
  exact begins_timed (rhythmic.chain g) (rhythmic.opens g) split begins

def slowed : Timeline := ((silentMarket.start.2.settle.sleep 5).setInterval 20).2

theorem slowed_runs (duration : Nat) :
    ∃ log, silentMarket.Runs log (slowed.settle.sleep duration) := by
  have sound : silentMarket.polling.Sound := Polling.ofInterval_sound 10 .unattached
  obtain ⟨log, run⟩ := start_runs (t := silentMarket) rfl sound 5
  have longer : 0 < 20 := by decide
  have changed := run.on (.setInterval longer)
  obtain ⟨waiting, waits, -⟩ := settle_sleep_runs (changed.sound sound) duration
  exact ⟨_, changed.trans waits.run⟩

/-- The interval is doubled in the middle of the first wait. The tick that begins after ten
milliseconds ends after fifteen, and the next begins twenty later: only the second wait is the
longer one. -/
theorem slowed_keeps_time :
    (slowed.settle.sleep 5).calls.length = 1 ∧ (slowed.settle.sleep 29).calls.length = 1 ∧
    (slowed.settle.sleep 30).calls.length = 2 ∧
    ∃ log, silentMarket.Runs log (slowed.settle.sleep 30) ∧ (beatsOf 1 log).IsChain Beat.Follows ∧
      Steady 10 log := by
  obtain ⟨log, run⟩ := slowed_runs 30
  obtain ⟨rhythm, ⟨steady, -⟩, -⟩ := ticks_keep_time rfl run
  exact ⟨by decide +kernel, by decide +kernel, by decide +kernel, log, run, (rhythm 1).1, steady⟩

def patient : Timeline where
  watch := { desk := Scene.opening.desk }
  polling := .ofInterval 946080060000 .unattached
  market := { quote := fun _ => .error "timed out" }

theorem long_waits_are_cut :
    ∃ t log e r b, patient.Runs log t ∧ beatsOf 1 log = [e, r, b] ∧ e.doing = .starts ∧
      e.time = 0 ∧ r.doing = .rests ∧ r.interval = 946080060000 ∧ b.doing = .begins [] ∧
      b.time = 946080000000 ∧ b.time ≠ e.time + r.interval := by
  have started : patient.Passage [patient.entry (.loop 1 .starts)] patient.start.2 := .start rfl
  let resting : Timeline := patient.start.2.setPhase 1 (.waiting 946080000000)
  have rests : patient.start.2.Passage (patient.start.2.entries 1 [.rests]) resting :=
    .loop (l := { generation := 1 }) (List.mem_singleton_self _) (.rests rfl)
  let expired : Timeline := { resting with time := 946080000000 }
  have waits : resting.Passage [] expired := by
    refine .wait (Nat.zero_le _) fun now _ early l lives => ?_
    rw [List.mem_singleton.mp lives]
    exact stepLoop?_eq_none.mpr (.inl ⟨_, rfl, early, rfl, rfl⟩)
  have none : expired.store.listActive = [] := List.mergeSort_nil
  have begins : expired.Passage (expired.entries 1 [.begins expired.store.listActive]) _ :=
    .loop (l := { generation := 1, phase := .waiting 946080000000 }) (List.mem_singleton_self _)
      (.begins rfl (Nat.le_refl _) rfl rfl)
  rw [none] at begins
  exact ⟨_, _, _, _, _, (((Runs.begin.on started).on rests).on waits).on begins, rfl, rfl, rfl, rfl,
    rfl, rfl, rfl, by decide⟩

end Timeline

end TickerWatch
