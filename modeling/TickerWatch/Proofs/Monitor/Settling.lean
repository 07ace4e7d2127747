import Mathlib.Algebra.Group.Action.Defs
import Mathlib.Algebra.Order.BigOperators.Group.List
import Mathlib.Algebra.Order.Ring.Nat
import TickerWatch.Proofs.Monitor.Runs

namespace TickerWatch

namespace Polling

variable {p : Polling} {l : Loop}

theorem sum_onward (lives : l ∈ p.loops) (f : Loop → Nat) (next : Option Phase) (some : 0 < f l)
    (fewer : ∀ phase ∈ next, f { l with phase } < f l) (sound : p.Sound) :
    ((p.onward l.generation next).loops.map f).sum < (p.loops.map f).sum := by
  cases next with
  | some phase =>
    have mine : ∀ k ∈ p.loops, k.generation = l.generation → k = l := fun k before same =>
      List.inj_on_of_nodup_map sound.distinct before lives same
    simp only [onward, setPhase, List.map_map]
    apply List.sum_lt_sum
    · intro k before
      by_cases same : k.generation = l.generation
      · obtain rfl := mine k before same
        simpa using Nat.le_of_lt (fewer phase rfl)
      · simp [same]
    · exact ⟨l, lives, by simpa using fewer phase rfl⟩
  | none =>
    -- A loop that leaves takes its own share away with it.
    have split := ((List.filter_append_perm (fun k => decide (k.generation ≠ l.generation))
      p.loops).map f).sum_nat
    have gone : l ∈ p.loops.filter fun k => !decide (k.generation ≠ l.generation) :=
      List.mem_filter.mpr ⟨lives, by simp⟩
    have least := List.le_sum_of_mem (List.mem_map_of_mem (f := f) gone)
    rw [List.map_append, List.sum_append] at split
    simp only [onward, leave_loops]
    omega

end Polling

theorem min?_le {ends : List Nat} {ending : Nat} (member : ending ∈ ends) :
    ∃ first, ends.min? = some first ∧ first ≤ ending := by
  cases least : ends.min? with
  | none =>
    rw [List.min?_eq_none_iff.mp least] at member
    cases member
  | some first => exact ⟨first, rfl, (List.min?_eq_some_iff.mp least).2 ending member⟩

theorem Pass.nextEnd?_le {p : Pass} {flight : String × Nat} (flying : flight ∈ p.inFlight) :
    ∃ ending, p.nextEnd? = some ending ∧ ending ≤ flight.2 :=
  min?_le (List.mem_map_of_mem (f := Prod.snd) flying)

namespace Timeline

variable {t u after : Timeline} {l : Loop} {doings : List Doing} {next : Option Phase} {p : Pass}
  {time stop : Nat} {log : List Entry}

def stepsLeft (t : Timeline) (l : Loop) : Nat :=
  match l.phase with
  | .leaving => 1
  | .starting => 3
  | .waiting due =>
    if due ≤ t.time ∧ l.stopSent = false then 6
    else if l.stopSent = true ∨ t.polling.shutdown.isFinal = true then 2
    else 0
  | .ticking p => if p.isDone then 4 else if p.isStuck t.options t.time then 0 else 5

theorem stepsLeft_le (t : Timeline) (l : Loop) : t.stepsLeft l ≤ 6 := by
  unfold stepsLeft
  split <;> (try split) <;> (try split) <;> omega

theorem Does.stepsLeft (does : t.Does l doings next after) (interval : 0 < t.polling.interval) :
    0 < t.stepsLeft l ∧ ∀ phase ∈ next, t.stepsLeft { l with phase } < t.stepsLeft l := by
  cases does with
  | rests begun =>
    have later : t.time < t.polling.due t.time := waitEnd_later.mpr interval
    have early : ¬ t.polling.due t.time ≤ t.time := by omega
    simp only [Timeline.stepsLeft, begun, Option.mem_some_iff, forall_eq', early, false_and,
      ↓reduceIte]
    split <;> omega
  | begins waits expired untold listed =>
    simp only [Timeline.stepsLeft, waits, expired, untold, true_and, Option.mem_some_iff, forall_eq',
      ↓reduceIte]
    split <;> (try split) <;> omega
  | fails waits expired untold refused =>
    simp [Timeline.stepsLeft, waits, expired, untold]
  | quits waits told =>
    simp only [Timeline.stepsLeft, waits, told, Option.mem_some_iff, forall_eq', ↓reduceIte]
    split <;> omega
  | @asks p ticks busy free =>
    have stuck : (t.advance p).1.isStuck t.options t.time = true := Pass.advance_stuck p
    simp only [Timeline.stepsLeft, ticks, busy, free, stuck, Option.mem_some_iff, forall_eq',
      Bool.false_eq_true, ↓reduceIte]
    split <;> omega
  | ends ticks done =>
    simp [Timeline.stepsLeft, ticks, done]
  | leaves left =>
    simp [Timeline.stepsLeft, left]

theorem Does.fewer (does : t.Does l doings next after) (lives : l ∈ t.polling.loops)
    (sound : t.polling.Sound) :
    (after.polling.loops.map after.stepsLeft).sum < (t.polling.loops.map t.stepsLeft).sum := by
  obtain ⟨now, options, -⟩ := does.around
  have same : after.stepsLeft = t.stepsLeft := by
    have shutdown : after.polling.shutdown = t.polling.shutdown := by
      rw [does.polling, Polling.onward_shutdown]
    funext k
    simp only [Timeline.stepsLeft, now, options, shutdown]
  obtain ⟨some, fewer⟩ := does.stepsLeft sound.interval
  rw [same, does.polling]
  exact Polling.sum_onward lives t.stepsLeft next some fewer sound

theorem settleFrom_atRest {fuel : Nat} (sound : t.polling.Sound)
    (enough : (t.polling.loops.map t.stepsLeft).sum ≤ fuel) : (settleFrom fuel t).AtRest := by
  induction fuel generalizing t with
  | zero =>
    intro l lives
    cases stepped : t.stepLoop? l with
    | none => exact stepped
    | some after =>
      obtain ⟨doings, next, does⟩ := (stepLoop?_goes stepped).does
      have fewer := does.fewer lives sound
      omega
  | succ fuel ih =>
    unfold settleFrom
    cases found : t.polling.loops.findSome? t.stepLoop? with
    | none => exact List.findSome?_eq_none_iff.mp found
    | some after =>
      obtain ⟨l, lives, doings, next, does⟩ := findStep_does found
      have fewer := does.fewer lives sound
      exact ih ((Step.loop lives does.goes).sound sound) (by omega)

theorem settle_atRest (sound : t.polling.Sound) : t.settle.AtRest := by
  have most : ∀ loops : List Loop, (loops.map t.stepsLeft).sum ≤ 6 * loops.length := by
    intro loops
    have bounded : ∀ steps ∈ loops.map t.stepsLeft, steps ≤ 6 := by
      intro steps member
      obtain ⟨l, -, rfl⟩ := List.mem_map.mp member
      exact t.stepsLeft_le l
    have total := List.sum_le_card_nsmul _ _ bounded
    rw [List.length_map, smul_eq_mul] at total
    omega
  refine settleFrom_atRest sound (Nat.le_trans (most _) ?_)
  unfold stepsAtOnce
  omega

theorem settleFrom_time (fuel : Nat) (t : Timeline) : (settleFrom fuel t).time = t.time := by
  induction fuel generalizing t with
  | zero => rfl
  | succ fuel ih =>
    unfold settleFrom
    cases found : t.polling.loops.findSome? t.stepLoop? with
    | none => rfl
    | some after =>
      obtain ⟨l, -, doings, next, does⟩ := findStep_does found
      exact (ih after).trans does.around.1

theorem settle_time (t : Timeline) : t.settle.time = t.time := settleFrom_time _ t

theorem nextEnd?_le (lives : l ∈ t.polling.loops) {ending : Nat}
    (ends : Phase.nextEnd? l.phase = some ending) : ∃ due, t.nextEnd? = some due ∧ due ≤ ending :=
  min?_le (List.mem_filterMap.mpr ⟨l, lives, ends⟩)

/-- No wait of a loop has ended unnoticed, and no loop goes on before the next one ends. -/
structure Calm (t : Timeline) : Prop where
  ahead : ∀ due, t.nextEnd? = some due → t.time ≤ due
  idle : ∀ time, (∀ due, t.nextEnd? = some due → time ≤ due) → t.IdleUntil time

theorem AtRest.later {due : Nat} (rest : t.AtRest) (next : t.nextEnd? = some due) : t.time < due := by
  obtain ⟨member, -⟩ := List.min?_eq_some_iff.mp next
  obtain ⟨l, lives, ends⟩ := List.mem_filterMap.mp member
  rcases stepLoop?_eq_none.mp (rest l lives) with ⟨ending, waits, ahead, -⟩ | ⟨p, ticks, -, stuck⟩
  · rw [waits, Phase.nextEnd?, Option.some.injEq] at ends
    omega
  · rw [ticks, Phase.nextEnd?] at ends
    obtain ⟨flying, -⟩ := List.min?_eq_some_iff.mp ends
    obtain ⟨flight, underway, rfl⟩ := List.mem_map.mp flying
    exact (Pass.isStuck_iff.mp stuck).2 flight underway

theorem AtRest.calm (rest : t.AtRest) : t.Calm where
  ahead due next := Nat.le_of_lt (rest.later next)
  idle := by
    intro time before now forward early l lives
    refine stepLoop?_eq_none.mpr ?_
    rcases stepLoop?_eq_none.mp (rest l lives) with
      ⟨due, waits, -, untold⟩ | ⟨p, ticks, busy, stuck⟩
    · have ends : Phase.nextEnd? l.phase = some due := by rw [waits, Phase.nextEnd?]
      obtain ⟨first, next, least⟩ := nextEnd?_le lives ends
      have bound := before first next
      have ahead : now < due := by omega
      exact .inl ⟨due, waits, ahead, untold⟩
    · obtain ⟨room, -⟩ := Pass.isStuck_iff.mp stuck
      refine .inr ⟨p, ticks, busy, Pass.isStuck_iff.mpr ⟨room, fun flight flying => ?_⟩⟩
      obtain ⟨ending, ends, soonest⟩ := Pass.nextEnd?_le flying
      obtain ⟨first, next, least⟩ := nextEnd?_le lives (by simpa [ticks, Phase.nextEnd?] using ends)
      have bound := before first next
      show now < flight.2
      omega

theorem Calm.around (calm : t.Calm) (polling : after.polling = t.polling)
    (options : after.options = t.options) (time : after.time = t.time) : after.Calm where
  ahead := by
    rw [nextEnd?, polling, time]
    exact calm.ahead
  idle := by
    intro later before now forward early l lives
    rw [nextEnd?, polling] at before
    rw [time] at forward
    have rest := calm.idle later before now forward early l (polling ▸ lives)
    rw [stepLoop?_eq_none] at rest ⊢
    rw [polling, options]
    exact rest

theorem Calm.wait (calm : t.Calm) (time : Nat) (forward : t.time ≤ time)
    (before : ∀ due, t.nextEnd? = some due → time ≤ due) :
    t.Unattended [] { t with time } ∧ Calm { t with time } :=
  ⟨⟨(Passage.wait forward (calm.idle time before)).run, rfl, nofun⟩,
    ⟨before, fun later early now ahead soon =>
      calm.idle later early now (Nat.le_trans forward ahead) soon⟩⟩

theorem runUntil_runs (fuel : Nat) (rest : t.AtRest) (sound : t.polling.Sound)
    (forward : t.time ≤ stop) (enough : stop ≤ t.time + fuel) :
    ∃ log, t.Unattended log (runUntil stop fuel t) ∧
      (runUntil stop fuel t).AtRest ∧ (runUntil stop fuel t).time ≤ stop ∧
      ∀ due, (runUntil stop fuel t).nextEnd? = some due → stop < due := by
  -- Every round moves the time on, because at rest all ends are still to come.
  induction fuel generalizing t with
  | zero =>
    refine ⟨[], .begin t, rest, forward, fun due next => ?_⟩
    have later := rest.later next
    omega
  | succ fuel ih =>
    unfold runUntil
    cases next : t.nextEnd? with
    | none => exact ⟨[], .begin t, rest, forward, fun due known => by simp [next] at known⟩
    | some time =>
      have later := rest.later next
      have reached : max time t.time = time := by omega
      by_cases soon : time ≤ stop
      · obtain ⟨wait, -⟩ := rest.calm.wait time (Nat.le_of_lt later) fun due known => by simp_all
        obtain ⟨log, settles⟩ := settle_runs { t with time }
        have now : { t with time }.settle.time = time := settle_time _
        obtain ⟨more, run, ends⟩ := ih (t := { t with time }.settle)
          (settle_atRest (t := { t with time }) sound) (settles.run.sound sound) (by omega) (by omega)
        simp only [soon, reached, ↓reduceIte]
        exact ⟨_, (wait.trans settles).trans run, ends⟩
      · simp only [soon, ↓reduceIte]
        refine ⟨[], .begin t, rest, forward, fun due known => ?_⟩
        rw [next, Option.some.injEq] at known
        omega

/-- To let time pass is a run, at the end of which all loops are at rest again. -/
theorem sleep_runs (rest : t.AtRest) (sound : t.polling.Sound) (duration : Nat) :
    ∃ log, t.Unattended log (t.sleep duration) ∧ (t.sleep duration).AtRest ∧
      (t.sleep duration).time = waitEnd t.time duration := by
  have forward : t.time ≤ waitEnd t.time duration := Nat.le_add_right _ _
  have enough : waitEnd t.time duration ≤ t.time + duration :=
    Nat.add_le_add_left (Nat.min_le_left _ _) _
  obtain ⟨log, run, restful, soon, later⟩ := runUntil_runs duration rest sound forward enough
  obtain ⟨wait, -⟩ := restful.calm.wait _ soon fun due next => Nat.le_of_lt (later due next)
  have idle := restful.calm.idle (waitEnd t.time duration + 1) later _ soon (Nat.lt_succ_self _)
  exact ⟨_, run.trans wait, idle, rfl⟩

theorem settle_sleep_runs (sound : t.polling.Sound) (duration : Nat) :
    ∃ log, t.Unattended log (t.settle.sleep duration) ∧ (t.settle.sleep duration).AtRest := by
  obtain ⟨settling, settles⟩ := settle_runs t
  obtain ⟨sleeping, sleeps, rest, -⟩ :=
    sleep_runs (settle_atRest sound) (settles.run.sound sound) duration
  exact ⟨_, settles.trans sleeps, rest⟩

theorem start_runs (idle : t.polling.running = false) (sound : t.polling.Sound) (duration : Nat) :
    ∃ log, t.Runs log (t.start.2.settle.sleep duration) := by
  obtain ⟨log, sleeps, -⟩ := settle_sleep_runs (t := t.start.2) sound.start duration
  exact ⟨_, (Passage.start idle).run.trans sleeps.run⟩

end Timeline

end TickerWatch
