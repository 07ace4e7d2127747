import Mathlib.Data.List.Nodup
import Mathlib.Logic.Relation
import TickerWatch.Proofs.Monitor.Scene
import TickerWatch.Timeline

namespace TickerWatch

theorem Wake.ends {s : Shutdown} {stopSent : Bool} {due time : Nat} {w : Wake}
    (ready : w.isReady s stopSent due time = true) (ends : w.leadsToTick stopSent = false) :
    stopSent = true ∨ s.isFinal = true := by
  cases w with
  | timer => exact .inl (by simpa [leadsToTick] using ends)
  | stop => exact .inl ready
  | shutdown => exact .inr ready

namespace Timeline

/-- A step of one loop. Of several reasons to wake, any may come first. -/
inductive Goes (t : Timeline) (l : Loop) : Timeline → Prop
  | woken {due : Nat} (w : Wake) (waits : l.phase = .waiting due)
      (ready : w.isReady t.polling.shutdown l.stopSent due t.time = true) : Goes t l (t.wake l w)
  | steps {after : Timeline} (awake : ∀ due, l.phase ≠ .waiting due)
      (stepped : t.stepLoop? l = some after) : Goes t l after

/-- A step of a caller, of a loop, or of anything around the polling: the time, the desk, the market
and the word of the owner may change at any moment. -/
inductive Step (t : Timeline) : Timeline → Prop
  | start : Step t t.start.2
  | stop : Step t t.stop.2
  | setInterval (interval : Nat) : Step t (t.setInterval interval).2
  | around {after : Timeline}
      (same : after.polling = { t.polling with shutdown := after.polling.shutdown }) : Step t after
  | loop {l : Loop} {after : Timeline} (lives : l ∈ t.polling.loops) (goes : t.Goes l after) :
      Step t after

abbrev Reaches : Timeline → Timeline → Prop := Relation.ReflTransGen Step

variable {t after : Timeline} {l : Loop}

theorem beginTick_polling (t : Timeline) (generation : Nat) :
    ∃ phase, phase ≠ .leaving ∧
      (t.beginTick generation).polling = t.polling.setPhase generation phase := by
  unfold beginTick
  cases t.watch.beginTick t.surroundings with
  | error err => exact ⟨.starting, nofun, rfl⟩
  | ok p => exact ⟨.ticking p, nofun, rfl⟩

/-- All that a step of a loop can do to the polling. -/
theorem Goes.polling (goes : t.Goes l after) :
    (∃ phase, after.polling = t.polling.setPhase l.generation phase ∧
      (phase = .leaving → l.stopSent = true ∨ t.polling.shutdown.isFinal = true)) ∨
    (l.phase = .leaving ∧ after.polling = t.polling.leave l.generation) := by
  cases goes with
  | woken w waits ready =>
    unfold wake
    split
    · obtain ⟨phase, stays, polling⟩ := t.beginTick_polling l.generation
      exact .inl ⟨phase, polling, fun leaves => absurd leaves stays⟩
    · rename_i ends
      exact .inl ⟨.leaving, rfl, fun _ => Wake.ends ready (by simpa using ends)⟩
  | steps awake stepped =>
    unfold stepLoop? at stepped
    split at stepped
    · cases stepped
      exact .inl ⟨_, rfl, nofun⟩
    · rename_i due waits
      exact absurd waits (awake due)
    · rename_i p ticks
      split at stepped
      · cases stepped
        exact .inl ⟨.starting, rfl, nofun⟩
      · split at stepped
        · cases stepped
        · cases stepped
          exact .inl ⟨_, rfl, nofun⟩
    · rename_i leaves
      cases stepped
      exact .inr ⟨leaves, rfl⟩

theorem stepLoop?_goes (stepped : t.stepLoop? l = some after) : t.Goes l after := by
  by_cases waits : ∃ due, l.phase = .waiting due
  · obtain ⟨due, waits⟩ := waits
    simp only [stepLoop?, waits] at stepped
    obtain ⟨w, first, rfl⟩ := Option.map_eq_some_iff.mp stepped
    exact .woken w waits (List.find?_some first)
  · exact .steps (fun due here => waits ⟨due, here⟩) stepped

theorem settleFrom_reaches (fuel : Nat) (t : Timeline) : t.Reaches (settleFrom fuel t) := by
  induction fuel generalizing t with
  | zero => exact .refl
  | succ fuel ih =>
    unfold settleFrom
    cases found : t.polling.loops.findSome? t.stepLoop? with
    | none => exact .refl
    | some after =>
      obtain ⟨l, lives, stepped⟩ := List.exists_of_findSome?_eq_some found
      exact .head (.loop lives (stepLoop?_goes stepped)) (ih after)

theorem settle_reaches (t : Timeline) : t.Reaches t.settle := settleFrom_reaches _ t

theorem runUntil_reaches (stop fuel : Nat) (t : Timeline) : t.Reaches (runUntil stop fuel t) := by
  induction fuel generalizing t with
  | zero => exact .refl
  | succ fuel ih =>
    unfold runUntil
    split
    · rename_i time _
      split
      · have waits : t.Step { t with time := max time t.time } := .around rfl
        exact .head waits ((settle_reaches _).trans (ih _))
      · exact .refl
    · exact .refl

/-- The order in which the loops take turns while time passes is one of the orders there are. -/
theorem sleep_reaches (t : Timeline) (duration : Nat) : t.Reaches (t.sleep duration) :=
  (runUntil_reaches _ _ t).tail (.around rfl)

end Timeline

namespace Polling

structure Sound (p : Polling) : Prop where
  running : p.running = p.recorded.isSome
  latest : ∀ g, p.recorded = some g → g = p.generation
  issued : ∀ l ∈ p.loops, l.generation ≤ p.generation
  distinct : (p.loops.map Loop.generation).Nodup
  unstopped : ∀ l ∈ p.loops, (l.stopSent = false ↔ p.recorded = some l.generation)
  lives : ∀ g, p.recorded = some g → ∃ l ∈ p.loops, l.generation = g
  interval : 0 < p.interval

variable {p q : Polling}

theorem ofInterval_sound (interval : Nat) (shutdown : Shutdown) :
    (ofInterval interval shutdown).Sound where
  running := rfl
  latest := nofun
  issued := nofun
  distinct := .nil
  unstopped := nofun
  lives := nofun
  interval := by
    show 0 < if interval = 0 then defaultInterval else interval
    split
    · decide
    · omega

def tag (l : Loop) : Nat × Bool := (l.generation, l.stopSent)

theorem Sound.same (sound : p.Sound) (running : q.running = p.running)
    (recorded : q.recorded = p.recorded) (generation : q.generation = p.generation)
    (interval : 0 < q.interval) (loops : q.loops.map tag = p.loops.map tag) : q.Sound := by
  have stems : ∀ l ∈ q.loops, ∃ k ∈ p.loops, k.generation = l.generation ∧
      k.stopSent = l.stopSent := by
    intro l member
    have known : tag l ∈ p.loops.map tag := loops ▸ List.mem_map_of_mem member
    obtain ⟨k, before, same⟩ := List.mem_map.mp known
    exact ⟨k, before, Prod.ext_iff.mp same⟩
  have generations : q.loops.map Loop.generation = p.loops.map Loop.generation := by
    have firsts := congrArg (List.map Prod.fst) loops
    rw [List.map_map, List.map_map] at firsts
    exact firsts
  constructor
  · rw [running, recorded, sound.running]
  · rw [recorded, generation]
    exact sound.latest
  · intro l member
    obtain ⟨k, before, sameGeneration, -⟩ := stems l member
    rw [generation, ← sameGeneration]
    exact sound.issued k before
  · rw [generations]
    exact sound.distinct
  · intro l member
    obtain ⟨k, before, sameGeneration, sameStop⟩ := stems l member
    rw [recorded, ← sameGeneration, ← sameStop]
    exact sound.unstopped k before
  · intro g here
    obtain ⟨k, before, named⟩ := sound.lives g (recorded ▸ here)
    have known : g ∈ q.loops.map Loop.generation := by
      rw [generations, ← named]
      exact List.mem_map_of_mem before
    exact List.mem_map.mp known
  · exact interval

theorem setPhase_tags (p : Polling) (generation : Nat) (phase : Phase) :
    (p.setPhase generation phase).loops.map tag = p.loops.map tag := by
  simp only [setPhase, List.map_map]
  apply List.map_congr_left
  intro l _
  by_cases mine : l.generation = generation <;> simp [tag, mine]

theorem mem_start {l : Loop} (member : l ∈ p.loops) : l ∈ p.start.2.loops := by
  unfold start
  split
  · exact member
  · exact List.mem_append_left _ member

theorem Sound.start (sound : p.Sound) : p.start.2.Sound := by
  unfold Polling.start
  cases running : p.running with
  | true => exact sound
  | false =>
    have unrecorded : p.recorded = none := by
      have absent := sound.running
      rw [running] at absent
      exact Option.isNone_iff_eq_none.mp (by simpa using absent.symm)
    have old : ∀ l ∈ p.loops, l.generation ≠ p.generation + 1 := by
      intro l member
      have issued := sound.issued l member
      omega
    simp only [Bool.false_eq_true, ↓reduceIte]
    constructor
    · rfl
    · rintro g ⟨⟩
      rfl
    · intro l member
      rcases List.mem_append.mp member with before | new
      · exact Nat.le_succ_of_le (sound.issued l before)
      · obtain rfl := List.mem_singleton.mp new
        exact Nat.le_refl _
    · rw [List.map_append, List.nodup_append]
      refine ⟨sound.distinct, by simp, ?_⟩
      rintro _ before _ new rfl
      obtain ⟨l, member, same⟩ := List.mem_map.mp before
      rw [List.map_singleton, List.mem_singleton] at new
      exact old l member (same.trans new)
    · intro l member
      rcases List.mem_append.mp member with before | new
      · have stopped := sound.unstopped l before
        rw [unrecorded] at stopped
        have other := old l before
        simp only [reduceCtorEq, iff_false] at stopped
        exact ⟨fun unstopped => absurd unstopped stopped,
          fun recorded => absurd (Option.some.inj recorded).symm other⟩
      · simp [List.mem_singleton.mp new]
    · rintro g ⟨⟩
      exact ⟨_, List.mem_append_right _ (List.mem_singleton_self _), rfl⟩
    · exact sound.interval

theorem stop_stopped (sound : p.Sound) : ∀ l ∈ p.stop.2.loops, l.stopSent = true := by
  intro l member
  obtain ⟨k, before, rfl⟩ := List.mem_map.mp member
  by_cases recorded : p.recorded = some k.generation
  · simp [recorded]
  · have stopped := mt (sound.unstopped k before).mp recorded
    simpa [recorded] using stopped

theorem stop_generations (p : Polling) :
    p.stop.2.loops.map Loop.generation = p.loops.map Loop.generation := by
  simp only [stop, List.map_map]
  apply List.map_congr_left
  intro l _
  by_cases recorded : p.recorded = some l.generation <;> simp [recorded]

theorem Sound.stop (sound : p.Sound) : p.stop.2.Sound where
  running := rfl
  latest := nofun
  issued l member := by
    have known : l.generation ∈ p.loops.map Loop.generation := by
      rw [← stop_generations]
      exact List.mem_map_of_mem member
    obtain ⟨k, before, same⟩ := List.mem_map.mp known
    rw [← same]
    exact sound.issued k before
  distinct := by
    rw [stop_generations]
    exact sound.distinct
  unstopped l member := by simp [stop_stopped sound l member, Polling.stop]
  lives := nofun
  interval := sound.interval

theorem mem_leave {g : Nat} {l : Loop} :
    l ∈ (p.leave g).loops ↔ l ∈ p.loops ∧ l.generation ≠ g := by
  unfold leave
  split <;> simp

theorem leave_other {g : Nat} (other : p.recorded ≠ some g) :
    (p.leave g).running = p.running ∧ (p.leave g).recorded = p.recorded ∧
      (p.leave g).generation = p.generation ∧ (p.leave g).interval = p.interval := by
  simp [leave, other]

theorem leave_loops (p : Polling) (g : Nat) :
    (p.leave g).loops = p.loops.filter fun l => l.generation ≠ g := by
  unfold leave
  split <;> rfl

theorem Sound.leave (sound : p.Sound) (g : Nat) : (p.leave g).Sound := by
  have distinct : ((p.leave g).loops.map Loop.generation).Nodup := by
    rw [leave_loops]
    exact (List.filter_sublist.map _).nodup sound.distinct
  by_cases mine : p.recorded = some g
  · -- The recorded loop leaves, and nothing is recorded after it.
    refine ⟨by simp [Polling.leave, mine], by simp [Polling.leave, mine], ?_, distinct, ?_,
      by simp [Polling.leave, mine], by simp [Polling.leave, mine, sound.interval]⟩
    · intro l member
      simpa [Polling.leave, mine] using sound.issued l (mem_leave.mp member).1
    · intro l member
      obtain ⟨before, other⟩ := mem_leave.mp member
      have stopped := sound.unstopped l before
      rw [mine, Option.some.injEq] at stopped
      have unlike : ¬ g = l.generation := fun same => other same.symm
      simpa [Polling.leave, mine, unlike] using stopped
  · -- Another leaves, so the recorded one is still there.
    obtain ⟨running, recorded, generation, interval⟩ := leave_other mine
    constructor
    · rw [running, recorded, sound.running]
    · rw [recorded, generation]
      exact sound.latest
    · intro l member
      rw [generation]
      exact sound.issued l (mem_leave.mp member).1
    · exact distinct
    · intro l member
      rw [recorded]
      exact sound.unstopped l (mem_leave.mp member).1
    · intro h here
      rw [recorded] at here
      obtain ⟨l, before, named⟩ := sound.lives h here
      refine ⟨l, mem_leave.mpr ⟨before, ?_⟩, named⟩
      rintro rfl
      exact mine (named ▸ here)
    · rw [interval]
      exact sound.interval

/-- Generations are not used again, so of the loops that were not told to stop there is one at most.
-/
theorem Sound.sole (sound : p.Sound) : (p.loops.filter fun l => !l.stopSent).length ≤ 1 := by
  have sublist : ((p.loops.filter fun l => !l.stopSent).map Loop.generation).Sublist
      (p.loops.map Loop.generation) := List.filter_sublist.map _
  have distinct := sublist.nodup sound.distinct
  have recorded : ∀ l ∈ p.loops.filter fun l => !l.stopSent, p.recorded = some l.generation := by
    intro l member
    obtain ⟨before, unstopped⟩ := List.mem_filter.mp member
    exact (sound.unstopped l before).mp (by simpa using unstopped)
  generalize p.loops.filter (fun l => !l.stopSent) = unstopped at distinct recorded ⊢
  match unstopped with
  | [] => simp
  | [_] => simp
  | k :: l :: rest =>
    have first := recorded k (by simp)
    have second := recorded l (by simp)
    have same : k.generation = l.generation := Option.some.inj (first.symm.trans second)
    simp [same] at distinct

end Polling

namespace Timeline

variable {t after : Timeline} {l : Loop}

theorem Step.sound (step : t.Step after) (sound : t.polling.Sound) : after.polling.Sound := by
  cases step with
  | start => exact sound.start
  | stop => exact sound.stop
  | setInterval interval =>
    by_cases zero : interval = 0
    · simpa [Timeline.setInterval, Polling.setInterval, zero] using sound
    · simp only [Timeline.setInterval, Polling.setInterval, zero, ↓reduceIte]
      exact sound.same rfl rfl rfl (Nat.pos_of_ne_zero zero) rfl
  | around same =>
    rw [same]
    exact sound.same rfl rfl rfl sound.interval rfl
  | loop lives goes =>
    rcases goes.polling with ⟨phase, same, -⟩ | ⟨-, same⟩
    · rw [same]
      exact sound.same rfl rfl rfl sound.interval (Polling.setPhase_tags _ _ _)
    · rw [same]
      exact sound.leave _

theorem Reaches.sound (reached : t.Reaches after) (sound : t.polling.Sound) :
    after.polling.Sound := by
  induction reached with
  | refl => exact sound
  | tail _ step ih => exact step.sound ih

/-- A loop that was told to stop is not recorded, so its steps concern nobody else. -/
theorem Goes.stopped (sound : t.polling.Sound) (lives : l ∈ t.polling.loops)
    (stopped : l.stopSent = true) (goes : t.Goes l after) :
    after.polling.running = t.polling.running ∧ after.polling.recorded = t.polling.recorded ∧
      after.polling.generation = t.polling.generation ∧
      after.polling.interval = t.polling.interval ∧
      ∀ k ∈ t.polling.loops, k.generation ≠ l.generation → k ∈ after.polling.loops := by
  rcases goes.polling with ⟨phase, same, -⟩ | ⟨-, same⟩
  · rw [same]
    refine ⟨rfl, rfl, rfl, rfl, fun k member other => ?_⟩
    exact List.mem_map.mpr ⟨k, member, by simp [other]⟩
  · have unrecorded : t.polling.recorded ≠ some l.generation := by
      intro recorded
      have unstopped := (sound.unstopped l lives).mpr recorded
      rw [stopped] at unstopped
      cases unstopped
    obtain ⟨running, recorded, generation, interval⟩ := Polling.leave_other unrecorded
    rw [same]
    exact ⟨running, recorded, generation, interval,
      fun k member other => Polling.mem_leave.mpr ⟨member, other⟩⟩

/-- How a loop comes to its end: it goes on to leave when it is told to, and is gone after that. -/
theorem Step.leaves (sound : t.polling.Sound) (step : t.Step after) (lives : l ∈ t.polling.loops) :
    l.phase = .leaving ∨
      ∃ k ∈ after.polling.loops, k.generation = l.generation ∧
        (k.phase = .leaving →
          l.phase = .leaving ∨ l.stopSent = true ∨ t.polling.shutdown.isFinal = true) := by
  have stays : l ∈ after.polling.loops → ∃ k ∈ after.polling.loops,
      k.generation = l.generation ∧ (k.phase = .leaving →
        l.phase = .leaving ∨ l.stopSent = true ∨ t.polling.shutdown.isFinal = true) :=
    fun member => ⟨l, member, rfl, .inl⟩
  cases step with
  | start =>
    have kept : l ∈ t.polling.start.2.loops := Polling.mem_start lives
    exact .inr (stays kept)
  | stop =>
    refine .inr ⟨_, List.mem_map_of_mem lives, ?_⟩
    by_cases recorded : t.polling.recorded = some l.generation
    · simp only [recorded, ↓reduceIte, true_and]
      exact .inl
    · simp only [recorded, ↓reduceIte, true_and]
      exact .inl
  | setInterval interval =>
    refine .inr (stays ?_)
    by_cases zero : interval = 0 <;>
      simpa [Timeline.setInterval, Polling.setInterval, zero] using lives
  | around same =>
    refine .inr (stays ?_)
    rw [same]
    exact lives
  | @loop k _ going goes =>
    by_cases mine : l.generation = k.generation
    · obtain rfl := List.inj_on_of_nodup_map sound.distinct lives going mine
      rcases goes.polling with ⟨phase, same, told⟩ | ⟨leaves, -⟩
      · refine .inr ⟨{ l with phase }, ?_, rfl, fun leaves => .inr (told leaves)⟩
        rw [same]
        exact List.mem_map.mpr ⟨l, lives, by simp⟩
      · exact .inl leaves
    · refine .inr (stays ?_)
      rcases goes.polling with ⟨phase, same, -⟩ | ⟨-, same⟩
      · rw [same]
        exact List.mem_map.mpr ⟨l, lives, by simp [mine]⟩
      · rw [same]
        exact Polling.mem_leave.mpr ⟨lives, mine⟩

/-- However callers, loops and the owner take turns, the recorded loop is the only one that goes on,
and it is the latest. A loop that was told to stop touches nothing but itself, and no loop leaves
unless it or the whole program was told to. -/
theorem one_loop_goes_on {first : Timeline} {interval : Nat} {shutdown : Shutdown}
    (opening : first.polling = .ofInterval interval shutdown) (reached : first.Reaches t) :
    (t.polling.running = true ↔ ∃ g, t.polling.recorded = some g) ∧
    (∀ g, t.polling.recorded = some g →
      g = t.polling.generation ∧ ∃ l ∈ t.polling.loops, l.generation = g) ∧
    (∀ l ∈ t.polling.loops, (l.stopSent = false ↔ t.polling.recorded = some l.generation)) ∧
    (t.polling.loops.filter fun l => !l.stopSent).length ≤ 1 ∧
    0 < t.polling.interval ∧
    (t.start.1 = true ↔ t.polling.running = false) ∧
    t.stop.1 = t.polling.running ∧
    (∀ l ∈ t.polling.loops, l.stopSent = true → ∀ after, t.Goes l after →
      after.polling.running = t.polling.running ∧ after.polling.recorded = t.polling.recorded ∧
      after.polling.generation = t.polling.generation ∧
      after.polling.interval = t.polling.interval ∧
      ∀ k ∈ t.polling.loops, k.generation ≠ l.generation → k ∈ after.polling.loops) ∧
    ∀ l ∈ t.polling.loops, ∀ after, t.Step after →
      l.phase = .leaving ∨
      ∃ k ∈ after.polling.loops, k.generation = l.generation ∧
        (k.phase = .leaving →
          l.phase = .leaving ∨ l.stopSent = true ∨ t.polling.shutdown.isFinal = true) := by
  have sound : t.polling.Sound := reached.sound (opening ▸ Polling.ofInterval_sound _ _)
  refine ⟨?_, fun g here => ⟨sound.latest g here, sound.lives g here⟩, sound.unstopped, sound.sole,
    sound.interval, ?_, rfl, fun l lives stopped _ goes => goes.stopped sound lives stopped,
    fun l lives _ step => step.leaves sound lives⟩
  · rw [sound.running, Option.isSome_iff_exists]
  · cases running : t.polling.running <;> simp [Timeline.start, Polling.start, running]

def silentMarket : Timeline where
  watch := { desk := (Scene.opening.desk.create { now := 0 } (.rise 1 .keepActive)).2 }
  polling := .ofInterval 10 .unattached
  market := { quote := fun _ => .error "timed out", delay := fun _ => 5 }

def restarted : Timeline := (silentMarket.start.2.settle.sleep 12).stop.2.start.2.settle

theorem restarted_keeps_its_successor :
    silentMarket.Reaches restarted ∧
      (restarted.polling.loops.map fun l => (l.generation, l.stopSent)) = [(1, true), (2, false)] ∧
      restarted.polling.recorded = some 2 ∧
      ((restarted.sleep 5).polling.loops.map Loop.generation) = [2] ∧
      ((restarted.sleep 5).polling.running = true ↔
        ∃ g, (restarted.sleep 5).polling.recorded = some g) := by
  have begun : silentMarket.Reaches silentMarket.start.2.settle := .head .start (settle_reaches _)
  have reached : silentMarket.Reaches restarted :=
    (((begun.trans (sleep_reaches _ 12)).tail .stop).tail .start).trans (settle_reaches _)
  exact ⟨reached, by decide +kernel, by decide +kernel, by decide +kernel,
    (one_loop_goes_on rfl (reached.trans (sleep_reaches _ 5))).1⟩

end Timeline

end TickerWatch
