import TickerWatch.Proofs.Monitor.Outcomes
import TickerWatch.Proofs.Monitor.Scene

namespace TickerWatch

inductive CheckStep where
  | looks (copy : Alert) (x : Snapshot) (e : Surroundings)
  | fires (i : Nat) (e : Surroundings)

def CheckStep.now : CheckStep → Int
  | looks _ _ e => e.now
  | fires _ e => e.now

def CheckStep.Written : CheckStep → Prop
  | looks _ _ _ => True
  | fires _ e => ∀ id, e.outages (.appendHistory id) = none ∧ e.outages (.stampTrigger id) = none ∧
      e.outages (.setActive id) = none

structure Standing where
  looked : Nat
  firing : Firing

structure Shot where
  looked : Nat
  fired : Nat
  entry : HistoryEntry

def Shot.notice (s : Shot) : RecordId × Int := (s.entry.alertId, s.entry.triggeredAt)

/-- Of one alert, a check that has looked after a fire keeps the stored window from it. -/
def Shot.Apart (s : Store) (first second : Shot) : Prop :=
  first.entry.alertId = second.entry.alertId → first.fired < second.looked →
    ∃ stored, s.find? second.entry.alertId = some stored ∧
      3600 * stored.cooldownHours ≤ second.entry.triggeredAt - first.entry.triggeredAt

structure Overlap where
  watch : Watch
  standing : List Standing := []
  shots : List Shot := []
  steps : Nat := 0

theorem elapsed_le {since now : Int} (forward : since ≤ now) : elapsed since now ≤ now - since := by
  have size : Int64.size = 18446744073709551616 := rfl
  rw [elapsed, size, Int.bmod_def]
  split <;> omega

/-- A window of no length lets everything through, and any other only what is past it. -/
theorem Alert.inCooldown_past {a : Alert} {since now : Int} (last : a.lastTriggeredAt = some since)
    (forward : since ≤ now) (passed : a.inCooldown now = false) :
    3600 * a.cooldownHours ≤ now - since := by
  have least := elapsed_le forward
  rw [inCooldown, last] at passed
  have late : ¬ elapsed since now < a.cooldownHours * 3600 := of_decide_eq_false passed
  omega

theorem Watch.process_judgeCopy (w : Watch) (e : Surroundings) (a : Alert) (x : Snapshot) :
    (w.process e a x).2 = match w.judgeCopy e a x with
      | some f => w.firing e f.copy f.snapshot f.message
      | none => w := by
  rw [process_eq, judgeCopy]
  cases w.desk.check e a x with
  | error err => rfl
  | ok verdict =>
    cases verdict with
    | none => rfl
    | some v => cases fires : v.fired <;> simp [fires]

namespace Overlap

abbrev store (o : Overlap) : Store := o.watch.desk.store

def notices (o : Overlap) : List (RecordId × Int) :=
  o.watch.desk.feed.notifications.map fun n => (n.alertId, n.triggeredAt)

def step (o : Overlap) : CheckStep → Overlap
  | .looks copy x e =>
    { o with
      standing := o.standing ++ ((o.watch.judgeCopy e copy x).map fun f => ⟨o.steps, f⟩).toList
      steps := o.steps + 1 }
  | .fires i e =>
    match o.standing[i]? with
    | none => { o with steps := o.steps + 1 }
    | some ⟨looked, f⟩ =>
      { watch := o.watch.firing e f.copy f.snapshot f.message
        standing := o.standing.eraseIdx i
        shots := o.shots ++ [{
          looked
          fired := o.steps
          entry := Desk.historyEntry o.watch.desk.nextId f.copy f.snapshot f.message e.now }]
        steps := o.steps + 1 }

def run (o : Overlap) (steps : List CheckStep) : Overlap := steps.foldl step o

/-- With nothing in between, the two steps are the check of an alert. -/
theorem run_check (w : Watch) (e : Surroundings) (a : Alert) (x : Snapshot) :
    (run { watch := w } [.looks a x e, .fires 0 e]).watch = (w.process e a x).2 := by
  rw [Watch.process_judgeCopy]
  simp only [run, List.foldl_cons, List.foldl_nil, step, List.nil_append]
  cases w.judgeCopy e a x <;> rfl

section

variable {w : Watch} {i : Nat} {e : Surroundings} {f : Firing} {id : RecordId}
  {stored : Alert}

theorem rests_stamping (e : Surroundings) (a b : Alert) :
    (Desk.rests e a (Desk.stamping e.now b)).lastTriggeredAt = some e.now ∧
      (Desk.rests e a (Desk.stamping e.now b)).cooldownHours = b.cooldownHours := by
  unfold Desk.rests
  split <;> exact ⟨rfl, rfl⟩

theorem firing_find? (written : (CheckStep.fires i e).Written) (id : RecordId) :
    (w.firing e f.copy f.snapshot f.message).desk.store.find? id =
      if id = f.copy.id then
        (w.desk.store.find? id).map fun b => Desk.rests e f.copy (Desk.stamping e.now b)
      else w.desk.store.find? id := by
  have stamped : Desk.stamps e f.copy = Desk.stamping e.now := by
    funext b
    simp [Desk.stamps, Outages.fails, (written f.copy.id).2.1]
  have found := w.desk.fire_find? e f.copy f.snapshot f.message id
  rw [stamped] at found
  exact found

theorem firing_history (written : (CheckStep.fires i e).Written) :
    (w.firing e f.copy f.snapshot f.message).desk.store.history = w.desk.store.history ++
      [Desk.historyEntry w.desk.nextId f.copy f.snapshot f.message e.now] := by
  have appended : e.outages.fails (.appendHistory f.copy.id) = false := by
    simp [Outages.fails, (written f.copy.id).1]
  have grown := w.desk.fire_history e f.copy f.snapshot f.message
  rw [appended] at grown
  exact grown

theorem firing_window (written : (CheckStep.fires i e).Written) (id : RecordId) :
    ((w.firing e f.copy f.snapshot f.message).desk.store.find? id).map Alert.cooldownHours =
      (w.desk.store.find? id).map Alert.cooldownHours := by
  rw [firing_find? written]
  split
  · rw [Option.map_map]
    congr 1
    funext b
    exact (rests_stamping e f.copy b).2
  · rfl

theorem firing_stamps (written : (CheckStep.fires i e).Written)
    (holds : (w.firing e f.copy f.snapshot f.message).desk.store.find? id = some stored) :
    (id = f.copy.id ∧ stored.lastTriggeredAt = some e.now ∧
      ∃ before, w.desk.store.find? id = some before) ∨
    (id ≠ f.copy.id ∧ w.desk.store.find? id = some stored) := by
  rw [firing_find? written] at holds
  split at holds
  · rename_i mine
    obtain ⟨before, found, rfl⟩ := Option.map_eq_some_iff.mp holds
    exact .inl ⟨mine, (rests_stamping e f.copy before).1, before, found⟩
  · rename_i other
    exact .inr ⟨other, holds⟩

end

structure Logged (o : Overlap) (shots : List Shot) (after : Overlap) : Prop where
  log : after.shots = o.shots ++ shots
  history : after.store.history = o.store.history ++ shots.map Shot.entry
  told : after.notices = o.notices ++ shots.map Shot.notice

theorem Logged.quiet {o after : Overlap} (watch : after.watch = o.watch)
    (shots : after.shots = o.shots) : o.Logged [] after := by
  constructor <;> simp [store, notices, watch, shots]

theorem Logged.trans {o mid after : Overlap} {shots more : List Shot} (first : o.Logged shots mid)
    (second : mid.Logged more after) : o.Logged (shots ++ more) after where
  log := by rw [second.log, first.log, List.append_assoc]
  history := by rw [second.history, first.history, List.map_append, List.append_assoc]
  told := by rw [second.told, first.told, List.map_append, List.append_assoc]

theorem step_logged (o : Overlap) {s : CheckStep} (written : s.Written) :
    ∃ shots, o.Logged shots (o.step s) := by
  cases s with
  | looks copy x e => exact ⟨[], .quiet rfl rfl⟩
  | fires i e =>
    cases found : o.standing[i]? with
    | none =>
      simp only [step, found]
      exact ⟨[], .quiet rfl rfl⟩
    | some k =>
      obtain ⟨looked, f⟩ := k
      have grown := firing_history (w := o.watch) (f := f) written
      have told := o.watch.firing_notifications e f.copy f.snapshot f.message
      simp only [step, found]
      refine ⟨_, rfl, grown, ?_⟩
      rw [notices, told, List.map_append]
      rfl

theorem run_logged (o : Overlap) {steps : List CheckStep} (written : ∀ s ∈ steps, s.Written) :
    ∃ shots, o.Logged shots (o.run steps) := by
  induction steps generalizing o with
  | nil => exact ⟨[], .quiet rfl rfl⟩
  | cons s steps ih =>
    obtain ⟨shots, first⟩ := o.step_logged (written s List.mem_cons_self)
    obtain ⟨more, rest⟩ := ih (o.step s) fun s member => written s (List.mem_cons_of_mem _ member)
    exact ⟨shots ++ more, first.trans rest⟩

structure Covered (first : Store) (o : Overlap) (ahead : List Int) : Prop where
  placed : ∀ s ∈ o.shots, s.fired < o.steps
  stamped : ∀ s ∈ o.shots, ∀ stored, o.store.find? s.entry.alertId = some stored →
    ∃ since, stored.lastTriggeredAt = some since ∧ s.entry.triggeredAt ≤ since ∧
      ∀ u ∈ ahead, since ≤ u
  apart : o.shots.Pairwise (Shot.Apart first)

/-- What is known between two steps. Every check that is to fire keeps the window from the fires
before its look. -/
structure Kept (first : Store) (o : Overlap) (ahead : List Int) : Prop
    extends Covered first o ahead where
  windows : ∀ id, (o.store.find? id).map Alert.cooldownHours =
    (first.find? id).map Alert.cooldownHours
  due : ∀ k ∈ o.standing, ∃ stored, first.find? k.firing.copy.id = some stored ∧
    ∀ s ∈ o.shots, s.entry.alertId = k.firing.copy.id → s.fired < k.looked →
      ∀ u ∈ ahead, 3600 * stored.cooldownHours ≤ u - s.entry.triggeredAt
  looked : ∀ k ∈ o.standing, k.looked < o.steps

namespace Kept

variable {first : Store} {o : Overlap} {ahead : List Int}

theorem idle {e : Int} (kept : Kept first o (e :: ahead)) :
    Kept first { o with steps := o.steps + 1 } ahead where
  placed s member := Nat.lt_succ_of_lt (kept.placed s member)
  stamped s member stored found := by
    obtain ⟨since, last, later, past⟩ := kept.stamped s member stored found
    exact ⟨since, last, later, fun u more => past u (List.mem_cons_of_mem _ more)⟩
  apart := kept.apart
  windows := kept.windows
  due k member := by
    obtain ⟨stored, found, due⟩ := kept.due k member
    exact ⟨stored, found, fun s shot same before u more =>
      due s shot same before u (List.mem_cons_of_mem _ more)⟩
  looked k member := Nat.lt_succ_of_lt (kept.looked k member)

theorem looks {copy : Alert} {x : Snapshot} {e : Surroundings}
    (kept : Kept first o (e.now :: ahead)) (forward : ∀ u ∈ ahead, e.now ≤ u) :
    Kept first (o.step (.looks copy x e)) ahead := by
  have rest := kept.idle
  refine ⟨⟨rest.placed, rest.stamped, rest.apart⟩, rest.windows, fun k member => ?_,
    fun k member => ?_⟩
  · rcases List.mem_append.mp member with before | new
    · exact rest.due k before
    · -- The gate has compared the time with the stamp that is stored now.
      obtain ⟨f, judged, rfl⟩ := Option.map_eq_some_iff.mp (Option.mem_toList.mp new)
      obtain ⟨rfl, -, -, stored, found, -, passed⟩ := Watch.judgeCopy_some judged
      obtain ⟨held, foundFirst, window⟩ : ∃ held, first.find? f.copy.id = some held ∧
          held.cooldownHours = stored.cooldownHours := by
        have same := kept.windows f.copy.id
        rw [found, Option.map_some, eq_comm, Option.map_eq_some_iff] at same
        exact same
      refine ⟨held, foundFirst, fun s shot same _ u more => ?_⟩
      obtain ⟨since, last, later, past⟩ := kept.stamped s shot stored (by rw [same]; exact found)
      have spaced := Alert.inCooldown_past last (past e.now List.mem_cons_self) passed
      have onward := forward u more
      omega
  · rcases List.mem_append.mp member with before | new
    · exact rest.looked k before
    · obtain ⟨f, -, rfl⟩ := Option.map_eq_some_iff.mp (Option.mem_toList.mp new)
      exact Nat.lt_succ_self _

theorem fires {i : Nat} {e : Surroundings} (kept : Kept first o (e.now :: ahead))
    (forward : ∀ u ∈ ahead, e.now ≤ u) (written : (CheckStep.fires i e).Written) :
    Kept first (o.step (.fires i e)) ahead := by
  have rest := kept.idle
  cases found : o.standing[i]? with
  | none =>
    simp only [step, found]
    exact rest
  | some k =>
    obtain ⟨looked, f⟩ := k
    obtain ⟨held, foundFirst, due⟩ := kept.due _ (List.mem_of_getElem? found)
    simp only [step, found]
    refine ⟨⟨fun s shot => ?_, fun s shot stored holds => ?_, ?_⟩, fun id => ?_,
      fun k member => ?_, fun k member => rest.looked k (List.mem_of_mem_eraseIdx member)⟩
    · rcases List.mem_append.mp shot with before | new
      · exact rest.placed s before
      · rw [List.mem_singleton.mp new]
        exact Nat.lt_succ_self _
    · -- The stamp of this fire is the latest, also for the earlier fires of its alert.
      rcases firing_stamps written holds with ⟨-, last, b, before⟩ | ⟨other, holds⟩
      · refine ⟨e.now, last, ?_, forward⟩
        rcases List.mem_append.mp shot with earlier | new
        · obtain ⟨since, -, later, past⟩ := kept.stamped s earlier b before
          exact Int.le_trans later (past e.now List.mem_cons_self)
        · rw [List.mem_singleton.mp new]
          exact Int.le_refl _
      · rcases List.mem_append.mp shot with earlier | new
        · exact rest.stamped s earlier stored holds
        · rw [List.mem_singleton.mp new] at other
          exact absurd rfl other
    · refine List.pairwise_append.mpr ⟨kept.apart, List.pairwise_singleton _ _, ?_⟩
      intro s earlier new member same before
      rw [List.mem_singleton.mp member] at same before ⊢
      exact ⟨held, foundFirst, due s earlier same before e.now List.mem_cons_self⟩
    · exact (firing_window written id).trans (kept.windows id)
    · obtain ⟨stored, known, spaced⟩ := rest.due k (List.mem_of_mem_eraseIdx member)
      refine ⟨stored, known, fun s shot same before u more => ?_⟩
      rcases List.mem_append.mp shot with earlier | new
      · exact spaced s earlier same before u more
      · -- This fire comes after every look so far.
        have past := kept.looked k (List.mem_of_mem_eraseIdx member)
        rw [List.mem_singleton.mp new] at before
        exact absurd past (Nat.lt_asymm before)

theorem step {s : CheckStep} (kept : Kept first o (s.now :: ahead))
    (forward : ∀ u ∈ ahead, s.now ≤ u) (written : s.Written) : Kept first (o.step s) ahead := by
  cases s with
  | looks copy x e => exact kept.looks forward
  | fires i e => exact kept.fires forward written

theorem run {steps : List CheckStep} (kept : Kept first o (steps.map CheckStep.now))
    (forward : (steps.map CheckStep.now).Pairwise (· ≤ ·)) (written : ∀ s ∈ steps, s.Written) :
    Kept first (o.run steps) [] := by
  induction steps generalizing o with
  | nil => exact kept
  | cons s steps ih =>
    obtain ⟨later, rest⟩ := List.pairwise_cons.mp forward
    have next := kept.step later (written s List.mem_cons_self)
    exact ih next rest fun s member => written s (List.mem_cons_of_mem _ member)

end Kept

/-- However the looks and the fires of any number of checks interleave, every fire writes one entry
and is told once, and two entries of one alert are the stored window apart if the look for the later
one came after the fire of the earlier one. Entries from before the checks began count among them,
as far as the stored records know of their fires. -/
theorem looks_after_fires_keep_the_window (o : Overlap) (steps : List CheckStep)
    (idle : o.standing = []) (covered : Covered o.store o (steps.map CheckStep.now))
    (forward : (steps.map CheckStep.now).Pairwise (· ≤ ·)) (written : ∀ s ∈ steps, s.Written) :
    ∃ shots, o.Logged shots (o.run steps) ∧ (o.shots ++ shots).Pairwise (Shot.Apart o.store) := by
  have kept : Kept o.store o (steps.map CheckStep.now) := by
    refine ⟨covered, fun _ => rfl, ?_, ?_⟩ <;> simp [idle]
  obtain ⟨shots, logged⟩ := o.run_logged written
  have apart := (kept.run forward written).apart
  rw [logged.log] at apart
  exact ⟨shots, logged, apart⟩

def steadyRise : Alert := { Timeline.riser 1 "600519" 0 with postTrigger := .keepActive }

def riseWatch : Watch where
  desk := { store := { alerts := [steadyRise] }, feed := { capacity := 16 }, nextId := ⟨2⟩ }

def bothLook : List CheckStep :=
  [.looks steadyRise { changePercent := 6.2 } { now := 10 },
    .looks steadyRise { changePercent := 6.2 } { now := 10 }, .fires 0 { now := 10 },
    .fires 0 { now := 10 }]

def fourLooks : List CheckStep :=
  bothLook ++
    [.looks steadyRise { changePercent := 6.2 } { now := 3609 },
      .looks steadyRise { changePercent := 6.2 } { now := 3610 }, .fires 0 { now := 3611 }]

theorem bothLook_proper :
    (bothLook.map CheckStep.now).Pairwise (· ≤ ·) ∧ ∀ s ∈ bothLook, s.Written := by
  constructor
  · simp [bothLook, CheckStep.now]
  · simp [bothLook, CheckStep.Written, Outages.none]

theorem overlapping_looks_fire_twice :
    ¬ ∀ (w : Watch) (steps : List CheckStep), w.desk.store.history = [] →
      (∀ a ∈ w.desk.store.alerts, 1 ≤ a.cooldownHours) →
      (steps.map CheckStep.now).Pairwise (· ≤ ·) → (∀ s ∈ steps, s.Written) →
      (run { watch := w } steps).store.history.Pairwise fun h k =>
        h.alertId = k.alertId → ∀ a ∈ w.desk.store.alerts, a.id = k.alertId →
          3600 * a.cooldownHours ≤ k.triggeredAt - h.triggeredAt := by
  intro apart
  obtain ⟨forward, written⟩ := bothLook_proper
  have twice := apart riseWatch bothLook rfl (by decide) forward written
  have entries : (run { watch := riseWatch } bothLook).store.history.map
      (fun h => (h.alertId, h.triggeredAt)) = [(⟨1⟩, 10), (⟨1⟩, 10)] := by decide +kernel
  generalize (run { watch := riseWatch } bothLook).store.history = history at twice entries
  obtain ⟨h, rest, rfl, first, entries⟩ := List.map_eq_cons_iff.mp entries
  obtain ⟨k, last, rfl, second, -⟩ := List.map_eq_cons_iff.mp entries
  obtain ⟨firstId, early⟩ := Prod.mk.inj first
  obtain ⟨secondId, late⟩ := Prod.mk.inj second
  have spaced := List.rel_of_pairwise_cons twice List.mem_cons_self (firstId.trans secondId.symm)
    steadyRise List.mem_cons_self secondId.symm
  rw [early, late] at spaced
  exact absurd spaced (by decide)

theorem four_looks_keep_the_window :
    ∃ shots, Logged { watch := riseWatch } shots (run { watch := riseWatch } fourLooks) ∧
      (run { watch := riseWatch } fourLooks).shots.map
        (fun s => (s.looked, s.fired, s.entry.triggeredAt)) =
          [(0, 2, 10), (1, 3, 10), (5, 6, 3611)] ∧
      ([] ++ shots).Pairwise (Shot.Apart riseWatch.desk.store) := by
  have forward : (fourLooks.map CheckStep.now).Pairwise (· ≤ ·) := by
    simp [fourLooks, bothLook, CheckStep.now]
  have written : ∀ s ∈ fourLooks, s.Written := by
    simp [fourLooks, bothLook, CheckStep.Written, Outages.none]
  have covered : Covered riseWatch.desk.store { watch := riseWatch }
      (fourLooks.map CheckStep.now) := by
    constructor <;> simp
  obtain ⟨shots, logged, apart⟩ :=
    looks_after_fires_keep_the_window { watch := riseWatch } fourLooks rfl covered forward written
  exact ⟨shots, logged, by decide +kernel, apart⟩

end Overlap

end TickerWatch
