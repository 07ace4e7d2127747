import TickerWatch.Monitor.Pass
import TickerWatch.Proofs.Desk.Checks
import TickerWatch.Proofs.Desk.Requests

namespace TickerWatch

inductive Stage where
  | passed
  | recorded (now : Int)
  | stamped (now : Int)
  | retired (now : Int)
  deriving DecidableEq

/-- A copy on its way from the gate to its notification. `stored` is what the store held under its
identifier when the gate let it through. -/
structure Firing where
  copy : Alert
  snapshot : Snapshot
  message : String
  stored : Option Alert
  stage : Stage := .passed

/-- The next step of a fire. The first of them reads the clock and appends the entry in one act, so
that nothing comes between the two; the writes after it keep the time that was read. -/
def Firing.advance (f : Firing) (w : Watch) (e : Surroundings) : Option Firing × Watch :=
  match f.stage with
  | .passed =>
    (some { f with stage := .recorded e.now },
      { w with desk := w.desk.record e f.copy f.snapshot f.message })
  | .recorded now =>
    (some { f with stage := .stamped now }, { w with desk := w.desk.stamp { e with now } f.copy })
  | .stamped now =>
    (some { f with stage := .retired now }, { w with desk := w.desk.retire { e with now } f.copy })
  | .retired now => (none, w.dispatch (Desk.notification f.copy f.snapshot f.message now))

theorem Firing.advance_copy {f g : Firing} {w : Watch} {e : Surroundings}
    (next : (f.advance w e).1 = some g) : g.copy = f.copy := by
  unfold advance at next
  cases stage : f.stage <;> simp only [stage] at next <;> cases next <;> rfl

theorem Firing.advance_ids (f : Firing) (w : Watch) (e : Surroundings) :
    (f.advance w e).2.desk.store.alerts.map Alert.id = w.desk.store.alerts.map Alert.id := by
  cases stage : f.stage with
  | passed =>
    simp only [advance, stage]
    rw [Desk.record_alerts]
  | recorded now =>
    simp only [advance, stage]
    exact (Desk.stamp_rewrites _ _ _).ids fun _ => rfl
  | stamped now =>
    simp only [advance, stage]
    exact (Desk.retire_rewrites _ _ _).ids fun _ => rfl
  | retired now => simp only [advance, stage, Watch.dispatch, Desk.send]

theorem Firing.advance_nextId (f : Firing) (w : Watch) (e : Surroundings) :
    w.desk.nextId.number ≤ (f.advance w e).2.desk.nextId.number := by
  cases stage : f.stage with
  | passed => simp [advance, stage, RecordId.next]
  | recorded now => simp [advance, stage, (Desk.stamp_rewrites _ _ _).nextId]
  | stamped now => simp [advance, stage, (Desk.retire_rewrites _ _ _).nextId]
  | retired now => simp [advance, stage, Watch.dispatch, Desk.send]

theorem Firing.advance_active {f : Firing} {w : Watch} {e : Surroundings} {b : Alert}
    (member : b ∈ (f.advance w e).2.desk.store.alerts) (active : b.isActive = true) :
    ∃ a ∈ w.desk.store.alerts, a.id = b.id ∧ a.isActive = true := by
  cases stage : f.stage with
  | passed =>
    simp only [advance, stage, Desk.record_alerts] at member
    exact ⟨b, member, rfl, active⟩
  | recorded now =>
    simp only [advance, stage] at member
    obtain ⟨a, before, same, rfl | ⟨-, rfl⟩⟩ :=
      (Desk.stamp_rewrites _ _ _).stems (fun _ => rfl) member
    · exact ⟨_, before, rfl, active⟩
    · exact ⟨a, before, rfl, active⟩
  | stamped now =>
    simp only [advance, stage] at member
    obtain ⟨a, before, same, rfl | ⟨-, rfl⟩⟩ :=
      (Desk.retire_rewrites _ _ _).stems (fun _ => rfl) member
    · exact ⟨_, before, rfl, active⟩
    · cases active
  | retired now =>
    simp only [advance, stage] at member
    exact ⟨b, member, rfl, active⟩

def Watch.judgeCopy (w : Watch) (e : Surroundings) (copy : Alert) (x : Snapshot) : Option Firing :=
  match w.desk.check e copy x with
  | .ok (some v) =>
    if v.fired then
      some { copy, snapshot := x, message := v.message, stored := w.desk.store.find? copy.id }
    else none
  | _ => none

theorem Watch.judgeCopy_some {w : Watch} {e : Surroundings} {copy : Alert} {x : Snapshot}
    {f : Firing} (h : w.judgeCopy e copy x = some f) :
    f.copy = copy ∧ f.stage = .passed ∧ copy.isActive = true ∧
      ∃ stored, w.desk.store.find? copy.id = some stored ∧ f.stored = some stored ∧
        stored.inCooldown e.now = false := by
  unfold judgeCopy at h
  split at h
  · rename_i v checked
    split at h
    · obtain ⟨active, stored, found, passed⟩ := Desk.gate_armed (Desk.check_some.mp checked).1
      cases h
      exact ⟨rfl, rfl, active, stored, found, found, passed⟩
    · cases h
  · cases h

structure Scene where
  watch : Watch
  copies : List Alert := []
  firings : List Firing := []

/-- What may happen next, in any order. A request is one act, and so is every write of a fire. A
copy whose stock could not be looked up is judged without a snapshot, which passes it over. -/
inductive Act where
  | request (e : Surroundings) (r : Request)
  | tick (e : Surroundings)
  | check (e : Surroundings) (code : String)
  | judge (i : Nat) (snapshot : Option Snapshot) (e : Surroundings)
  | advance (i : Nat) (e : Surroundings)

def Definition.rise (cooldownHours : Int) (postTrigger : PostTrigger) : Definition where
  code := "600519"
  name := "rise"
  alertType := "price"
  conditions :=
    "\x7b\"conditions\":[\x7b\"field\":\"price_change_percent\",\"operator\":\">\",\"value\":5\x7d]\x7d"
  cooldownHours := cooldownHours
  postTrigger := postTrigger.name

namespace Scene

abbrev desk (s : Scene) : Desk := s.watch.desk

abbrev store (s : Scene) : Store := s.watch.desk.store

def enlist (s : Scene) : Except AlertError Pass → Scene
  | .error _ => s
  | .ok p => { s with copies := s.copies ++ p.alerts }

def step (s : Scene) : Act → Scene
  | .request e r => { s with watch := { s.watch with desk := (s.desk.serve e r).2 } }
  | .tick e => s.enlist (s.watch.beginTick e)
  | .check e code => s.enlist (s.watch.beginCheck e code)
  | .judge i snapshot e =>
    match s.copies[i]? with
    | none => s
    | some copy =>
      { s with
        copies := s.copies.eraseIdx i
        firings := s.firings ++ (snapshot.bind (s.watch.judgeCopy e copy)).toList }
  | .advance i e =>
    match s.firings[i]? with
    | none => s
    | some f =>
      let (next, watch) := f.advance s.watch e
      { s with
        watch
        firings := match next with
          | some f => s.firings.set i f
          | none => s.firings.eraseIdx i }

def run (s : Scene) : List Act → Scene
  | [] => s
  | act :: acts => (s.step act).run acts

def Along (P : Scene → Act → Prop) (s : Scene) : List Act → Prop
  | [] => True
  | act :: acts => P s act ∧ (s.step act).Along P acts

instance decidableAlong {P : Scene → Act → Prop} [∀ s act, Decidable (P s act)] (s : Scene) :
    ∀ acts, Decidable (s.Along P acts)
  | [] => .isTrue trivial
  | act :: acts =>
    have := decidableAlong (P := P) (s.step act) acts
    inferInstanceAs (Decidable (P s act ∧ (s.step act).Along P acts))

/-- No copy passes the gate before the one before it has come to its notification. -/
def Alone (s : Scene) : Act → Prop
  | .judge _ _ _ => s.firings = []
  | _ => True

instance (s : Scene) : ∀ act, Decidable (s.Alone act)
  | .judge _ _ _ => decidable_of_iff (s.firings.isEmpty = true) List.isEmpty_iff
  | .request _ _ => .isTrue trivial
  | .tick _ => .isTrue trivial
  | .check _ _ => .isTrue trivial
  | .advance _ _ => .isTrue trivial

def opening : Scene where
  watch := { desk := { store := {}, feed := { capacity := 16 }, nextId := ⟨1⟩ } }

variable {s : Scene} {P : Scene → Act → Prop}

@[simp] theorem enlist_watch (s : Scene) (listing : Except AlertError Pass) :
    (s.enlist listing).watch = s.watch := by
  cases listing <;> rfl

theorem enlist_lists {answer : Except AlertError (List Alert)}
    (lists : ∀ listing, answer = .ok listing → s.store.Lists listing) :
    ∃ listing, s.store.Lists listing ∧
      s.enlist (answer.map .ofAlerts) = { s with copies := s.copies ++ listing } := by
  cases answer with
  | error err => exact ⟨[], s.store.lists_nil, by simp [enlist, Except.map]⟩
  | ok listing => exact ⟨listing, lists listing rfl, rfl⟩

theorem tick_lists (s : Scene) (e : Surroundings) :
    ∃ listing, s.store.Lists listing ∧
      s.step (.tick e) = { s with copies := s.copies ++ listing } := by
  apply enlist_lists
  intro listing answer
  rw [← Desk.reading_ok answer]
  exact s.store.lists_active

theorem check_lists (s : Scene) (e : Surroundings) (code : String) :
    ∃ listing, s.store.Lists listing ∧
      s.step (.check e code) = { s with copies := s.copies ++ listing } := by
  apply enlist_lists
  intro listing answer
  rw [← Desk.reading_ok answer]
  exact s.store.lists_activeOf _

theorem step_advance {i : Nat} {e : Surroundings} {f : Firing} (found : s.firings[i]? = some f) :
    (s.step (.advance i e)).watch = (f.advance s.watch e).2 := by
  simp only [step, found]

theorem advance_sole {f : Firing} {e : Surroundings} (only : s.firings = [f]) :
    s.step (.advance 0 e) = { s with
      watch := (f.advance s.watch e).2
      firings := (f.advance s.watch e).1.toList } := by
  have found : s.firings[0]? = some f := by simp [only]
  simp only [step, found]
  cases (f.advance s.watch e).1 <;> simp [only]

theorem sole {i : Nat} {f : Firing} (single : s.firings.length ≤ 1)
    (found : s.firings[i]? = some f) : s.firings = [f] ∧ i = 0 := by
  obtain ⟨bound, reached⟩ := List.getElem?_eq_some_iff.mp found
  obtain ⟨g, only⟩ := List.length_eq_one_iff.mp (show s.firings.length = 1 by omega)
  have first : i = 0 := by omega
  subst i
  simp only [only, List.getElem_cons_zero] at reached
  exact ⟨by rw [only, reached], rfl⟩

theorem step_history (s : Scene) (act : Act) (elsewhere : ∀ i e, act ≠ .advance i e) :
    (s.step act).store.history = s.store.history := by
  cases act with
  | request e r => exact (Desk.serve_frame s.desk e r).1
  | tick e => simp [step, store]
  | check e code => simp [step, store]
  | judge i snapshot e => cases found : s.copies[i]? <;> simp [step, found]
  | advance i e => exact absurd rfl (elsewhere i e)

theorem firings_advance {i : Nat} {e : Surroundings} {g : Firing}
    (member : g ∈ (s.step (.advance i e)).firings) : ∃ f ∈ s.firings, g.copy = f.copy := by
  cases found : s.firings[i]? with
  | none =>
    simp only [step, found] at member
    exact ⟨g, member, rfl⟩
  | some f =>
    have among : f ∈ s.firings := List.mem_of_getElem? found
    simp only [step, found] at member
    cases next : (f.advance s.watch e).1 with
    | none =>
      simp only [next] at member
      exact ⟨g, List.mem_of_mem_eraseIdx member, rfl⟩
    | some moved =>
      simp only [next] at member
      rcases List.mem_or_eq_of_mem_set member with other | rfl
      · exact ⟨g, other, rfl⟩
      · exact ⟨f, among, Firing.advance_copy next⟩

/-- Only the first step of a fire adds to the history, an entry at most. -/
theorem advance_history {i : Nat} {f : Firing} (e : Surroundings)
    (found : s.firings[i]? = some f) :
    (s.step (.advance i e)).store.history = s.store.history ∨
      f.stage = .passed ∧ (s.step (.advance i e)).store.history = s.store.history ++
        [Desk.historyEntry s.desk.nextId f.copy f.snapshot f.message e.now] := by
  simp only [store, step_advance found]
  cases stage : f.stage with
  | passed =>
    simp only [Firing.advance, stage]
    rcases Desk.record_store s.desk e f.copy f.snapshot f.message with same | appended
    · exact .inl (by rw [same])
    · exact .inr ⟨trivial, by rw [appended]; rfl⟩
  | recorded now =>
    simp only [Firing.advance, stage]
    exact .inl (Desk.stamp_rewrites _ _ _).history
  | stamped now =>
    simp only [Firing.advance, stage]
    exact .inl (Desk.retire_rewrites _ _ _).history
  | retired now => exact .inl (by simp [Firing.advance, stage, Watch.dispatch, Desk.send])

theorem history_grows (s : Scene) (act : Act) :
    ∃ entries, (s.step act).store.history = s.store.history ++ entries := by
  by_cases advances : ∃ i e, act = .advance i e
  · obtain ⟨i, e, rfl⟩ := advances
    cases found : s.firings[i]? with
    | none => exact ⟨[], by simp [step, found]⟩
    | some f =>
      rcases advance_history e found with same | ⟨-, grown⟩
      · exact ⟨[], by simp [same]⟩
      · exact ⟨_, grown⟩
  · refine ⟨[], ?_⟩
    rw [s.step_history act fun i e here => advances ⟨i, e, here⟩, List.append_nil]

theorem run_append (s : Scene) (before after : List Act) :
    s.run (before ++ after) = (s.run before).run after := by
  induction before generalizing s with
  | nil => rfl
  | cons act acts ih => exact ih (s.step act)

theorem along_append (before after : List Act) :
    s.Along P (before ++ after) ↔ s.Along P before ∧ (s.run before).Along P after := by
  induction before generalizing s with
  | nil => simp [Along, run]
  | cons act acts ih => simp only [List.cons_append, Along, run, ih, and_assoc]

theorem Along.keeps {Inv : Scene → Prop} {acts : List Act} (holds : s.Along P acts)
    (keeps : ∀ s act, P s act → Inv s → Inv (s.step act)) (inv : Inv s) : Inv (s.run acts) := by
  induction acts generalizing s with
  | nil => exact inv
  | cons act acts ih => exact ih holds.2 (keeps s act holds.1 inv)

def fire (e : Surroundings) : List Act := List.replicate 4 (.advance 0 e)

def turn (i : Nat) (snapshot : Option Snapshot) (gate e : Surroundings) : List Act :=
  .judge i snapshot gate :: fire e

theorem run_fire {w : Watch} {copies : List Alert} {f : Firing} (e : Surroundings)
    (stage : f.stage = .passed) :
    run ⟨w, copies, [f]⟩ (fire e) =
      let (n, desk) := w.desk.fire e f.copy f.snapshot f.message
      ⟨{ w with desk := desk }.dispatch n, copies, []⟩ := by
  cases f
  cases stage
  rfl

theorem run_turn (w : Watch) (copies : List Alert) (e : Surroundings) (a : Alert) (x : Snapshot) :
    run ⟨w, a :: copies, []⟩ (turn 0 (some x) e e) = ⟨(w.process e a x).2, copies, []⟩ := by
  have judged : run ⟨w, a :: copies, []⟩ (turn 0 (some x) e e) =
      run ⟨w, copies, (w.judgeCopy e a x).toList⟩ (fire e) := rfl
  rw [judged]
  unfold Watch.process Watch.judgeCopy
  cases w.desk.check e a x with
  | error err => rfl
  | ok verdict =>
    cases verdict with
    | none => rfl
    | some v =>
      cases fires : v.fired with
      | false =>
        simp only [fires]
        rfl
      | true =>
        simp only [fires, ↓reduceIte, Option.toList_some]
        exact run_fire e rfl

/-- The acts of a check that nothing comes in between are the check. -/
theorem run_judge (w : Watch) (e : Surroundings) (p : Pass) :
    run ⟨w, p.alerts, []⟩ (p.alerts.flatMap fun a => turn 0 (p.snapshot a.code) e e) =
      ⟨(w.judge e p).2, [], []⟩ := by
  show _ = Scene.mk (w.processAll e p.snapshot p.alerts).2 [] []
  generalize p.snapshot = snapshot
  induction p.alerts generalizing w with
  | nil => rfl
  | cons a as ih =>
    rw [List.flatMap_cons, run_append]
    cases seen : snapshot a.code with
    | none =>
      have passed : run ⟨w, a :: as, []⟩ (turn 0 none e e) = ⟨w, as, []⟩ := rfl
      rw [passed, ih w, Watch.processAll, seen]
    | some x =>
      rw [run_turn, ih (w.process e a x).2, Watch.processAll, seen]

end Scene

end TickerWatch
