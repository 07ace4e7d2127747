import Mathlib.Data.List.Nodup
import TickerWatch.Proofs.Desk.Acceptance
import TickerWatch.Proofs.Monitor.Scene

namespace TickerWatch

structure Alert.Ordered (a : Alert) : Prop where
  updated : a.createdAt ≤ a.updatedAt
  triggered : ∀ t, a.lastTriggeredAt = some t → a.createdAt ≤ t ∧ t ≤ a.updatedAt

namespace Desk

variable {d : Desk} {e : Surroundings} {a b : Alert} {now : Int}

theorem stamping_ordered (made : a.createdAt ≤ now) : (stamping now a).Ordered where
  updated := made
  triggered := by
    rintro t ⟨⟩
    exact ⟨made, Int.le_refl now⟩

theorem resting_ordered (made : a.createdAt ≤ now)
    (triggered : ∀ t, a.lastTriggeredAt = some t → a.createdAt ≤ t ∧ t ≤ now) :
    (resting now a).Ordered where
  updated := made
  triggered := triggered

/-- A record after a request is new, or the one before it with other parts that were accepted. -/
theorem serve_records (d : Desk) (e : Surroundings) (r : Request)
    (member : b ∈ (d.serve e r).2.store.alerts) :
    (b.id = d.nextId ∧ b.WellFormed ∧ b.createdAt = e.now ∧ b.updatedAt = e.now ∧
      b.lastTriggeredAt = none) ∨
    ∃ a ∈ d.store.alerts, a.id = b.id ∧ (a.WellFormed → b.WellFormed) ∧
      b.createdAt = a.createdAt ∧ b.lastTriggeredAt = a.lastTriggeredAt ∧
      (b.updatedAt = a.updatedAt ∨ b.updatedAt = e.now) := by
  have settles := serve_settles d e r
  generalize d.serve e r = outcome at settles member
  cases settles with
  | failed untouched =>
    rw [untouched.frame.1] at member
    exact .inr ⟨b, member, rfl, id, rfl, rfl, .inl rfl⟩
  | done served =>
    cases served with
    | @defined _ input c defines checked fresh =>
      rcases List.mem_append.mp member with before | new
      · exact .inr ⟨b, before, rfl, id, rfl, rfl, .inl rfl⟩
      · cases List.mem_singleton.mp new
        have accepted : (Alert.define d.nextId input c e.now).WellFormed :=
          Definition.check_acceptable checked
        exact .inl ⟨rfl, accepted, rfl, rfl, rfl⟩
    | @redefined _ input c a checked found =>
      obtain rfl := Store.id_of_find? found
      have accepted : (a.redefine input c e.now).WellFormed :=
        Definition.check_acceptable checked
      obtain ⟨a', before, sameId, rewritten⟩ := Store.mem_rewriting (fun _ _ => by rfl) member
      split at rewritten
      · subst b
        exact .inr ⟨a, Store.mem_of_find? found, rfl, fun _ => accepted, rfl, rfl, .inr rfl⟩
      · subst b
        exact .inr ⟨a', before, rfl, id, rfl, rfl, .inl rfl⟩
    | @switched id a found =>
      obtain ⟨a', before, sameId, rewritten⟩ :=
        Store.mem_rewriting (fun _ same => by exact same) member
      split at rewritten
      · subst b
        exact .inr ⟨a', before, sameId, fun formed => formed, rfl, rfl, .inr rfl⟩
      · subst b
        exact .inr ⟨a', before, rfl, fun formed => formed, rfl, rfl, .inl rfl⟩
    | removed present =>
      exact .inr ⟨b, (Store.mem_without.mp member).1, rfl, id, rfl, rfl, .inl rfl⟩

theorem fire_records {copy : Alert} {x : Snapshot} {message : String}
    (member : b ∈ (d.fire e copy x message).2.store.alerts) :
    ∃ a ∈ d.store.alerts, a.id = b.id ∧
      (b = a ∨ b = stamping e.now a ∨ b = resting e.now a ∨
        b = resting e.now (stamping e.now a)) := by
  have retired := retire_rewrites ((d.record e copy x message).stamp e copy) e copy
  have stamped := stamp_rewrites (d.record e copy x message) e copy
  obtain ⟨c, before, sameId, last⟩ := retired.stems (fun _ => rfl) member
  obtain ⟨a, first, sameId', middle⟩ := stamped.stems (fun _ => rfl) before
  rw [record_alerts] at first
  refine ⟨a, first, sameId'.trans sameId, ?_⟩
  rcases last with rfl | ⟨-, rfl⟩ <;> rcases middle with rfl | ⟨-, rfl⟩ <;> simp

theorem fire_ids (d : Desk) (e : Surroundings) (copy : Alert) (x : Snapshot) (message : String) :
    (d.fire e copy x message).2.store.alerts.map Alert.id = d.store.alerts.map Alert.id := by
  have retired := retire_rewrites ((d.record e copy x message).stamp e copy) e copy
  have stamped := stamp_rewrites (d.record e copy x message) e copy
  calc (d.fire e copy x message).2.store.alerts.map Alert.id
      = ((d.record e copy x message).stamp e copy).store.alerts.map Alert.id :=
        retired.ids fun _ => rfl
    _ = (d.record e copy x message).store.alerts.map Alert.id := stamped.ids fun _ => rfl
    _ = d.store.alerts.map Alert.id := by rw [record_alerts]

theorem fire_nextId (d : Desk) (e : Surroundings) (copy : Alert) (x : Snapshot)
    (message : String) :
    d.nextId.number ≤ (d.fire e copy x message).2.nextId.number := by
  simp only [fire, (retire_rewrites _ _ _).nextId, (stamp_rewrites _ _ _).nextId, record_nextId]
  exact Nat.le_succ _

theorem Orderly.find? (orderly : d.Orderly) (member : a ∈ d.store.alerts) :
    d.store.find? a.id = some a := by
  cases found : d.store.find? a.id with
  | none => exact absurd rfl (Store.find?_eq_none.mp found a member)
  | some b =>
    have same := Store.id_of_find? found
    rw [List.inj_on_of_nodup_map orderly.distinct (Store.mem_of_find? found) member same]

end Desk

/-- A step of a fire writes to one record at most, at the time that the fire read. -/
theorem Firing.advance_records {f : Firing} {w : Watch} {e : Surroundings} {b : Alert}
    (member : b ∈ (f.advance w e).2.desk.store.alerts) :
    ∃ a ∈ w.desk.store.alerts, a.id = b.id ∧
      (b = a ∨ b.id = f.copy.id ∧ ∃ now,
        (f.stage = .recorded now ∧ b = Desk.stamping now a ∨
          f.stage = .stamped now ∧ b = Desk.resting now a)) := by
  cases stage : f.stage with
  | passed =>
    simp only [advance, stage, Desk.record_alerts] at member
    exact ⟨b, member, rfl, .inl rfl⟩
  | recorded now =>
    simp only [advance, stage] at member
    obtain ⟨a, before, same, rfl | ⟨mine, rfl⟩⟩ :=
      (Desk.stamp_rewrites _ _ _).stems (fun _ => rfl) member
    · exact ⟨_, before, rfl, .inl rfl⟩
    · exact ⟨a, before, rfl, .inr ⟨mine, now, .inl ⟨rfl, rfl⟩⟩⟩
  | stamped now =>
    simp only [advance, stage] at member
    obtain ⟨a, before, same, rfl | ⟨mine, rfl⟩⟩ :=
      (Desk.retire_rewrites _ _ _).stems (fun _ => rfl) member
    · exact ⟨_, before, rfl, .inl rfl⟩
    · exact ⟨a, before, rfl, .inr ⟨mine, now, .inr ⟨rfl, rfl⟩⟩⟩
  | retired now =>
    simp only [advance, stage] at member
    exact ⟨b, member, rfl, .inl rfl⟩

/-- What may happen to alerts: the acts of requests and checks, and fires that callers ask for
themselves, with whatever copy they hold. -/
inductive Deed where
  | act (act : Act)
  | fire (copy : Alert) (x : Snapshot) (message : String) (e : Surroundings)

def Act.now : Act → Int
  | request e _ => e.now
  | tick e => e.now
  | check e _ => e.now
  | judge _ _ e => e.now
  | advance _ e => e.now

def Deed.now : Deed → Int
  | act a => a.now
  | fire _ _ _ e => e.now

namespace Scene

def perform (s : Scene) : Deed → Scene
  | .act a => s.step a
  | .fire copy x message e =>
    { s with watch := { s.watch with desk := (s.desk.fire e copy x message).2 } }

def play (s : Scene) : List Deed → Scene
  | [] => s
  | deed :: deeds => (s.perform deed).play deeds

def Free (s : Scene) : Deed → Prop
  | .act a => s.Alone a
  | .fire _ _ _ _ => s.firings = []

def OneByOne (s : Scene) : List Deed → Prop
  | [] => True
  | deed :: deeds => s.Free deed ∧ (s.perform deed).OneByOne deeds

instance (s : Scene) : ∀ deed, Decidable (s.Free deed)
  | .act a => instDecidableAlone s a
  | .fire _ _ _ _ => decidable_of_iff (s.firings.length = 0) List.length_eq_zero_iff

instance decidableOneByOne (s : Scene) : ∀ deeds, Decidable (s.OneByOne deeds)
  | [] => .isTrue trivial
  | deed :: deeds =>
    have := decidableOneByOne (s.perform deed) deeds
    inferInstanceAs (Decidable (s.Free deed ∧ (s.perform deed).OneByOne deeds))

variable {s : Scene}

/-- Only requests and steps of fires touch the desk. -/
theorem step_watch (s : Scene) (act : Act) (request : ∀ e r, act ≠ .request e r)
    (advance : ∀ i e, act ≠ .advance i e) : (s.step act).watch = s.watch := by
  cases act with
  | request e r => exact absurd rfl (request e r)
  | tick e => exact s.enlist_watch (s.watch.beginTick e)
  | check e code => exact s.enlist_watch (s.watch.beginCheck e code)
  | judge i snapshot e =>
    simp only [step]
    split <;> rfl
  | advance i e => exact absurd rfl (advance i e)

theorem perform_cases (s : Scene) (deed : Deed) :
    (s.perform deed).watch = s.watch ∨
    (∃ e r, deed = .act (.request e r)) ∨
    (∃ i e f, deed = .act (.advance i e) ∧ s.firings[i]? = some f) ∨
    ∃ copy x message e, deed = .fire copy x message e := by
  cases deed with
  | act act =>
    cases act with
    | request e r => exact .inr (.inl ⟨e, r, rfl⟩)
    | tick e => exact .inl (s.step_watch _ nofun nofun)
    | check e code => exact .inl (s.step_watch _ nofun nofun)
    | judge i snapshot e => exact .inl (s.step_watch _ nofun nofun)
    | advance i e =>
      cases found : s.firings[i]? with
      | none => exact .inl (by simp only [perform, step, found])
      | some f => exact .inr (.inr (.inl ⟨i, e, f, rfl, found⟩))
  | fire copy x message e => exact .inr (.inr (.inr ⟨copy, x, message, e, rfl⟩))

structure Sound (s : Scene) : Prop where
  orderly : s.desk.Orderly
  formed : ∀ a ∈ s.store.alerts, a.WellFormed

namespace Sound

theorem same {after : Scene} (sound : Sound s) (watch : after.watch = s.watch) : Sound after where
  orderly := by rw [desk, watch]; exact sound.orderly
  formed := by rw [store, watch]; exact sound.formed

theorem request (sound : Sound s) (e : Surroundings) (r : Request) :
    Sound (s.step (.request e r)) where
  orderly := sound.orderly.serve e r
  formed b member := by
    rcases Desk.serve_records s.desk e r member with ⟨-, formed, -⟩ | ⟨a, before, -, keeps, -⟩
    · exact formed
    · exact keeps (sound.formed a before)

theorem advance (sound : Sound s) {i : Nat} {e : Surroundings} {f : Firing}
    (found : s.firings[i]? = some f) : Sound (s.step (.advance i e)) := by
  have moved := step_advance (e := e) found
  constructor
  · rw [desk, moved]
    exact sound.orderly.kept (f.advance_ids s.watch e) (f.advance_nextId s.watch e)
  · rw [store, moved]
    intro b member
    obtain ⟨a, before, -, rfl | ⟨-, now, ⟨-, rfl⟩ | ⟨-, rfl⟩⟩⟩ := f.advance_records member
    · exact sound.formed b before
    · exact sound.formed a before
    · exact sound.formed a before

theorem fire (sound : Sound s) (copy : Alert) (x : Snapshot) (message : String)
    (e : Surroundings) : Sound (s.perform (.fire copy x message e)) where
  orderly := by
    have ids := s.desk.fire_ids e copy x message
    have next := s.desk.fire_nextId e copy x message
    exact sound.orderly.kept ids next
  formed b member := by
    obtain ⟨a, before, -, rfl | rfl | rfl | rfl⟩ := Desk.fire_records member
    · exact sound.formed b before
    · exact sound.formed a before
    · exact sound.formed a before
    · exact sound.formed a before

theorem perform (sound : Sound s) (deed : Deed) : Sound (s.perform deed) := by
  rcases s.perform_cases deed with
    still | ⟨e, r, rfl⟩ | ⟨i, e, f, rfl, found⟩ | ⟨copy, x, message, e, rfl⟩
  · exact sound.same still
  · exact sound.request e r
  · exact sound.advance found
  · exact sound.fire copy x message e

end Sound

end Scene

/-- The stored record is no younger than the fire that is about to write to it, and neither is
anything in it. -/
def Firing.Timely (f : Firing) (s : Store) (ahead : List Int) : Prop :=
  ∀ now, f.stage = .recorded now ∨ f.stage = .stamped now →
    (∀ u ∈ ahead, now ≤ u) ∧
      ∀ a ∈ s.alerts, a.id = f.copy.id →
        a.createdAt ≤ now ∧ ∀ t, a.lastTriggeredAt = some t → t ≤ now

/-- What holds under a clock that is never set back; `ahead` holds the readings still to come. -/
structure Timely (s : Scene) (ahead : List Int) : Prop where
  ordered : ∀ a ∈ s.store.alerts, a.Ordered
  past : ∀ a ∈ s.store.alerts, ∀ u ∈ ahead, a.updatedAt ≤ u
  single : s.firings.length ≤ 1
  due : ∀ f ∈ s.firings, f.copy.id.number < s.desk.nextId.number ∧ f.Timely s.store ahead

namespace Timely

variable {s after : Scene} {ahead : List Int} {u : Int}

theorem later (timely : Timely s (u :: ahead)) : Timely s ahead where
  ordered := timely.ordered
  past a member v later := timely.past a member v (List.mem_cons_of_mem _ later)
  single := timely.single
  due f member := by
    obtain ⟨issued, due⟩ := timely.due f member
    refine ⟨issued, fun now stage => ?_⟩
    obtain ⟨forward, old⟩ := due now stage
    exact ⟨fun v later => forward v (List.mem_cons_of_mem _ later), old⟩

/-- Nothing but the time of the last change differs, except in records that are new. -/
theorem stems (timely : Timely s ahead) (next : s.desk.nextId.number ≤ after.desk.nextId.number)
    (stems : ∀ b ∈ after.store.alerts,
      (s.desk.nextId.number ≤ b.id.number ∧ b.Ordered ∧ ∀ u ∈ ahead, b.updatedAt ≤ u) ∨
      ∃ a ∈ s.store.alerts, a.id = b.id ∧ b.createdAt = a.createdAt ∧
        b.lastTriggeredAt = a.lastTriggeredAt ∧ a.updatedAt ≤ b.updatedAt ∧
        ∀ u ∈ ahead, b.updatedAt ≤ u)
    (single : after.firings.length ≤ 1)
    (firings : ∀ f ∈ after.firings, f ∈ s.firings ∨
      f.copy.id.number < after.desk.nextId.number ∧ f.stage = .passed) : Timely after ahead where
  ordered b member := by
    rcases stems b member with ⟨-, ordered, -⟩ | ⟨a, before, -, created, last, updated, -⟩
    · exact ordered
    · obtain ⟨made, triggered⟩ := timely.ordered a before
      constructor
      · omega
      · intro t stamped
        obtain ⟨first, second⟩ := triggered t (last.symm.trans stamped)
        omega
  past b member := by
    rcases stems b member with ⟨-, -, past⟩ | ⟨a, -, -, -, -, -, past⟩
    · exact past
    · exact past
  single := single
  due f member := by
    rcases firings f member with old | ⟨issued, passed⟩
    · obtain ⟨issued, due⟩ := timely.due f old
      refine ⟨by omega, fun now stage => ⟨(due now stage).1, fun b stored same => ?_⟩⟩
      rcases stems b stored with ⟨fresh, -, -⟩ | ⟨a, before, sameId, created, last, -, -⟩
      · rw [same] at fresh
        omega
      · rw [created, last]
        exact (due now stage).2 a before (sameId.trans same)
    · refine ⟨issued, fun now stage => ?_⟩
      rw [passed] at stage
      rcases stage with stage | stage <;> cases stage

theorem request {e : Surroundings} (timely : Timely s (e.now :: ahead))
    (order : ∀ u ∈ ahead, e.now ≤ u) (r : Request) : Timely (s.step (.request e r)) ahead := by
  have next := (Desk.serve_frame s.desk e r).2.2
  refine timely.later.stems next ?_ timely.single fun f member => .inl member
  intro b member
  rcases Desk.serve_records s.desk e r member with
    ⟨fresh, -, created, updated, never⟩ | ⟨a, before, same, -, created, last, updated⟩
  · refine .inl ⟨by rw [fresh], ⟨by omega, ?_⟩, by rw [updated]; exact order⟩
    intro t stamped
    rw [never] at stamped
    cases stamped
  · have past := timely.past a before
    have now := past e.now List.mem_cons_self
    refine .inr ⟨a, before, same, created, last, by omega, fun u later => ?_⟩
    rcases updated with kept | set
    · rw [kept]
      exact past u (List.mem_cons_of_mem _ later)
    · rw [set]
      exact order u later

/-- A copy that passes the gate is stored under an identifier that was issued. -/
theorem watching {act : Act} (sound : Scene.Sound s) (timely : Timely s ahead)
    (alone : s.Alone act) (request : ∀ e r, act ≠ .request e r)
    (advance : ∀ i e, act ≠ .advance i e) : Timely (s.step act) ahead := by
  have still := s.step_watch act request advance
  have same : ∀ b ∈ (s.step act).store.alerts, ∃ a ∈ s.store.alerts, a.id = b.id ∧
      b.createdAt = a.createdAt ∧ b.lastTriggeredAt = a.lastTriggeredAt ∧
      a.updatedAt ≤ b.updatedAt ∧ ∀ u ∈ ahead, b.updatedAt ≤ u := by
    intro b member
    rw [Scene.store, still] at member
    exact ⟨b, member, rfl, rfl, rfl, Int.le_refl _, timely.past b member⟩
  have next : (s.step act).desk.nextId = s.desk.nextId := by rw [Scene.desk, still]
  have firings : (s.step act).firings.length ≤ 1 ∧ ∀ f ∈ (s.step act).firings,
      f ∈ s.firings ∨ f.copy.id.number < s.desk.nextId.number ∧ f.stage = .passed := by
    cases act with
    | request e r => exact absurd rfl (request e r)
    | advance i e => exact absurd rfl (advance i e)
    | tick e =>
      obtain ⟨listing, -, listed⟩ := s.tick_lists e
      rw [listed]
      exact ⟨timely.single, fun f member => .inl member⟩
    | check e code =>
      obtain ⟨listing, -, listed⟩ := s.check_lists e code
      rw [listed]
      exact ⟨timely.single, fun f member => .inl member⟩
    | judge i snapshot e =>
      have alone : s.firings = [] := alone
      cases found : s.copies[i]? with
      | none =>
        simp only [Scene.step, found]
        exact ⟨timely.single, fun f member => .inl member⟩
      | some copy =>
        simp only [Scene.step, found, alone, List.nil_append]
        refine ⟨Option.length_toList_le, fun f member => .inr ?_⟩
        obtain ⟨x, -, judged⟩ := Option.bind_eq_some_iff.mp (Option.mem_toList.mp member)
        obtain ⟨rfl, passed, -, stored, stands, -⟩ := Watch.judgeCopy_some judged
        have issued := sound.orderly.issued stored (Store.mem_of_find? stands)
        exact ⟨Store.id_of_find? stands ▸ issued, passed⟩
  refine timely.stems (Nat.le_of_eq (by rw [next])) (fun b member => .inr (same b member))
    firings.1 ?_
  rw [next]
  exact firings.2

/-- A fire that goes on is timely from the reading of the clock on, which only its first step does.
-/
theorem due_next {e : Surroundings} {f g : Firing} (timely : Timely s (e.now :: ahead))
    (order : ∀ u ∈ ahead, e.now ≤ u) (due : f.Timely s.store ahead)
    (moved : (f.advance s.watch e).1 = some g) :
    g.Timely (f.advance s.watch e).2.desk.store ahead := by
  intro now reached
  cases stage : f.stage with
  | passed =>
    simp only [Firing.advance, stage, Option.some.injEq] at moved
    subst g
    rcases reached with reached | reached <;> cases reached
    refine ⟨order, fun a stored same => ?_⟩
    simp only [Firing.advance, stage, Desk.record_alerts] at stored
    obtain ⟨made, triggered⟩ := timely.ordered a stored
    have past := timely.past a stored e.now List.mem_cons_self
    refine ⟨by omega, fun t stamped => ?_⟩
    have bound := (triggered t stamped).2
    omega
  | recorded began =>
    simp only [Firing.advance, stage, Option.some.injEq] at moved
    subst g
    rcases reached with reached | reached <;> cases reached
    obtain ⟨forward, old⟩ := due now (.inl stage)
    refine ⟨forward, fun b stored same => ?_⟩
    simp only [Firing.advance, stage] at stored
    obtain ⟨a, before, sameId, rfl | ⟨mine, rfl⟩⟩ :=
      (Desk.stamp_rewrites _ _ _).stems (fun _ => rfl) stored
    · exact old b before same
    · refine ⟨(old a before mine).1, ?_⟩
      rintro t ⟨⟩
      exact Int.le_refl _
  | stamped began =>
    simp only [Firing.advance, stage, Option.some.injEq] at moved
    subst g
    rcases reached with reached | reached <;> cases reached
  | retired began => simp [Firing.advance, stage] at moved

theorem advance {e : Surroundings} (timely : Timely s (e.now :: ahead))
    (order : ∀ u ∈ ahead, e.now ≤ u) (i : Nat) : Timely (s.step (.advance i e)) ahead := by
  cases found : s.firings[i]? with
  | none =>
    simp only [Scene.step, found]
    exact timely.later
  | some f =>
    obtain ⟨only, rfl⟩ := Scene.sole timely.single found
    obtain ⟨issued, due⟩ := timely.later.due f (by simp [only])
    have records : ∀ b ∈ (f.advance s.watch e).2.desk.store.alerts,
        b.Ordered ∧ ∀ u ∈ ahead, b.updatedAt ≤ u := by
      intro b member
      obtain ⟨a, before, same, rfl | ⟨mine, now, ⟨stage, rfl⟩ | ⟨stage, rfl⟩⟩⟩ :=
        Firing.advance_records member
      · exact ⟨timely.ordered b before, timely.later.past b before⟩
      · obtain ⟨forward, old⟩ := due now (.inl stage)
        exact ⟨Desk.stamping_ordered (old a before mine).1, forward⟩
      · obtain ⟨forward, old⟩ := due now (.inr stage)
        obtain ⟨made, last⟩ := old a before mine
        have ordered := (timely.ordered a before).triggered
        exact ⟨Desk.resting_ordered made fun t stamped => ⟨(ordered t stamped).1, last t stamped⟩,
          forward⟩
    rw [Scene.advance_sole only]
    refine ⟨fun b member => (records b member).1, fun b member => (records b member).2,
      Option.length_toList_le, fun g member => ?_⟩
    have moved := Option.mem_toList.mp member
    refine ⟨?_, timely.due_next order due moved⟩
    rw [Firing.advance_copy moved]
    exact Nat.lt_of_lt_of_le issued (f.advance_nextId s.watch e)

theorem fire {copy : Alert} {x : Snapshot} {message : String} {e : Surroundings}
    (timely : Timely s (e.now :: ahead)) (order : ∀ u ∈ ahead, e.now ≤ u) (idle : s.firings = []) :
    Timely (s.perform (.fire copy x message e)) ahead := by
  have records : ∀ b ∈ (s.desk.fire e copy x message).2.store.alerts,
      b.Ordered ∧ ∀ u ∈ ahead, b.updatedAt ≤ u := by
    intro b member
    obtain ⟨a, before, -, written⟩ := Desk.fire_records member
    have past := timely.past a before e.now List.mem_cons_self
    obtain ⟨made, triggered⟩ := timely.ordered a before
    have now : a.createdAt ≤ e.now := by omega
    rcases written with rfl | rfl | rfl | rfl
    · exact ⟨⟨made, triggered⟩, timely.later.past b before⟩
    · exact ⟨Desk.stamping_ordered now, order⟩
    · refine ⟨Desk.resting_ordered now fun t stamped => ?_, order⟩
      obtain ⟨first, second⟩ := triggered t stamped
      omega
    · have stamped := Desk.stamping_ordered now
      exact ⟨Desk.resting_ordered now stamped.triggered, order⟩
  have none : (s.perform (.fire copy x message e)).firings = [] := idle
  refine ⟨fun b member => (records b member).1, fun b member => (records b member).2, ?_, ?_⟩
  · simp [none]
  · simp [none]

theorem perform {deed : Deed} (sound : Scene.Sound s) (timely : Timely s (deed.now :: ahead))
    (order : ∀ u ∈ ahead, deed.now ≤ u) (free : s.Free deed) :
    Timely (s.perform deed) ahead := by
  cases deed with
  | act act =>
    cases act with
    | request e r => exact timely.request order r
    | tick e =>
      have alone : s.Alone (.tick e) := free
      exact timely.later.watching sound alone nofun nofun
    | check e code =>
      have alone : s.Alone (.check e code) := free
      exact timely.later.watching sound alone nofun nofun
    | judge i snapshot e =>
      have alone : s.Alone (.judge i snapshot e) := free
      exact timely.later.watching sound alone nofun nofun
    | advance i e => exact timely.advance order i
  | fire copy x message e => exact timely.fire order free

end Timely

namespace Scene

variable {s : Scene}

theorem Sound.play (sound : Sound s) (deeds : List Deed) : Sound (s.play deeds) := by
  induction deeds generalizing s with
  | nil => exact sound
  | cons deed deeds ih => exact ih (sound.perform deed)

theorem play_timely {deeds : List Deed} (sound : Sound s)
    (timely : Timely s (deeds.map Deed.now)) (order : (deeds.map Deed.now).Pairwise (· ≤ ·))
    (oneByOne : s.OneByOne deeds) : Timely (s.play deeds) [] := by
  induction deeds generalizing s with
  | nil => exact timely
  | cons deed deeds ih =>
    obtain ⟨first, rest⟩ := List.pairwise_cons.mp order
    have next := timely.perform sound first oneByOne.1
    exact ih (sound.perform deed) next rest oneByOne.2

/-- From a store without alerts on, whatever is asked for and whatever fails, every stored alert
sits under its identifier and has passed the tests of definitions. Its times are in order if the
clock is never set back and fires come one after the other. -/
theorem stored_alerts_well_formed (s : Scene) (deeds : List Deed) (empty : s.store.alerts = [])
    (idle : s.firings = []) :
    (∀ a ∈ (s.play deeds).store.alerts,
      (s.play deeds).store.find? a.id = some a ∧ a.WellFormed) ∧
    ((deeds.map Deed.now).Pairwise (· ≤ ·) → s.OneByOne deeds →
      ∀ a ∈ (s.play deeds).store.alerts, a.createdAt ≤ a.updatedAt ∧
        ∀ t, a.lastTriggeredAt = some t → a.createdAt ≤ t ∧ t ≤ a.updatedAt) := by
  have sound : Sound s := by
    constructor
    · constructor <;> simp [empty]
    · simp [empty]
  have timely : Timely s (deeds.map Deed.now) := by
    constructor <;> simp [empty, idle]
  constructor
  · intro a member
    have after := sound.play deeds
    exact ⟨after.orderly.find? member, after.formed a member⟩
  · intro order oneByOne a member
    obtain ⟨updated, triggered⟩ := (play_timely sound timely order oneByOne).ordered a member
    exact ⟨updated, triggered⟩

def revivedRise : List Deed :=
  [.act (.request { now := 0 } (.create (.rise 2 .disable))), .act (.tick { now := 10 })] ++
    (turn 0 (some { changePercent := 6.2 }) { now := 20 } { now := 30 }).map .act ++
    [.act (.request { now := 40 } (.toggle ⟨1⟩))]

theorem revived_rise_well_formed :
    (opening.play revivedRise).store.alerts.map
        (fun a => (a.id, a.createdAt, a.lastTriggeredAt, a.updatedAt)) =
      [(⟨1⟩, 0, some 30, 40)] ∧
    (∀ a ∈ (opening.play revivedRise).store.alerts,
      (opening.play revivedRise).store.find? a.id = some a ∧ a.WellFormed) ∧
    ∀ a ∈ (opening.play revivedRise).store.alerts, a.createdAt ≤ a.updatedAt ∧
      ∀ t, a.lastTriggeredAt = some t → a.createdAt ≤ t ∧ t ≤ a.updatedAt := by
  have order : (revivedRise.map Deed.now).Pairwise (· ≤ ·) := by decide
  have oneByOne : opening.OneByOne revivedRise := by decide +kernel
  obtain ⟨formed, ordered⟩ := stored_alerts_well_formed opening revivedRise rfl rfl
  exact ⟨by decide +kernel, formed, ordered order oneByOne⟩

end Scene

end TickerWatch
