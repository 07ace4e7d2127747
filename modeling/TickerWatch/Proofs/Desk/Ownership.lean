import TickerWatch.Proofs.Desk.Fires
import TickerWatch.Proofs.Desk.Requests

namespace TickerWatch

structure Alert.SameDefinition (a b : Alert) : Prop where
  code : b.code = a.code
  name : b.name = a.name
  alertType : b.alertType = a.alertType
  rule : b.rule = a.rule
  sensitivity : b.sensitivity = a.sensitivity
  cooldownHours : b.cooldownHours = a.cooldownHours
  postTrigger : b.postTrigger = a.postTrigger
  enableSound : b.enableSound = a.enableSound
  enableDesktop : b.enableDesktop = a.enableDesktop

theorem Alert.SameDefinition.of_lifecycle (a : Alert) (isActive : Bool)
    (lastTriggeredAt : Option Int) (updatedAt : Int) :
    a.SameDefinition { a with isActive, lastTriggeredAt, updatedAt } :=
  ⟨rfl, rfl, rfl, rfl, rfl, rfl, rfl, rfl, rfl⟩

theorem Alert.SameDefinition.trans {a b c : Alert} (first : a.SameDefinition b)
    (second : b.SameDefinition c) : a.SameDefinition c where
  code := second.code.trans first.code
  name := second.name.trans first.name
  alertType := second.alertType.trans first.alertType
  rule := second.rule.trans first.rule
  sensitivity := second.sensitivity.trans first.sensitivity
  cooldownHours := second.cooldownHours.trans first.cooldownHours
  postTrigger := second.postTrigger.trans first.postTrigger
  enableSound := second.enableSound.trans first.enableSound
  enableDesktop := second.enableDesktop.trans first.enableDesktop

structure Fire where
  copy : Alert
  snapshot : Snapshot
  message : String
  e : Surroundings

namespace Fire

def notification (f : Fire) : Notification := Desk.notification f.copy f.snapshot f.message f.e.now

def records (f : Fire) : Bool := !f.e.outages.fails (.appendHistory f.copy.id)

def Wrote (f : Fire) (h : HistoryEntry) : Prop :=
  h = Desk.historyEntry h.id f.copy f.snapshot f.message f.e.now

def leaves (f : Fire) (id : RecordId) (stored : Alert) : Alert :=
  if id = f.copy.id then Desk.rests f.e f.copy (Desk.stamps f.e f.copy stored) else stored

def leaveAll (fires : List Fire) (id : RecordId) (stored : Alert) : Alert :=
  fires.foldl (fun b f => f.leaves id b) stored

end Fire

/-- Which changes of a record are due to what was asked for, and to which of the fires. -/
structure Alert.Owned (asked : Option Request) (fires : List Fire) (a b : Alert) : Prop where
  id : b.id = a.id
  createdAt : b.createdAt = a.createdAt
  definition : a.SameDefinition b ∨ ∃ input, asked = some (.update a.id input)
  stamp : b.lastTriggeredAt = a.lastTriggeredAt ∨
    ∃ f ∈ fires, f.copy.id = a.id ∧ b.lastTriggeredAt = some f.e.now
  switch : b.isActive = a.isActive ∨
    (asked = some (.toggle a.id) ∧ b.isActive = !a.isActive) ∨
    ∃ f ∈ fires, f.copy.id = a.id ∧ f.copy.postTrigger.disables = true ∧ b.isActive = false

namespace Alert.Owned

variable {asked : Option Request} {fires more : List Fire} {a b c : Alert}

theorem refl (asked : Option Request) (fires : List Fire) (a : Alert) : Owned asked fires a a :=
  ⟨rfl, rfl, .inl (.of_lifecycle a _ _ _), .inl rfl, .inl rfl⟩

theorem mono (owned : Owned asked fires a b) (fewer : fires ⊆ more) : Owned asked more a b where
  id := owned.id
  createdAt := owned.createdAt
  definition := owned.definition
  stamp := owned.stamp.imp_right fun ⟨f, member, owns⟩ => ⟨f, fewer member, owns⟩
  switch := owned.switch.imp_right fun owner =>
    owner.imp_right fun ⟨f, member, owns⟩ => ⟨f, fewer member, owns⟩

/-- The last of the changes that a field has seen is the one that owns it. -/
theorem trans (first : Owned none fires a b) (second : Owned none fires b c) :
    Owned none fires a c where
  id := second.id.trans first.id
  createdAt := second.createdAt.trans first.createdAt
  definition := by
    rcases first.definition with same | ⟨input, asked⟩
    · rcases second.definition with still | ⟨input, asked⟩
      · exact .inl (same.trans still)
      · cases asked
    · cases asked
  stamp := by
    rcases second.stamp with still | ⟨f, member, mine, stamped⟩
    · rw [still]
      exact first.stamp
    · exact .inr ⟨f, member, mine.trans first.id, stamped⟩
  switch := by
    rcases second.switch with still | ⟨asked, -⟩ | ⟨f, member, mine, off⟩
    · rw [still]
      refine first.switch.imp_right fun owner => owner.imp_left ?_
      rintro ⟨asked, -⟩
      cases asked
    · cases asked
    · exact .inr (.inr ⟨f, member, mine.trans first.id, off⟩)

end Alert.Owned

namespace Fire

variable {f : Fire} {fires : List Fire} {id : RecordId}

end Fire

namespace Desk

variable {d mid after : Desk} {e : Surroundings} {r : Request} {receipt : Receipt}
  {fires later : List Fire}

/-- What fires leave behind, one after another, when nothing else happens. -/
structure Undergoes (d : Desk) (fires : List Fire) (after : Desk) : Prop where
  stored : ∀ id, after.store.find? id = (d.store.find? id).map (Fire.leaveAll fires id)
  entered : ∃ entries, after.store.history = d.store.history ++ entries ∧
    List.Forall₂ Fire.Wrote (fires.filter Fire.records) entries

theorem Undergoes.none (d : Desk) : d.Undergoes [] d where
  stored id := by
    have kept : Fire.leaveAll [] id = fun b => b := rfl
    rw [kept, Option.map_id_fun', id_eq]
  entered := ⟨[], by simp, .nil⟩

theorem Undergoes.trans (first : d.Undergoes fires mid) (second : mid.Undergoes later after) :
    d.Undergoes (fires ++ later) after where
  stored id := by
    have composed : Fire.leaveAll (fires ++ later) id =
        Fire.leaveAll later id ∘ Fire.leaveAll fires id := by
      funext b
      exact List.foldl_append
    rw [second.stored, first.stored, Option.map_map, composed]
  entered := by
    obtain ⟨entries, history, wrote⟩ := first.entered
    obtain ⟨more, grown, wroteToo⟩ := second.entered
    refine ⟨entries ++ more, ?_, ?_⟩
    · rw [grown, history, List.append_assoc]
    · rw [List.filter_append]
      exact List.rel_append wrote wroteToo

theorem fire_undergoes (d : Desk) (f : Fire) :
    d.Undergoes [f] (d.fire f.e f.copy f.snapshot f.message).2 where
  stored id := by
    rw [fire_find?]
    have single : Fire.leaveAll [f] id = f.leaves id := rfl
    rw [single]
    split
    · rename_i mine
      congr 1
      funext b
      rw [Fire.leaves, if_pos mine]
    · rename_i other
      have kept : f.leaves id = fun b => b := by
        funext b
        rw [Fire.leaves, if_neg other]
      rw [kept, Option.map_id_fun', id_eq]
  entered := by
    rw [fire_history]
    refine ⟨_, rfl, ?_⟩
    cases failing : f.e.outages.fails (.appendHistory f.copy.id) with
    | true => simp [Fire.records, failing]
    | false =>
      have wrote : f.Wrote (historyEntry d.nextId f.copy f.snapshot f.message f.e.now) := rfl
      simpa [Fire.records, failing] using wrote

theorem Undergoes.congr {other : Desk} (undergoes : d.Undergoes fires after)
    (same : other.store = after.store) : d.Undergoes fires other := by
  obtain ⟨stored, entered⟩ := undergoes
  rw [← same] at stored entered
  exact ⟨stored, entered⟩

end Desk

end TickerWatch
