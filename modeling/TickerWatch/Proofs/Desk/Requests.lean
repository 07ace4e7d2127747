import TickerWatch.Desk.Definitions
import TickerWatch.Proofs.Store.Alerts

namespace TickerWatch

inductive Request where
  | create (input : Definition)
  | update (id : RecordId) (input : Definition)
  | delete (id : RecordId)
  | toggle (id : RecordId)
  | instantiate (template code name : String) (params : Params)

inductive Receipt where
  | stored (a : Alert)
  | removed (id : RecordId)

def Receipt.id : Receipt → RecordId
  | stored a => a.id
  | removed id => id

def Receipt.alert? : Receipt → Option Alert
  | stored a => some a
  | removed _ => none

def Request.target? : Request → Option RecordId
  | update id _ => some id
  | delete id => some id
  | toggle id => some id
  | _ => none

def Request.Defines (s : Store) (input : Definition) : Request → Prop
  | create given => given = input
  | instantiate template code name params =>
    ∃ t, s.findTemplate? template = some t ∧ t.define code name params = .ok input
  | _ => False

namespace Desk

def handing {α : Type} (receipt : α → Receipt) (o : Outcome α) : Outcome Receipt :=
  (o.1.map receipt, o.2)

def serve (d : Desk) (e : Surroundings) : Request → Outcome Receipt
  | .create input => handing .stored (d.create e input)
  | .update id input => handing .stored (d.update e id input)
  | .delete id => handing (fun _ => .removed id) (d.delete e id)
  | .toggle id => handing .stored (d.toggle e id)
  | .instantiate template code name params =>
    handing .stored (d.instantiate e template code name params)

inductive Served (d : Desk) (e : Surroundings) : Request → Receipt → Desk → Prop
  | defined {r : Request} {input : Definition} {c : Checked}
      (defines : r.Defines d.store input) (checked : input.check = .ok c)
      (fresh : d.store.find? d.nextId = none) :
      Served d e r (.stored (.define d.nextId input c e.now))
        (d.newId.2.commit (d.store.adding (.define d.nextId input c e.now)))
  | redefined {id : RecordId} {input : Definition} {c : Checked} {a : Alert}
      (checked : input.check = .ok c) (found : d.store.find? id = some a) :
      Served d e (.update id input) (.stored (a.redefine input c e.now))
        (d.commit (d.store.rewriting id fun _ => a.redefine input c e.now))
  | switched {id : RecordId} {a : Alert} (found : d.store.find? id = some a) :
      Served d e (.toggle id) (.stored { a with isActive := !a.isActive, updatedAt := e.now })
        (d.commit (d.store.rewriting id fun b =>
          { b with isActive := !a.isActive, updatedAt := e.now }))
  | removed {id : RecordId} (present : d.store.has id = true) :
      Served d e (.delete id) (.removed id) (d.commit (d.store.without id))

/-- A request that fails may use up an identifier, and leaves no other trace. -/
def Untouched (d after : Desk) : Prop := after = d ∨ after = d.newId.2

inductive Settles (d : Desk) (e : Surroundings) (r : Request) : Outcome Receipt → Prop
  | done {receipt : Receipt} {after : Desk} (served : d.Served e r receipt after) :
      Settles d e r (.ok receipt, after)
  | failed {err : AlertError} {after : Desk} (untouched : d.Untouched after) :
      Settles d e r (.error err, after)

variable {d after : Desk} {e : Surroundings} {r : Request} {receipt : Receipt}

@[simp] theorem commit_store (d : Desk) (s : Store) : (d.commit s).store = s := rfl
@[simp] theorem commit_feed (d : Desk) (s : Store) : (d.commit s).feed = d.feed.send .updated := rfl
@[simp] theorem commit_nextId (d : Desk) (s : Store) : (d.commit s).nextId = d.nextId := rfl
@[simp] theorem newId_store (d : Desk) : d.newId.2.store = d.store := rfl
@[simp] theorem newId_feed (d : Desk) : d.newId.2.feed = d.feed := rfl
@[simp] theorem newId_nextId (d : Desk) : d.newId.2.nextId = d.nextId.next := rfl

theorem get_ok {id : RecordId} {a : Alert} (h : d.get e id = .ok a) :
    d.store.find? id = some a := by
  unfold get at h
  split at h
  · cases h
  · cases h
  · rename_i found
    cases h
    exact Except.ok.inj (Outages.guard_ok found)

theorem create_settles {input : Definition} (defines : r.Defines d.store input) :
    d.Settles e r (handing .stored (d.create e input)) := by
  unfold create
  cases checked : input.check with
  | error flaw => exact .failed (.inl rfl)
  | ok c =>
    dsimp only [newId]
    cases inserted : e.outages.insert d.store (.define d.nextId input c e.now) with
    | error reason => exact .failed (.inr rfl)
    | ok s =>
      obtain ⟨fresh, rfl⟩ := Store.insert_ok (Outages.guard_ok inserted)
      exact .done (.defined defines checked fresh)

theorem update_settles (id : RecordId) (input : Definition) :
    d.Settles e (.update id input) (handing .stored (d.update e id input)) := by
  unfold update
  cases checked : input.check with
  | error flaw => exact .failed (.inl rfl)
  | ok c =>
    dsimp only
    cases read : d.get e id with
    | error err => exact .failed (.inl rfl)
    | ok a =>
      have found := get_ok read
      obtain rfl := Store.id_of_find? found
      dsimp only [write]
      cases written : e.outages.update d.store (a.redefine input c e.now) with
      | error reason => exact .failed (.inl rfl)
      | ok answer =>
        cases answer with
        | none => exact .failed (.inl rfl)
        | some s =>
          obtain ⟨-, rfl⟩ := Store.modify?_some (Outages.guardWrite_some written)
          exact .done (.redefined checked found)

theorem delete_settles (id : RecordId) :
    d.Settles e (.delete id) (handing (fun _ => .removed id) (d.delete e id)) := by
  unfold delete
  cases written : e.outages.delete d.store id with
  | error reason => exact .failed (.inl rfl)
  | ok answer =>
    cases answer with
    | none => exact .failed (.inl rfl)
    | some s =>
      obtain ⟨present, rfl⟩ := Store.erase?_some (Except.ok.inj (Outages.guard_ok written))
      exact .done (.removed present)

theorem toggle_settles (id : RecordId) :
    d.Settles e (.toggle id) (handing .stored (d.toggle e id)) := by
  unfold toggle
  cases read : d.get e id with
  | error err => exact .failed (.inl rfl)
  | ok a =>
    have found := get_ok read
    obtain rfl := Store.id_of_find? found
    dsimp only [flip]
    cases written : e.outages.setActive d.store a.id (!a.isActive) e.now with
    | error reason => exact .failed (.inl rfl)
    | ok answer =>
      cases answer with
      | none => exact .failed (.inl rfl)
      | some s =>
        obtain ⟨-, rfl⟩ := Store.modify?_some (Outages.guardWrite_some written)
        exact .done (.switched found)

theorem instantiate_settles (template code name : String) (params : Params) :
    d.Settles e (.instantiate template code name params)
      (handing .stored (d.instantiate e template code name params)) := by
  unfold instantiate
  cases read : e.outages.findTemplate d.store template with
  | error reason => exact .failed (.inl rfl)
  | ok answer =>
    cases answer with
    | none => exact .failed (.inl rfl)
    | some t =>
      dsimp only
      cases made : t.define code name params with
      | error flaw => exact .failed (.inl rfl)
      | ok input =>
        have found := Except.ok.inj (Outages.guard_ok read)
        exact create_settles ⟨t, found, made⟩

theorem serve_settles (d : Desk) (e : Surroundings) (r : Request) :
    d.Settles e r (d.serve e r) := by
  cases r with
  | create input => exact create_settles (r := .create input) rfl
  | update id input => exact update_settles id input
  | delete id => exact delete_settles id
  | toggle id => exact toggle_settles id
  | instantiate template code name params => exact instantiate_settles template code name params

theorem Served.find? (served : d.Served e r receipt after) (id : RecordId) :
    after.store.find? id = if id = receipt.id then receipt.alert? else d.store.find? id := by
  cases served with
  | defined defines checked fresh => exact Store.find?_adding fresh id
  | @redefined _ input c a checked found =>
    obtain rfl := Store.id_of_find? found
    rw [commit_store, Store.find?_rewriting fun _ _ => by rfl]
    by_cases same : id = a.id
    · subst id
      simp [found, Receipt.id, Receipt.alert?, Alert.redefine]
    · simp [same, Receipt.id, Alert.redefine]
  | @switched _ a found =>
    obtain rfl := Store.id_of_find? found
    rw [commit_store, Store.find?_rewriting fun _ same => by exact same]
    by_cases same : id = a.id
    · subst id
      simp [found, Receipt.id, Receipt.alert?]
    · simp [same, Receipt.id]
  | removed present => exact Store.find?_without id

theorem Served.frame (served : d.Served e r receipt after) :
    after.store.history = d.store.history ∧ after.store.templates = d.store.templates := by
  cases served <;> exact ⟨rfl, rfl⟩

theorem Served.announced (served : d.Served e r receipt after) :
    after.feed = d.feed.send .updated := by
  cases served <;> rfl

theorem Served.target (served : d.Served e r receipt after) :
    ∀ id ∈ r.target?, receipt.id = id := by
  intro id named
  cases served with
  | defined defines checked fresh => cases r <;> cases named <;> cases defines
  | @redefined _ _ _ a checked found =>
    have same : a.id = id := Store.id_of_find? (by cases named; exact found)
    exact same
  | @switched _ a found =>
    have same : a.id = id := Store.id_of_find? (by cases named; exact found)
    exact same
  | removed present => cases named; rfl

theorem Untouched.frame (untouched : d.Untouched after) :
    after.store = d.store ∧ after.feed = d.feed := by
  rcases untouched with rfl | rfl <;> exact ⟨rfl, rfl⟩

theorem serve_frame (d : Desk) (e : Surroundings) (r : Request) :
    (d.serve e r).2.store.history = d.store.history ∧
      ((d.serve e r).2.feed = d.feed ∨ (d.serve e r).2.feed = d.feed.send .updated) ∧
      d.nextId.number ≤ (d.serve e r).2.nextId.number := by
  have settles := serve_settles d e r
  generalize d.serve e r = outcome at settles ⊢
  cases settles with
  | failed untouched => rcases untouched with rfl | rfl <;> simp [RecordId.next]
  | done served => cases served <;> simp [RecordId.next]

def Switches (d : Desk) (e : Surroundings) (r : Request) (id : RecordId) : Prop :=
  r = .toggle id ∧ ∃ receipt, (d.serve e r).1 = .ok receipt

theorem serve_stems (d : Desk) (e : Surroundings) (r : Request) {b : Alert}
    (member : b ∈ (d.serve e r).2.store.alerts) :
    (b.id = d.nextId ∧ (d.serve e r).2.nextId = d.nextId.next ∧ b.lastTriggeredAt = none) ∨
      ∃ a ∈ d.store.alerts, a.id = b.id ∧ b.lastTriggeredAt = a.lastTriggeredAt ∧
        (b.isActive = a.isActive ∨ d.Switches e r b.id) := by
  have settles := serve_settles d e r
  unfold Switches
  generalize d.serve e r = outcome at settles member ⊢
  cases settles with
  | failed untouched =>
    rw [untouched.frame.1] at member
    exact .inr ⟨b, member, rfl, rfl, .inl rfl⟩
  | done served =>
    cases served with
    | defined defines checked fresh =>
      rcases List.mem_append.mp member with before | new
      · exact .inr ⟨b, before, rfl, rfl, .inl rfl⟩
      · cases List.mem_singleton.mp new
        exact .inl ⟨rfl, rfl, rfl⟩
    | @redefined _ input c a checked found =>
      obtain rfl := Store.id_of_find? found
      obtain ⟨a', before, sameId, rewritten⟩ := Store.mem_rewriting (fun _ _ => by rfl) member
      split at rewritten
      · subst b
        exact .inr ⟨a, Store.mem_of_find? found, rfl, rfl, .inl rfl⟩
      · subst b
        exact .inr ⟨a', before, rfl, rfl, .inl rfl⟩
    | @switched id a found =>
      obtain ⟨a', before, sameId, rewritten⟩ :=
        Store.mem_rewriting (fun _ same => by exact same) member
      refine .inr ⟨a', before, sameId, ?_⟩
      split at rewritten
      · rename_i named
        exact ⟨by rw [rewritten], .inr ⟨by rw [named], _, rfl⟩⟩
      · exact ⟨by rw [rewritten], .inl (by rw [rewritten])⟩
    | removed present => exact .inr ⟨b, (Store.mem_without.mp member).1, rfl, rfl, .inl rfl⟩

theorem serve_distinct (d : Desk) (e : Surroundings) (r : Request)
    (distinct : (d.store.alerts.map Alert.id).Nodup) :
    ((d.serve e r).2.store.alerts.map Alert.id).Nodup := by
  have settles := serve_settles d e r
  generalize d.serve e r = outcome at settles ⊢
  cases settles with
  | failed untouched =>
    rw [untouched.frame.1]
    exact distinct
  | done served =>
    cases served with
    | defined defines checked fresh => exact Store.distinct_adding distinct fresh
    | redefined checked found =>
      obtain rfl := Store.id_of_find? found
      exact Store.distinct_rewriting distinct fun _ _ => rfl
    | switched found => exact Store.distinct_rewriting distinct fun _ same => same
    | removed present => exact Store.distinct_without distinct _

structure Orderly (d : Desk) : Prop where
  distinct : (d.store.alerts.map Alert.id).Nodup
  issued : ∀ a ∈ d.store.alerts, a.id.number < d.nextId.number

theorem Orderly.kept (orderly : d.Orderly)
    (same : after.store.alerts.map Alert.id = d.store.alerts.map Alert.id)
    (next : d.nextId.number ≤ after.nextId.number) : after.Orderly where
  distinct := same ▸ orderly.distinct
  issued b member := by
    have known : b.id ∈ after.store.alerts.map Alert.id := List.mem_map_of_mem member
    rw [same] at known
    obtain ⟨a, before, sameId⟩ := List.mem_map.mp known
    have issued := orderly.issued a before
    rw [sameId] at issued
    omega

theorem Orderly.serve (orderly : d.Orderly) (e : Surroundings) (r : Request) :
    (d.serve e r).2.Orderly := by
  have settles := serve_settles d e r
  generalize d.serve e r = outcome at settles ⊢
  cases settles with
  | failed untouched =>
    rcases untouched with rfl | rfl
    · exact orderly
    · exact orderly.kept rfl (Nat.le_succ _)
  | done served =>
    cases served with
    | @defined _ input c defines checked fresh =>
      constructor
      · exact Store.distinct_adding orderly.distinct fresh
      · intro a member
        show a.id.number < d.nextId.number + 1
        rcases List.mem_append.mp member with before | new
        · exact Nat.lt_succ_of_lt (orderly.issued a before)
        · rw [List.mem_singleton.mp new]
          exact Nat.lt_succ_self _
    | @redefined _ input c a checked found =>
      obtain rfl := Store.id_of_find? found
      exact orderly.kept (Store.rewriting_ids fun _ _ => rfl) (Nat.le_refl _)
    | switched found =>
      exact orderly.kept (Store.rewriting_ids fun _ same => same) (Nat.le_refl _)
    | removed present =>
      constructor
      · exact Store.distinct_without orderly.distinct _
      · intro a member
        exact orderly.issued a (Store.mem_without.mp member).1

/-- Every request takes effect as a whole or not at all. What it hands back is what the store then
holds under that identifier, nothing else in the store differs, and one event tells of it. -/
theorem request_whole_or_void (d : Desk) (e : Surroundings) (r : Request) :
    match d.serve e r with
    | (.ok receipt, after) =>
      (∀ id ∈ r.target?, receipt.id = id) ∧
      after.store.find? receipt.id = receipt.alert? ∧
      (∀ id, id ≠ receipt.id → after.store.find? id = d.store.find? id) ∧
      after.store.history = d.store.history ∧
      after.store.templates = d.store.templates ∧
      after.feed = d.feed.send .updated
    | (.error _, after) => after.store = d.store ∧ after.feed = d.feed := by
  have settles := serve_settles d e r
  generalize d.serve e r = outcome at settles ⊢
  cases settles with
  | failed untouched => exact untouched.frame
  | @done receipt after served =>
    have held := served.find? receipt.id
    have others : ∀ id, id ≠ receipt.id → after.store.find? id = d.store.find? id := by
      intro id other
      rw [served.find?, if_neg other]
    rw [if_pos rfl] at held
    exact ⟨served.target, held, others, served.frame.1, served.frame.2, served.announced⟩

end Desk

end TickerWatch
