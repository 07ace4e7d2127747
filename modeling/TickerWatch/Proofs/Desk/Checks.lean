import TickerWatch.Desk.Firing
import TickerWatch.Proofs.Store.Alerts

namespace TickerWatch

/-- Clock readings a span of 64 bits apart are subtracted exactly. -/
theorem elapsed_eq {since now : Int} (forward : since ≤ now)
    (fits : now - since ≤ Int64.maxValue.toInt) : elapsed since now = now - since := by
  have greatest : Int64.maxValue.toInt = 9223372036854775807 := rfl
  have size : Int64.size = 18446744073709551616 := rfl
  unfold elapsed
  apply Int.bmod_eq_of_le <;> omega

theorem Alert.inCooldown_false {a : Alert} {since now : Int} (last : a.lastTriggeredAt = some since)
    (forward : since ≤ now) (fits : now - since ≤ Int64.maxValue.toInt)
    (passed : a.inCooldown now = false) :
    3600 * a.cooldownHours ≤ now - since := by
  simp only [inCooldown, cooling, last, elapsed_eq forward fits, secondsPerHour,
    decide_eq_false_iff_not] at passed
  omega

namespace Desk

variable {d after : Desk} {e : Surroundings} {a : Alert} {x : Snapshot} {message : String}

theorem reading_ok {α : Type} {o : Outages} {c : Call} {held answer : α}
    (h : reading (o.guard c (.ok held)) = .ok answer) : held = answer := by
  cases guarded : o.guard c (.ok held) with
  | error reason =>
    rw [guarded] at h
    cases h
  | ok value =>
    rw [guarded] at h
    cases h
    exact Except.ok.inj (Outages.guard_ok guarded)

theorem reading_works {α : Type} {o : Outages} {c : Call} {held : α} (works : o.Works c) :
    reading (o.guard c (.ok held)) = .ok held := by
  rw [Outages.guard_answers works]
  rfl

theorem inCooldown_stored {stored : Alert} (found : d.store.find? a.id = some stored)
    (works : e.outages.Works (.inCooldown a.id)) :
    e.outages.inCooldown d.store a.id e.now = .ok (stored.inCooldown e.now) := by
  rw [Outages.inCooldown, Outages.guard_answers works, Store.inCooldown, found]

/-- The answer of the gate is the state of the stored record, were its switch that of the copy. -/
theorem gate_stored {stored : Alert} (found : d.store.find? a.id = some stored)
    (works : e.outages.Works (.inCooldown a.id)) :
    d.gate e a = .ok ({ stored with isActive := a.isActive }.state e.now) := by
  unfold gate Alert.state
  cases active : a.isActive with
  | false => rfl
  | true =>
    rw [inCooldown_stored found works]
    cases within : stored.inCooldown e.now <;>
      simp [Alert.inCooldown] at within ⊢ <;> simp [within]

theorem gate_absent (active : a.isActive = true) (absent : d.store.find? a.id = none) :
    ∃ reason, d.gate e a = .error (.repository reason) := by
  unfold gate
  simp only [active, Bool.not_true, Bool.false_eq_true, ↓reduceIte]
  cases answer : e.outages.inCooldown d.store a.id e.now with
  | error reason => exact ⟨reason, rfl⟩
  | ok within =>
    have stored := Outages.guard_ok answer
    simp [Store.inCooldown, absent] at stored

theorem gate_armed (h : d.gate e a = .ok .armed) :
    a.isActive = true ∧
      ∃ stored, d.store.find? a.id = some stored ∧ stored.inCooldown e.now = false := by
  unfold gate at h
  cases active : a.isActive with
  | false => simp [active] at h
  | true =>
    simp only [active, Bool.not_true, Bool.false_eq_true, ↓reduceIte] at h
    cases answer : e.outages.inCooldown d.store a.id e.now with
    | error reason => simp [answer] at h
    | ok within =>
      cases within with
      | true => simp [answer] at h
      | false =>
        have judged := Outages.guard_ok answer
        cases found : d.store.find? a.id with
        | none => simp [Store.inCooldown, found] at judged
        | some stored =>
          simp only [Store.inCooldown, found, Except.ok.injEq] at judged
          exact ⟨rfl, stored, rfl, judged⟩

theorem check_some {v : Verdict} :
    d.check e a x = .ok (some v) ↔ d.gate e a = .ok .armed ∧ a.rule.verdict x a.sensitivity = v := by
  unfold check
  cases d.gate e a with
  | error err => simp
  | ok state => cases state <;> simp

theorem record_store (d : Desk) (e : Surroundings) (a : Alert) (x : Snapshot) (message : String) :
    (d.record e a x message).store = d.store ∨
      (d.record e a x message).store =
        d.store.appendHistory (historyEntry d.nextId a x message e.now) := by
  unfold record newId
  dsimp only
  cases appended :
      e.outages.appendHistory d.store (historyEntry d.nextId a x message e.now) with
  | error reason => exact .inl rfl
  | ok s => exact .inr (Except.ok.inj (Outages.guard_ok appended)).symm

theorem record_alerts (d : Desk) (e : Surroundings) (a : Alert) (x : Snapshot) (message : String) :
    (d.record e a x message).store.alerts = d.store.alerts := by
  rcases record_store d e a x message with same | appended
  · rw [same]
  · rw [appended]
    rfl

@[simp] theorem record_feed : (d.record e a x message).feed = d.feed := by
  unfold record newId
  dsimp only
  split <;> rfl

@[simp] theorem record_nextId : (d.record e a x message).nextId = d.nextId.next := by
  unfold record newId
  dsimp only
  split <;> rfl

def stamping (now : Int) (a : Alert) : Alert :=
  { a with lastTriggeredAt := some now, updatedAt := now }

def resting (now : Int) (a : Alert) : Alert := { a with isActive := false, updatedAt := now }

/-- All that the second and the third write of a fire may do. -/
structure Rewrites (d : Desk) (id : RecordId) (f : Alert → Alert) (after : Desk) : Prop where
  store : after.store = d.store ∨ after.store = d.store.rewriting id f
  feed : after.feed = d.feed ∨ after.feed = d.feed.send .updated
  nextId : after.nextId = d.nextId

theorem stamp_rewrites (d : Desk) (e : Surroundings) (a : Alert) :
    d.Rewrites a.id (stamping e.now) (d.stamp e a) := by
  unfold stamp
  cases written : e.outages.stampTrigger d.store a.id e.now with
  | error reason => exact ⟨.inl rfl, .inl rfl, rfl⟩
  | ok s =>
    have answer := Outages.guard_ok written
    unfold Store.stampTrigger at answer
    split at answer
    · rename_i modified
      cases answer
      obtain ⟨-, rfl⟩ := Store.modify?_some modified
      exact ⟨.inr rfl, .inl rfl, rfl⟩
    · cases answer

theorem retire_rewrites (d : Desk) (e : Surroundings) (a : Alert) :
    d.Rewrites a.id (resting e.now) (d.retire e a) := by
  unfold retire
  split
  · cases written : e.outages.setActive d.store a.id false e.now with
    | error reason => exact ⟨.inl rfl, .inl rfl, rfl⟩
    | ok answer =>
      cases answer with
      | none => exact ⟨.inl rfl, .inl rfl, rfl⟩
      | some s =>
        obtain ⟨-, rfl⟩ := Store.modify?_some (Outages.guardWrite_some written)
        exact ⟨.inr rfl, .inr rfl, rfl⟩
  · exact ⟨.inl rfl, .inl rfl, rfl⟩

theorem Rewrites.history {id : RecordId} {f : Alert → Alert} (rewrites : d.Rewrites id f after) :
    after.store.history = d.store.history := by
  rcases rewrites.store with same | written
  · rw [same]
  · rw [written]
    rfl

theorem Rewrites.ids {id : RecordId} {f : Alert → Alert} (rewrites : d.Rewrites id f after)
    (keeps : ∀ a, (f a).id = a.id) :
    after.store.alerts.map Alert.id = d.store.alerts.map Alert.id := by
  rcases rewrites.store with same | written
  · rw [same]
  · rw [written]
    exact Store.rewriting_ids fun a same => (keeps a).trans same

theorem Rewrites.stems {id : RecordId} {f : Alert → Alert} {b : Alert}
    (rewrites : d.Rewrites id f after) (keeps : ∀ a, (f a).id = a.id)
    (member : b ∈ after.store.alerts) :
    ∃ c ∈ d.store.alerts, c.id = b.id ∧ (b = c ∨ b.id = id ∧ b = f c) := by
  rcases rewrites.store with same | written
  · exact ⟨b, same ▸ member, rfl, .inl rfl⟩
  · obtain ⟨c, before, sameId, rewritten⟩ :=
      Store.mem_rewriting (fun a same => (keeps a).trans same) (written ▸ member)
    split at rewritten
    · rename_i same
      exact ⟨c, before, sameId, .inr ⟨same, rewritten⟩⟩
    · exact ⟨c, before, sameId, .inl rewritten⟩

theorem stamp_latest (works : d.store.has a.id = true → e.outages.Works (.stampTrigger a.id)) :
    ∀ b ∈ (d.stamp e a).store.alerts, b.id = a.id → b.lastTriggeredAt = some e.now := by
  intro b member same
  cases present : d.store.has a.id with
  | true =>
    have answers : e.outages.guard (.stampTrigger a.id) (d.store.stampTrigger a.id e.now) =
        d.store.stampTrigger a.id e.now := Outages.guard_answers (works present)
    have stamped : (d.stamp e a).store = d.store.rewriting a.id (stamping e.now) := by
      unfold stamp
      rw [Outages.stampTrigger, answers]
      simp only [Store.stampTrigger, Store.modify?, present, ↓reduceIte]
      rfl
    rw [stamped] at member
    obtain ⟨c, -, -, rewritten⟩ :=
      Store.mem_rewriting (f := stamping e.now) (fun _ same => same) member
    rw [rewritten, if_pos same]
    rfl
  | false =>
    obtain ⟨c, before, sameId, -⟩ := (stamp_rewrites d e a).stems (fun _ => rfl) member
    exact absurd (sameId.trans same) (Store.has_eq_false.mp present c before)

theorem retire_off (disables : a.postTrigger.disables = true)
    (works : e.outages (.setActive a.id) = none) :
    ∀ b ∈ (d.retire e a).store.alerts, b.id = a.id → b.isActive = false := by
  intro b member same
  unfold retire at member
  rw [if_pos disables, Outages.setActive, Outages.guardWrite_answers works] at member
  cases written : d.store.setActive? a.id false e.now with
  | none =>
    rw [written] at member
    exact absurd same (Store.has_eq_false.mp (Store.modify?_none written) b member)
  | some s =>
    obtain ⟨-, rfl⟩ := Store.modify?_some written
    rw [written] at member
    obtain ⟨c, -, -, rewritten⟩ :=
      Store.mem_rewriting (f := resting e.now) (fun _ same => same) member
    rw [rewritten, if_pos same]
    rfl

end Desk

end TickerWatch
