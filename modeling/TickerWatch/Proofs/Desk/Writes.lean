import TickerWatch.Proofs.Desk.Fires

namespace TickerWatch

namespace Outages

variable (o : Outages) (c : Call)

theorem guard_isOk {α : Type} (answer : Except String α) :
    (o.guard c answer).isOk = (answer.isOk && !o.fails c) := by
  cases failing : o.fails c with
  | true =>
    obtain ⟨reason, refused⟩ := guard_fails answer failing
    simp [refused, Except.isOk, Except.toBool]
  | false => simp [guard_answers (fails_eq_false.mp failing)]

theorem guardWrite_found (answer : Option Store) :
    (o.guardWrite c answer).toOption.join.isSome = (answer.isSome && (o c).isNone) := by
  unfold guardWrite
  cases o c with
  | none => simp [Except.toOption]
  | some outage => cases outage <;> simp [Except.toOption]

end Outages

namespace Store

variable (s : Store) (id : RecordId) (f g : Alert → Alert)

theorem modify?_eq : s.modify? id f = if s.has id then some (s.rewriting id f) else none := rfl

theorem stampTrigger_isOk (now : Int) : (s.stampTrigger id now).isOk = s.has id := by
  rw [stampTrigger, modify?_eq]
  cases s.has id <;> rfl

theorem setActive?_isSome (active : Bool) (now : Int) :
    (s.setActive? id active now).isSome = s.has id := by
  rw [setActive?, modify?_eq]
  cases s.has id <;> rfl

theorem rewriting_self : s.rewriting id (fun b => b) = s := by
  simp [rewriting]

variable {f}

theorem has_rewriting (keeps : ∀ a, a.id = id → (f a).id = id) (other : RecordId) :
    (s.rewriting id f).has other = s.has other := by
  rw [has, find?_rewriting keeps, has]
  split <;> simp

theorem rewriting_rewriting (keeps : ∀ a, a.id = id → (f a).id = id) :
    (s.rewriting id f).rewriting id g = s.rewriting id (g ∘ f) := by
  simp only [rewriting, List.map_map]
  congr 1
  apply List.map_congr_left
  intro a _
  by_cases mine : a.id = id
  · simp [mine, keeps a mine]
  · simp [mine]

end Store

structure WriteAnswers where
  recorded : Bool
  stamped : Bool
  retired : Bool

def WriteAnswers.rewrites (w : WriteAnswers) (now : Int) (stored : Alert) : Alert :=
  { stored with
    lastTriggeredAt := if w.stamped then some now else stored.lastTriggeredAt
    isActive := if w.retired then false else stored.isActive
    updatedAt := if w.stamped || w.retired then now else stored.updatedAt }

namespace Desk

variable (d : Desk) (e : Surroundings) (a : Alert) (x : Snapshot) (message : String)

def answers : WriteAnswers :=
  let recorded := d.record e a x message
  let stamped := recorded.stamp e a
  { recorded := (e.outages.appendHistory d.store (historyEntry d.nextId a x message e.now)).isOk
    stamped := (e.outages.stampTrigger recorded.store a.id e.now).isOk
    retired := a.postTrigger.disables &&
      (e.outages.setActive stamped.store a.id false e.now).toOption.join.isSome }

theorem record_leaves :
    (d.record e a x message).store =
      { d.store with
        history := d.store.history ++
          if e.outages.fails (.appendHistory a.id) then []
          else [historyEntry d.nextId a x message e.now] } := by
  rw [← record_history]
  rcases record_store d e a x message with same | appended
  · rw [same]
  · rw [appended]
    rfl

theorem stamp_leaves :
    (d.stamp e a).store = d.store.rewriting a.id
      (if d.store.has a.id && !e.outages.fails (.stampTrigger a.id) then stamping e.now
        else fun b => b) := by
  cases failing : e.outages.fails (.stampTrigger a.id) with
  | true =>
    obtain ⟨reason, refused⟩ := Outages.guard_fails (d.store.stampTrigger a.id e.now) failing
    have unchanged : d.stamp e a = d := by simp only [stamp, Outages.stampTrigger, refused]
    simp [unchanged, Store.rewriting_self]
  | false =>
    rw [stamp_store failing, Store.modify?_eq]
    cases d.store.has a.id <;> simp [Store.rewriting_self]

theorem retire_leaves :
    (d.retire e a).store = d.store.rewriting a.id
        (if a.postTrigger.disables && (d.store.has a.id && (e.outages (.setActive a.id)).isNone)
          then resting e.now else fun b => b) ∧
      (d.retire e a).feed =
        if a.postTrigger.disables && (d.store.has a.id && (e.outages (.setActive a.id)).isNone)
        then d.feed.send .updated else d.feed := by
  by_cases tried : a.postTrigger.disables = true ∧ e.outages (.setActive a.id) = none
  · rw [retire_answers tried.1 tried.2, Store.modify?_eq, tried.1, tried.2]
    cases d.store.has a.id with
    | true => exact ⟨rfl, rfl⟩
    | false => simp [Store.rewriting_self]
  · have refused : (a.postTrigger.disables && (d.store.has a.id &&
        (e.outages (.setActive a.id)).isNone)) = false := by
      rw [Bool.eq_false_iff]
      intro all
      simp only [Bool.and_eq_true, Option.isNone_iff_eq_none] at all
      exact tried ⟨all.1, all.2.2⟩
    rw [retire_skips tried, refused]
    simp [Store.rewriting_self]

theorem record_has (id : RecordId) : (d.record e a x message).store.has id = d.store.has id := by
  rw [Store.has, record_find?, Store.has]

theorem stamp_has (id : RecordId) : (d.stamp e a).store.has id = d.store.has id := by
  rw [stamp_leaves]
  exact Store.has_rewriting _ _ (by split <;> exact fun _ same => same) id

theorem answers_eq :
    d.answers e a x message =
      { recorded := !e.outages.fails (.appendHistory a.id)
        stamped := d.store.has a.id && !e.outages.fails (.stampTrigger a.id)
        retired := a.postTrigger.disables &&
          (d.store.has a.id && (e.outages (.setActive a.id)).isNone) } := by
  unfold answers
  simp only [Outages.appendHistory, Outages.stampTrigger, Outages.setActive, Outages.guard_isOk,
    Outages.guardWrite_found, Store.stampTrigger_isOk, Store.setActive?_isSome, stamp_has,
    record_has]
  rfl

/-- The second and the third write together are one change of the record. -/
theorem rewrites_eq (w : WriteAnswers) (now : Int) :
    (if w.retired then resting now else fun b => b) ∘
        (if w.stamped then stamping now else fun b => b) = w.rewrites now := by
  obtain ⟨recorded, stamped, retired⟩ := w
  cases stamped <;> cases retired <;> rfl

theorem fire_leaves :
    (d.fire e a x message).2.store =
        (d.record e a x message).store.rewriting a.id
          ((d.answers e a x message).rewrites e.now) ∧
      (d.fire e a x message).2.feed =
        if (d.answers e a x message).retired then d.feed.send .updated else d.feed := by
  obtain ⟨store, feed⟩ := retire_leaves ((d.record e a x message).stamp e a) e a
  rw [stamp_has, record_has] at store feed
  rw [stamp_feed, record_feed] at feed
  rw [stamp_leaves, record_has,
    Store.rewriting_rewriting _ _ _ (by split <;> exact fun _ same => same)] at store
  rw [← rewrites_eq, answers_eq]
  exact ⟨store, feed⟩

/-- Which of the three writes go through hangs on the record being there and on their own outages.
What is left, and what is told, is then the same as if those alone had been made. -/
theorem fire_writes_stand_alone (v : Verdict) :
    let answers := d.answers e a x v.message
    let left := (d.fire e a x v.message).2
    answers =
        { recorded := !e.outages.fails (.appendHistory a.id)
          stamped := d.store.has a.id && !e.outages.fails (.stampTrigger a.id)
          retired := a.postTrigger.disables &&
            (d.store.has a.id && (e.outages (.setActive a.id)).isNone) } ∧
      (d.fire e a x v.message).1 =
        { alertId := a.id, code := a.code, name := a.name, alertType := a.alertType
          triggerPrice := x.closePrice, changePercent := x.changePercent
          message := v.message, triggeredAt := e.now
          enableSound := a.enableSound, enableDesktop := a.enableDesktop } ∧
      left.store =
        { alerts := d.store.alerts.map fun b => if b.id = a.id then answers.rewrites e.now b else b
          history := d.store.history ++
            if answers.recorded then
              [{ id := d.nextId, alertId := a.id, code := a.code, name := a.name
                 alertType := a.alertType, triggerPrice := x.closePrice
                 message := v.message, triggeredAt := e.now }]
            else []
          templates := d.store.templates } ∧
      left.feed = if answers.retired then d.feed.send .updated else d.feed := by
  intro answers left
  obtain ⟨store, feed⟩ := d.fire_leaves e a x v.message
  have equal := d.answers_eq e a x v.message
  refine ⟨equal, rfl, ?_, feed⟩
  have recorded : answers.recorded = !e.outages.fails (.appendHistory a.id) :=
    congrArg WriteAnswers.recorded equal
  rw [store, record_leaves, recorded]
  cases e.outages.fails (.appendHistory a.id) <;> rfl

end Desk

end TickerWatch
