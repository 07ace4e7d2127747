import TickerWatch.Proofs.Monitor.Accounts

namespace TickerWatch

def Event.notification? : Event → Option Notification
  | triggered n => some n
  | updated => none

def Feed.notifications (f : Feed) : List Notification := f.sent.filterMap Event.notification?

@[simp] theorem Feed.notifications_updated (f : Feed) :
    (f.send .updated).notifications = f.notifications := by
  simp [notifications, send, Event.notification?]

@[simp] theorem Feed.notifications_triggered (f : Feed) (n : Notification) :
    (f.send (.triggered n)).notifications = f.notifications ++ [n] := by
  simp [notifications, send, Event.notification?]

namespace Desk

variable {d after : Desk} {e : Surroundings} {a : Alert} {x : Snapshot} {message : String}

theorem Rewrites.notifications {id : RecordId} {f : Alert → Alert}
    (rewrites : d.Rewrites id f after) : after.feed.notifications = d.feed.notifications := by
  rcases rewrites.feed with same | noted
  · rw [same]
  · rw [noted, Feed.notifications_updated]

theorem gate_congr (same : after.store.find? a.id = d.store.find? a.id) :
    after.gate e a = d.gate e a := by
  have within : after.store.inCooldown a.id e.now = d.store.inCooldown a.id e.now := by
    rw [Store.inCooldown, same, Store.inCooldown]
  simp only [gate, Outages.inCooldown, within]

theorem check_congr (same : after.store.find? a.id = d.store.find? a.id) :
    after.check e a x = d.check e a x := by
  rw [check, gate_congr same, check]

theorem record_history (d : Desk) (e : Surroundings) (a : Alert) (x : Snapshot)
    (message : String) :
    (d.record e a x message).store.history = d.store.history ++
      if e.outages.fails (.appendHistory a.id) then []
      else [historyEntry d.nextId a x message e.now] := by
  cases failing : e.outages.fails (.appendHistory a.id) with
  | true =>
    obtain ⟨reason, refused⟩ := Outages.guard_fails
      (.ok (d.store.appendHistory (historyEntry d.nextId a x message e.now))) failing
    have unwritten : e.outages.appendHistory d.store (historyEntry d.nextId a x message e.now) =
        .error reason := refused
    simp [record, newId, unwritten]
  | false =>
    rw [record_works x message (Outages.fails_eq_false.mp failing)]
    rfl

theorem record_find? (id : RecordId) :
    (d.record e a x message).store.find? id = d.store.find? id := by
  rw [Store.find?, record_alerts, Store.find?]

theorem find?_modify {s : Store} {id : RecordId} {f : Alert → Alert}
    (keeps : ∀ a, a.id = id → (f a).id = id) (other : RecordId) :
    ((s.modify? id f).getD s).find? other =
      if other = id then (s.find? other).map f else s.find? other := by
  cases modified : s.modify? id f with
  | some after =>
    obtain ⟨-, rfl⟩ := Store.modify?_some modified
    exact Store.find?_rewriting keeps other
  | none =>
    -- There was no such record, so there is none to change.
    rw [Option.getD_none]
    split
    · rename_i same
      have absent := Store.modify?_none modified
      have none : s.find? other = none := by simpa [Store.has, same] using absent
      rw [none, Option.map_none]
    · rfl

def stamps (e : Surroundings) (a stored : Alert) : Alert :=
  if e.outages.fails (.stampTrigger a.id) then stored else stamping e.now stored

theorem stamp_store (working : e.outages.fails (.stampTrigger a.id) = false) :
    (d.stamp e a).store = (d.store.modify? a.id (stamping e.now)).getD d.store := by
  have works := Outages.fails_eq_false.mp working
  unfold stamp
  rw [Outages.stampTrigger, Outages.guard_answers works, Store.stampTrigger]
  show _ = Option.getD (d.store.modify? a.id fun b =>
    { b with lastTriggeredAt := some e.now, updatedAt := e.now }) d.store
  cases d.store.modify? a.id _ <;> rfl

theorem stamp_find? (d : Desk) (e : Surroundings) (a : Alert) (id : RecordId) :
    (d.stamp e a).store.find? id =
      if id = a.id then (d.store.find? id).map (stamps e a) else d.store.find? id := by
  cases failing : e.outages.fails (.stampTrigger a.id) with
  | true =>
    obtain ⟨reason, refused⟩ := Outages.guard_fails (d.store.stampTrigger a.id e.now) failing
    have unchanged : d.stamp e a = d := by simp only [stamp, Outages.stampTrigger, refused]
    have kept : stamps e a = fun b => b := by
      funext b
      simp [stamps, failing]
    rw [unchanged, kept, Option.map_id_fun', id_eq, ite_self]
  | false =>
    have stamped : stamps e a = stamping e.now := by
      funext b
      simp [stamps, failing]
    rw [stamp_store failing, stamped]
    exact find?_modify (fun _ same => by exact same) id

@[simp] theorem stamp_feed : (d.stamp e a).feed = d.feed := by
  unfold stamp
  split <;> rfl

def rests (e : Surroundings) (a stored : Alert) : Alert :=
  if a.postTrigger.disables = true ∧ e.outages (.setActive a.id) = none then resting e.now stored
  else stored

theorem retire_skips (refused : ¬ (a.postTrigger.disables = true ∧
    e.outages (.setActive a.id) = none)) : d.retire e a = d := by
  unfold retire
  split
  · rename_i disables
    cases failing : e.outages (.setActive a.id) with
    | none => exact absurd ⟨disables, failing⟩ refused
    | some outage => cases outage <;> simp [Outages.setActive, Outages.guardWrite, failing]
  · rfl

theorem retire_answers (disables : a.postTrigger.disables = true)
    (works : e.outages (.setActive a.id) = none) :
    d.retire e a = match d.store.modify? a.id (resting e.now) with
      | some s => d.commit s
      | none => d := by
  have write : d.store.setActive? a.id false e.now = d.store.modify? a.id (resting e.now) := rfl
  unfold retire
  rw [if_pos disables, Outages.setActive, Outages.guardWrite_answers works, write]
  cases d.store.modify? a.id (resting e.now) <;> rfl

theorem retire_find? (d : Desk) (e : Surroundings) (a : Alert) (id : RecordId) :
    (d.retire e a).store.find? id =
      if id = a.id then (d.store.find? id).map (rests e a) else d.store.find? id := by
  by_cases answers : a.postTrigger.disables = true ∧ e.outages (.setActive a.id) = none
  · have store : (d.retire e a).store =
        (d.store.modify? a.id (resting e.now)).getD d.store := by
      rw [retire_answers answers.1 answers.2]
      cases d.store.modify? a.id (resting e.now) <;> rfl
    have rested : rests e a = resting e.now := by
      funext b
      rw [rests, if_pos answers]
    rw [store, rested]
    exact find?_modify (fun _ same => by exact same) id
  · have kept : rests e a = fun b => b := by
      funext b
      rw [rests, if_neg answers]
    rw [retire_skips answers, kept, Option.map_id_fun', id_eq, ite_self]

theorem fire_find? (d : Desk) (e : Surroundings) (a : Alert) (x : Snapshot) (message : String)
    (id : RecordId) :
    (d.fire e a x message).2.store.find? id =
      if id = a.id then (d.store.find? id).map fun b => rests e a (stamps e a b)
      else d.store.find? id := by
  simp only [fire, retire_find?, stamp_find?, record_find?]
  split
  · rw [Option.map_map]
    rfl
  · rfl

theorem fire_history (d : Desk) (e : Surroundings) (a : Alert) (x : Snapshot) (message : String) :
    (d.fire e a x message).2.store.history = d.store.history ++
      if e.outages.fails (.appendHistory a.id) then []
      else [historyEntry d.nextId a x message e.now] := by
  rw [← record_history]
  exact (retire_rewrites _ e a).history.trans (stamp_rewrites _ e a).history

theorem fire_notifications (d : Desk) (e : Surroundings) (a : Alert) (x : Snapshot)
    (message : String) :
    (d.fire e a x message).2.feed.notifications = d.feed.notifications := by
  have retired := (retire_rewrites ((d.record e a x message).stamp e a) e a).notifications
  rw [stamp_feed, record_feed] at retired
  exact retired

end Desk

end TickerWatch
