import TickerWatch.Proofs.Monitor.Scene

namespace TickerWatch

def Event.concerns (id : RecordId) : Event → Bool
  | .triggered n => n.alertId = id
  | .updated => false

/-- Nothing about this alert is recorded, sent or handed out on the way from `w` to `after`. -/
structure Watch.Silent (w : Watch) (id : RecordId) (after : Watch) : Prop where
  recorded : after.desk.store.history.filter (·.alertId = id) =
    w.desk.store.history.filter (·.alertId = id)
  sent : after.desk.feed.sent.filter (·.concerns id) = w.desk.feed.sent.filter (·.concerns id)
  handed : after.handed.filter (·.2.alertId = id) = w.handed.filter (·.2.alertId = id)

variable {w : Watch} {id : RecordId}

theorem Watch.Silent.refl (w : Watch) (id : RecordId) : w.Silent id w := ⟨rfl, rfl, rfl⟩

theorem Watch.Silent.desk {d : Desk} (history : d.store.history = w.desk.store.history)
    (feed : d.feed = w.desk.feed ∨ d.feed = w.desk.feed.send .updated) :
    w.Silent id { w with desk := d } := by
  refine ⟨by rw [history], ?_, rfl⟩
  rcases feed with same | noted
  · rw [same]
  · rw [noted]
    simp [Feed.send, Event.concerns]

theorem Watch.Silent.record {e : Surroundings} {a : Alert} {x : Snapshot} {message : String}
    (other : a.id ≠ id) : w.Silent id { w with desk := w.desk.record e a x message } := by
  rcases Desk.record_store w.desk e a x message with same | appended
  · exact .desk (by rw [same]) (.inl Desk.record_feed)
  · refine ⟨?_, by rw [Desk.record_feed], rfl⟩
    simp [appended, Store.appendHistory, Desk.historyEntry, other]

theorem Watch.Silent.dispatch {n : Notification} (other : n.alertId ≠ id) :
    w.Silent id (w.dispatch n) := by
  refine ⟨rfl, by simp [Watch.dispatch, Desk.send, Feed.send, Event.concerns, other], ?_⟩
  cases callback : w.callback <;> simp [Watch.dispatch, callback, other]

theorem Firing.advance_silent {f : Firing} (e : Surroundings) (other : f.copy.id ≠ id) :
    w.Silent id (f.advance w e).2 := by
  cases stage : f.stage with
  | passed =>
    simp only [advance, stage]
    exact .record other
  | recorded now =>
    simp only [advance, stage]
    have rewrites := Desk.stamp_rewrites w.desk { e with now } f.copy
    exact .desk rewrites.history rewrites.feed
  | stamped now =>
    simp only [advance, stage]
    have rewrites := Desk.retire_rewrites w.desk { e with now } f.copy
    exact .desk rewrites.history rewrites.feed
  | retired now =>
    simp only [advance, stage]
    exact .dispatch other

namespace Scene

def Switches (id : RecordId) (s : Scene) : Act → Prop
  | .request e r => s.desk.Switches e r id
  | _ => False

structure LeavesAlone (id : RecordId) (s : Scene) (act : Act) : Prop where
  unjudged : ∀ i snapshot e, act = .judge i snapshot e →
    ∀ copy, s.copies[i]? = some copy → copy.id ≠ id
  unfired : ∀ i e, act = .advance i e → ∀ f, s.firings[i]? = some f → f.copy.id ≠ id
  silent : s.watch.Silent id (s.step act).watch
  off : ∀ a ∈ (s.step act).store.alerts, a.id = id → a.isActive = false

structure Retired (id : RecordId) (s : Scene) : Prop where
  issued : id.number < s.desk.nextId.number
  off : ∀ a ∈ s.store.alerts, a.id = id → a.isActive = false
  unlisted : ∀ copy ∈ s.copies, copy.id ≠ id
  unfired : ∀ f ∈ s.firings, f.copy.id ≠ id

namespace Retired

variable {s : Scene} {act : Act}

theorem request (retired : Retired id s) {e : Surroundings} {r : Request}
    (unswitched : ¬ s.desk.Switches e r id) : Retired id (s.step (.request e r)) where
  issued := Nat.lt_of_lt_of_le retired.issued (Desk.serve_frame s.desk e r).2.2
  off b member same := by
    rcases Desk.serve_stems s.desk e r member with ⟨fresh, -, -⟩ | ⟨a, before, sameId, -, switch⟩
    · -- A new alert has an identifier that was not issued before.
      have issued := retired.issued
      rw [← same, fresh] at issued
      exact absurd issued (Nat.lt_irrefl _)
    · rcases switch with kept | switched
      · rw [kept]
        exact retired.off a before (sameId.trans same)
      · exact absurd (same ▸ switched) unswitched
  unlisted := retired.unlisted
  unfired := retired.unfired

theorem enlist (retired : Retired id s) {listing : List Alert} (lists : s.store.Lists listing) :
    Retired id { s with copies := s.copies ++ listing } where
  issued := retired.issued
  off := retired.off
  unlisted copy member same := by
    rcases List.mem_append.mp member with open_ | listed
    · exact retired.unlisted copy open_ same
    · -- What is listed is active, and nothing active is stored under this identifier.
      obtain ⟨stored, active⟩ := lists.active listed
      rw [retired.off copy stored same] at active
      cases active
  unfired := retired.unfired

theorem judge (retired : Retired id s) (i : Nat) (snapshot : Option Snapshot) (e : Surroundings) :
    Retired id (s.step (.judge i snapshot e)) := by
  cases found : s.copies[i]? with
  | none => simpa only [step, found] using retired
  | some copy =>
    have other := retired.unlisted copy (List.mem_of_getElem? found)
    simp only [step, found]
    refine ⟨retired.issued, retired.off, ?_, ?_⟩
    · intro rest member
      exact retired.unlisted rest (List.mem_of_mem_eraseIdx member)
    · intro f member
      rcases List.mem_append.mp member with before | new
      · exact retired.unfired f before
      · obtain ⟨x, -, judged⟩ := Option.bind_eq_some_iff.mp (Option.mem_toList.mp new)
        rw [(Watch.judgeCopy_some judged).1]
        exact other

theorem advance (retired : Retired id s) (i : Nat) (e : Surroundings) :
    Retired id (s.step (.advance i e)) := by
  cases found : s.firings[i]? with
  | none => simpa only [step, found] using retired
  | some f =>
    have moved := step_advance (e := e) found
    refine ⟨?_, ?_, ?_, ?_⟩
    · have next := f.advance_nextId s.watch e
      rw [← moved] at next
      exact Nat.lt_of_lt_of_le retired.issued next
    · intro b member same
      cases active : b.isActive with
      | false => rfl
      | true =>
        rw [store, moved] at member
        obtain ⟨a, before, sameId, on⟩ := Firing.advance_active member active
        rw [retired.off a before (sameId.trans same)] at on
        cases on
    · simpa only [step, found] using retired.unlisted
    · intro g member
      obtain ⟨h, before, same⟩ := firings_advance member
      rw [same]
      exact retired.unfired h before

theorem step (retired : Retired id s) (unswitched : ¬ s.Switches id act) :
    Retired id (s.step act) := by
  cases act with
  | request e r => exact retired.request unswitched
  | tick e =>
    obtain ⟨listing, lists, opened⟩ := s.tick_lists e
    rw [opened]
    exact retired.enlist lists
  | check e code =>
    obtain ⟨listing, lists, opened⟩ := s.check_lists e code
    rw [opened]
    exact retired.enlist lists
  | judge i snapshot e => exact retired.judge i snapshot e
  | advance i e => exact retired.advance i e

theorem silent (retired : Retired id s) (act : Act) : s.watch.Silent id (s.step act).watch := by
  cases act with
  | request e r =>
    have frame := Desk.serve_frame s.desk e r
    exact .desk frame.1 frame.2.1
  | tick e =>
    simp only [Scene.step, enlist_watch]
    exact .refl _ _
  | check e code =>
    simp only [Scene.step, enlist_watch]
    exact .refl _ _
  | judge i snapshot e =>
    cases found : s.copies[i]? <;> simp only [Scene.step, found] <;> exact .refl _ _
  | advance i e =>
    cases found : s.firings[i]? with
    | none =>
      simp only [Scene.step, found]
      exact .refl _ _
    | some f =>
      rw [step_advance found]
      exact Firing.advance_silent e (retired.unfired f (List.mem_of_getElem? found))

theorem run {acts : List Act} (retired : Retired id s)
    (unswitched : s.Along (fun s act => ¬ s.Switches id act) acts) :
    s.Along (LeavesAlone id) acts := by
  induction acts generalizing s with
  | nil => trivial
  | cons act acts ih =>
    have next := retired.step unswitched.1
    refine ⟨⟨?_, ?_, retired.silent act, next.off⟩, ih next unswitched.2⟩
    · rintro i snapshot e rfl copy found
      exact retired.unlisted copy (List.mem_of_getElem? found)
    · rintro i e rfl f found
      exact retired.unfired f (List.mem_of_getElem? found)

end Retired

/-- One check at a time, and in it one copy at a time. Requests may come in between. -/
def InTurn (s : Scene) : Act → Prop
  | .tick _ => s.copies = []
  | .check _ _ => s.copies = []
  | act => s.Alone act

instance (s : Scene) : ∀ act, Decidable (s.InTurn act)
  | .tick _ => decidable_of_iff (s.copies.isEmpty = true) List.isEmpty_iff
  | .check _ _ => decidable_of_iff (s.copies.isEmpty = true) List.isEmpty_iff
  | .judge i snapshot e => inferInstanceAs (Decidable (s.Alone (.judge i snapshot e)))
  | .request e r => inferInstanceAs (Decidable (s.Alone (.request e r)))
  | .advance i e => inferInstanceAs (Decidable (s.Alone (.advance i e)))

structure Single (s : Scene) : Prop where
  orderly : s.desk.Orderly
  distinct : (s.copies.map Alert.id).Nodup
  issued : ∀ copy ∈ s.copies, copy.id.number < s.desk.nextId.number

namespace Single

variable {s : Scene} {act : Act}

theorem enlist (single : Single s) (free : s.copies = []) {listing : List Alert}
    (lists : s.store.Lists listing) : Single { s with copies := s.copies ++ listing } where
  orderly := single.orderly
  distinct := by
    rw [free, List.nil_append]
    exact lists.distinct single.orderly.distinct
  issued copy member := by
    rw [free, List.nil_append] at member
    exact single.orderly.issued copy (lists.active member).1

theorem step (single : Single s) (inTurn : s.InTurn act) : Single (s.step act) := by
  cases act with
  | request e r =>
    refine ⟨single.orderly.serve e r, single.distinct, fun copy member => ?_⟩
    exact Nat.lt_of_lt_of_le (single.issued copy member) (Desk.serve_frame s.desk e r).2.2
  | tick e =>
    obtain ⟨listing, lists, opened⟩ := s.tick_lists e
    rw [opened]
    exact single.enlist inTurn lists
  | check e code =>
    obtain ⟨listing, lists, opened⟩ := s.check_lists e code
    rw [opened]
    exact single.enlist inTurn lists
  | judge i snapshot e =>
    cases found : s.copies[i]? with
    | none => simpa only [Scene.step, found] using single
    | some copy =>
      simp only [Scene.step, found]
      have fewer : (s.copies.eraseIdx i).Sublist s.copies := List.eraseIdx_sublist _ _
      exact ⟨single.orderly, (fewer.map _).nodup single.distinct,
        fun rest member => single.issued rest (fewer.mem member)⟩
  | advance i e =>
    cases found : s.firings[i]? with
    | none => simpa only [Scene.step, found] using single
    | some f =>
      have next := f.advance_nextId s.watch e
      simp only [Scene.step, found]
      exact ⟨single.orderly.kept (f.advance_ids s.watch e) next, single.distinct,
        fun copy member => Nat.lt_of_lt_of_le (single.issued copy member) next⟩

theorem others (single : Single s) {i : Nat} {copy : Alert} (found : s.copies[i]? = some copy) :
    ∀ rest ∈ s.copies.eraseIdx i, rest.id ≠ copy.id := by
  intro rest member same
  obtain ⟨j, elsewhere, there⟩ := List.mem_eraseIdx_iff_getElem?.mp member
  have bound : j < (s.copies.map Alert.id).length := by
    simpa using (List.getElem?_eq_some_iff.mp there).1
  have coincide := List.getElem?_inj (j := i) bound single.distinct
  simp only [List.getElem?_map, there, found, Option.map_some, same, true_iff] at coincide
  exact elsewhere coincide

theorem retires (single : Single s) {i : Nat} {copy : Alert} {x : Snapshot} {gate e : Surroundings}
    (free : s.firings = []) (found : s.copies[i]? = some copy)
    (fires : (s.watch.judgeCopy gate copy x).isSome = true)
    (disables : copy.postTrigger.disables = true)
    (works : e.outages (.setActive copy.id) = none) :
    Retired copy.id (s.run (turn i (some x) gate e)) := by
  obtain ⟨f, judged⟩ := Option.isSome_iff_exists.mp fires
  obtain ⟨rfl, stage, -⟩ := Watch.judgeCopy_some judged
  have begun : s.run (turn i (some x) gate e) =
      run ⟨s.watch, s.copies.eraseIdx i, [f]⟩ (fire e) := by
    simp [turn, run, Scene.step, found, judged, free]
  rw [begun, run_fire e stage]
  have rewrites := Desk.retire_rewrites
    ((s.desk.record e f.copy f.snapshot f.message).stamp e f.copy) e f.copy
  refine ⟨?_, Desk.retire_off disables works, single.others found, by simp⟩
  have issued := single.issued f.copy (List.mem_of_getElem? found)
  show f.copy.id.number < (Desk.retire _ e f.copy).nextId.number
  rw [rewrites.nextId, (Desk.stamp_rewrites _ _ _).nextId, Desk.record_nextId]
  exact Nat.lt_succ_of_lt issued

end Single

/-- A check that fires an alert which does not stay active is the last to look at it, until a
request turns its switch. -/
theorem fired_once_left_alone (s : Scene) (before after : List Act) (i : Nat) (copy : Alert)
    (x : Snapshot) (gate e : Surroundings) (orderly : s.desk.Orderly) (free : s.copies = [])
    (inTurn : s.Along InTurn (before ++ turn i (some x) gate e))
    (listed : (s.run before).copies[i]? = some copy)
    (fires : ((s.run before).watch.judgeCopy gate copy x).isSome = true)
    (disables : copy.postTrigger.disables = true)
    (works : e.outages (.setActive copy.id) = none)
    (unswitched : (s.run (before ++ turn i (some x) gate e)).Along
      (fun s act => ¬ s.Switches copy.id act) after) :
    (s.run (before ++ turn i (some x) gate e)).Along (LeavesAlone copy.id) after := by
  have start : Single s := ⟨orderly, by simp [free], by simp [free]⟩
  obtain ⟨early, late⟩ := (along_append before _).mp inTurn
  have single : Single (s.run before) :=
    early.keeps (fun s act inTurn single => single.step inTurn) start
  have retired := single.retires (e := e) late.1 listed fires disables works
  rw [run_append] at unswitched ⊢
  exact retired.run unswitched

def disablingRise : List Act :=
  [.request { now := 0 } (.create (.rise 0 .disable)), .tick { now := 10 }]

def redefinedRise : List Act :=
  [.request { now := 40 } (.update ⟨1⟩ (.rise 0 .keepActive)), .tick { now := 50 },
    .check { now := 60 } "600519"]

theorem redefined_rise_left_alone :
    (opening.run (disablingRise ++
      turn 0 (some { changePercent := 6.2 }) { now := 20 } { now := 30 })).Along
        (LeavesAlone ⟨1⟩) redefinedRise := by
  have listing : ((opening.run disablingRise).copies[0]?.map fun copy =>
      (copy.id, copy.postTrigger.disables, ((opening.run disablingRise).watch.judgeCopy
        { now := 20 } copy { changePercent := 6.2 }).isSome)) = some (⟨1⟩, true, true) := by
    decide +kernel
  obtain ⟨copy, listed, facts⟩ := Option.map_eq_some_iff.mp listing
  simp only [Prod.mk.injEq] at facts
  obtain ⟨named, disables, fires⟩ := facts
  have orderly : opening.desk.Orderly := ⟨by simp [opening], by simp [opening]⟩
  have inTurn : opening.Along InTurn (disablingRise ++
      turn 0 (some { changePercent := 6.2 }) { now := 20 } { now := 30 }) := by decide +kernel
  rw [← named]
  apply fired_once_left_alone opening _ _ _ copy _ _ _ orderly rfl inTurn listed fires disables rfl
  simp [redefinedRise, Along, Switches, Desk.Switches]

end Scene

end TickerWatch
