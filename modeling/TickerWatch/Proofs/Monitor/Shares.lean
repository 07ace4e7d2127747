import Mathlib.Data.List.Nodup
import TickerWatch.Proofs.Monitor.Outcomes

namespace TickerWatch

def HistoryEntry.content (h : HistoryEntry) : HistoryEntry := { h with id := ⟨0⟩ }

def Store.historyOf (s : Store) (code : String) : List HistoryEntry :=
  (s.history.filter (·.code == code)).map HistoryEntry.content

def Feed.notificationsOf (f : Feed) (code : String) : List Notification :=
  f.notifications.filter (·.code == code)

namespace Watch

/-- Two watches that differ in nothing that concerns the alerts on one stock, of which `mine` are
the identifiers. -/
structure Agree (code : String) (mine : RecordId → Prop) (w v : Watch) : Prop where
  records : ∀ id, mine id → v.desk.store.find? id = w.desk.store.find? id
  history : v.desk.store.historyOf code = w.desk.store.historyOf code
  notifications : v.desk.feed.notificationsOf code = w.desk.feed.notificationsOf code
  handed : v.handed.filter (·.2.code == code) = w.handed.filter (·.2.code == code)
  callback : v.callback = w.callback

variable {code : String} {mine : RecordId → Prop} {w v u : Watch} {e : Surroundings} {a : Alert}
  {x : Snapshot}

theorem Agree.refl (code : String) (mine : RecordId → Prop) (w : Watch) : w.Agree code mine w :=
  ⟨fun _ _ => rfl, rfl, rfl, rfl, rfl⟩

theorem Agree.symm (agree : w.Agree code mine v) : v.Agree code mine w :=
  ⟨fun id own => (agree.records id own).symm, agree.history.symm, agree.notifications.symm,
    agree.handed.symm, agree.callback.symm⟩

theorem Agree.trans (first : w.Agree code mine v) (second : v.Agree code mine u) :
    w.Agree code mine u :=
  ⟨fun id own => (second.records id own).trans (first.records id own),
    second.history.trans first.history, second.notifications.trans first.notifications,
    second.handed.trans first.handed, second.callback.trans first.callback⟩

variable {message : String}

theorem firing_historyOf (own : a.code = code) :
    (w.firing e a x message).desk.store.historyOf code = w.desk.store.historyOf code ++
      if e.outages.fails (.appendHistory a.id) then []
      else [Desk.historyEntry ⟨0⟩ a x message e.now] := by
  have written : (w.firing e a x message).desk.store.history = w.desk.store.history ++ _ :=
    Desk.fire_history w.desk e a x message
  rw [Store.historyOf, written, List.filter_append, List.map_append]
  refine congrArg _ ?_
  split
  · rfl
  · rw [List.filter_cons_of_pos (by simpa [Desk.historyEntry] using own)]
    rfl

theorem firing_historyOf_other (other : a.code ≠ code) :
    (w.firing e a x message).desk.store.historyOf code = w.desk.store.historyOf code := by
  have written : (w.firing e a x message).desk.store.history = w.desk.store.history ++ _ :=
    Desk.fire_history w.desk e a x message
  rw [Store.historyOf, written, List.filter_append, List.map_append]
  refine List.append_right_eq_self.mpr ?_
  split
  · rfl
  · rw [List.filter_cons_of_neg (by simpa [Desk.historyEntry] using other)]
    rfl

theorem Agree.firing (agree : w.Agree code mine v) (own : a.code = code) (message : String) :
    (w.firing e a x message).Agree code mine (v.firing e a x message) where
  records id member := by
    have before := agree.records id member
    show (v.desk.fire e a x message).2.store.find? id = (w.desk.fire e a x message).2.store.find? id
    rw [Desk.fire_find?, Desk.fire_find?, before]
  history := by
    rw [firing_historyOf own, firing_historyOf own, agree.history]
  notifications := by
    have before := agree.notifications
    unfold Feed.notificationsOf at before ⊢
    rw [firing_notifications, firing_notifications, List.filter_append, List.filter_append, before]
  handed := by
    show List.filter _ (v.handed ++ _) = List.filter _ (w.handed ++ _)
    rw [List.filter_append, List.filter_append, agree.handed, agree.callback]
  callback := agree.callback

theorem agree_firing_other (other : a.code ≠ code) (foreign : ¬ mine a.id) (w : Watch) :
    w.Agree code mine (w.firing e a x message) where
  records id member := by
    have apart : id ≠ a.id := by
      rintro rfl
      exact foreign member
    show (w.desk.fire e a x message).2.store.find? id = _
    rw [Desk.fire_find?, if_neg apart]
  history := firing_historyOf_other other
  notifications := by
    unfold Feed.notificationsOf
    rw [firing_notifications, List.filter_append]
    exact List.append_right_eq_self.mpr
      (List.filter_cons_of_neg (by simpa [Desk.notification] using other))
  handed := by
    show List.filter _ (w.handed ++ _) = _
    rw [List.filter_append, List.append_right_eq_self]
    cases w.callback with
    | none => rfl
    | some callback => exact List.filter_cons_of_neg (by simpa [Desk.notification] using other)
  callback := rfl

/-- The alert's own record decides, so watches that agree on it decide alike. -/
theorem Agree.process (agree : w.Agree code mine v) (own : a.code = code) (held : mine a.id) :
    (v.process e a x).1 = (w.process e a x).1 ∧
      (w.process e a x).2.Agree code mine (v.process e a x).2 := by
  have checked : v.desk.check e a x = w.desk.check e a x :=
    Desk.check_congr (agree.records a.id held)
  rw [process_eq, process_eq, checked]
  split
  · exact ⟨rfl, agree⟩
  · exact ⟨rfl, agree⟩
  · split
    · exact ⟨rfl, agree.firing own _⟩
    · exact ⟨rfl, agree⟩

theorem agree_process_other (other : a.code ≠ code) (foreign : ¬ mine a.id) (w : Watch) :
    w.Agree code mine (w.process e a x).2 := by
  rw [process_eq]
  split
  · exact .refl ..
  · exact .refl ..
  · split
    · exact agree_firing_other other foreign w
    · exact .refl ..

/-- Of a run over many alerts, those on one stock see what they would see of a run over themselves
alone. -/
theorem Agree.processAll {f g : String → Option Snapshot} {as : List Alert}
    (agree : w.Agree code mine v) (shown : f code = g code)
    (own : ∀ a ∈ as, mine a.id ↔ a.code = code) :
    (as.zip (w.processAll e f as).1).filter (·.1.code == code) =
        (as.filter (·.code == code)).zip
          (v.processAll e g (as.filter (·.code == code))).1 ∧
      (w.processAll e f as).2.Agree code mine
        (v.processAll e g (as.filter (·.code == code))).2 := by
  -- Along the longer run. The shorter one goes on with it for alerts on the stock, and rests else.
  induction as generalizing w v with
  | nil => exact ⟨rfl, agree⟩
  | cons a as ih =>
    have later : ∀ b ∈ as, mine b.id ↔ b.code = code :=
      fun b member => own b (List.mem_cons_of_mem a member)
    have head := own a List.mem_cons_self
    by_cases same : a.code = code
    · rw [List.filter_cons_of_pos (by simpa using same)]
      cases seen : g code with
      | none =>
        have first := ih agree later
        simp only [Watch.processAll, same, shown, seen, List.zip_cons_cons]
        rw [List.filter_cons_of_pos (by simpa using same), first.1]
        exact ⟨rfl, first.2⟩
      | some x =>
        obtain ⟨decided, after⟩ := agree.process (e := e) (x := x) same (head.mpr same)
        have first := ih after later
        simp only [Watch.processAll, same, shown, seen, List.zip_cons_cons]
        rw [List.filter_cons_of_pos (by simpa using same), first.1, decided]
        exact ⟨rfl, first.2⟩
    · have foreign : ¬ mine a.id := fun held => same (head.mp held)
      rw [List.filter_cons_of_neg (by simpa using same)]
      cases seen : f a.code with
      | none =>
        simp only [Watch.processAll, seen, List.zip_cons_cons]
        rw [List.filter_cons_of_neg (by simpa using same)]
        exact ih agree later
      | some x =>
        simp only [Watch.processAll, seen, List.zip_cons_cons]
        rw [List.filter_cons_of_neg (by simpa using same)]
        exact ih ((agree_process_other same foreign w).symm.trans agree) later

theorem agree_processAll_other {f : String → Option Snapshot} {as : List Alert}
    (other : ∀ a ∈ as, a.code ≠ code) (foreign : ∀ a ∈ as, ¬ mine a.id) (w : Watch) :
    w.Agree code mine (w.processAll e f as).2 := by
  have none : as.filter (·.code == code) = [] := by
    rw [List.filter_eq_nil_iff]
    intro a member
    simpa using other a member
  have own : ∀ a ∈ as, mine a.id ↔ a.code = code :=
    fun a member => iff_of_false (foreign a member) (other a member)
  have alone := (Agree.refl code mine w).processAll (e := e) (f := f) (g := f) rfl own
  rw [none] at alone
  exact alone.2.symm

end Watch

namespace Timeline

variable {t u : Timeline} {code : String}

structure Alike (code : String) (t u : Timeline) : Prop where
  watch : u.watch = t.watch
  outages : u.outages = t.outages
  quote : u.market.quote code = t.market.quote code
  bars : (u.market.history u.options code).1 = (t.market.history t.options code).1

theorem Alike.view (alike : Alike code t u) :
    u.market.view u.options code = t.market.view t.options code := by
  rw [Market.view, alike.quote, alike.bars, Market.view]

def idsOf (t : Timeline) (code : String) (id : RecordId) : Prop :=
  ∃ a ∈ t.store.alerts, a.id = id ∧ a.code = code

theorem idsOf_iff {a : Alert} (distinct : (t.store.alerts.map Alert.id).Nodup)
    (stored : a ∈ t.store.alerts) : t.idsOf code a.id ↔ a.code = code := by
  constructor
  · rintro ⟨b, member, same, rfl⟩
    rw [List.inj_on_of_nodup_map distinct member stored same]
  · exact fun same => ⟨a, stored, rfl, same⟩

theorem judged_share {as bs : List Alert} (alike : Alike code t u)
    (distinct : (t.store.alerts.map Alert.id).Nodup) (stored : ∀ a ∈ as, a ∈ t.store.alerts)
    (storedToo : ∀ a ∈ bs, a ∈ t.store.alerts)
    (same : bs.filter (·.code == code) = as.filter (·.code == code))
    (clock : u.judgedAt bs = t.judgedAt as) :
    (bs.zip (u.judged bs).1).filter (·.1.code == code) =
        (as.zip (t.judged as).1).filter (·.1.code == code) ∧
      (t.judged as).2.Agree code (t.idsOf code) (u.judged bs).2 := by
  -- Both are held against a run over the alerts on the stock alone.
  have start := Watch.Agree.refl code (t.idsOf code) t.watch
  have alone := start.processAll (e := t.judging as) (f := t.market.view t.options)
    (g := t.market.view t.options) rfl fun a member => idsOf_iff distinct (stored a member)
  have aloneToo := start.processAll (e := t.judging as) (f := u.market.view u.options)
    (g := t.market.view t.options) alike.view
    fun a member => idsOf_iff distinct (storedToo a member)
  have judging : u.judging bs = t.judging as := by
    rw [judging, clock, alike.outages, judging]
  rw [same] at aloneToo
  rw [judged, judged, judging, alike.watch]
  exact ⟨aloneToo.1.trans alone.1.symm, alone.2.trans aloneToo.2.symm⟩

/-- Two ticks of the same watch in markets that agree on one stock, which judge at the same time,
decide alike on the alerts on that stock and leave the same behind of them. -/
theorem ticks_agree_on_code (t u : Timeline) (code : String) (alike : Alike code t u)
    (distinct : (t.store.alerts.map Alert.id).Nodup)
    (clock : u.judgedAt u.store.listActive = t.judgedAt t.store.listActive)
    (quiet : t.Undisturbed (.ofAlerts t.store.listActive))
    (quietToo : u.Undisturbed (.ofAlerts u.store.listActive)) :
    (∃ err, t.tick = (.error err, t) ∧ u.tick = (.error err, u)) ∨
    ∃ r s after after', t.Decided r after ∧ u.Decided s after' ∧
      u.tickOutcomes.filter (·.1.code == code) = t.tickOutcomes.filter (·.1.code == code) ∧
      after.watch.Agree code (t.idsOf code) after'.watch := by
  have begins : u.watch.beginTick u.surroundings = t.watch.beginTick t.surroundings := by
    simp only [Watch.beginTick, Desk.listActive, surroundings, alike.watch, alike.outages]
  cases begun : t.watch.beginTick t.surroundings with
  | error err =>
    rw [begun] at begins
    exact .inl ⟨err, by simp only [tick, begun], by simp only [tick, begins]⟩
  | ok p =>
    obtain rfl := beginTick_ok begun
    have same : u.store.listActive = t.store.listActive := by rw [store, alike.watch]
    rw [begun, ← same] at begins
    obtain ⟨r, after, decided, outcomes, watch, -⟩ := tick_judged begun quiet
    obtain ⟨s, after', decidedToo, outcomesToo, watchToo, -⟩ := tick_judged begins quietToo
    refine .inr ⟨r, s, after, after', decided, decidedToo, ?_⟩
    have stored : ∀ a ∈ t.store.listActive, a ∈ t.store.alerts :=
      fun a member => (t.store.lists_active.active member).1
    rw [same] at outcomesToo watchToo clock
    rw [outcomes, outcomesToo, watch, watchToo]
    exact judged_share alike distinct stored stored rfl clock

def wholeMarket : Timeline :=
  { halfMarket with
    market := { halfMarket.market with quote := fun _ => .ok { changePercent := 6.2 } } }

theorem half_and_whole_agree :
    halfMarket.tick.1.toOption.map Report.fired = some 1 ∧
    wholeMarket.tick.1.toOption.map Report.fired = some 2 ∧
    wholeMarket.tickOutcomes.filter (·.1.code == "600519") =
      halfMarket.tickOutcomes.filter (·.1.code == "600519") ∧
    halfMarket.tick.2.watch.Agree "600519" (halfMarket.idsOf "600519")
      wholeMarket.tick.2.watch := by
  have begins : wholeMarket.watch.beginTick wholeMarket.surroundings =
      halfMarket.watch.beginTick halfMarket.surroundings := rfl
  have pass := beginTick_ok halfMarket_begins
  have alike : Alike "600519" halfMarket wholeMarket := ⟨rfl, rfl, rfl, rfl⟩
  have clock : wholeMarket.judgedAt halfMarket.store.listActive =
      halfMarket.judgedAt halfMarket.store.listActive := by
    rw [judgedAt, judgedAt, ← pass]
    decide +kernel
  have fired : halfMarket.tick.1.toOption.map Report.fired = some 1 := by
    rw [tick, halfMarket_begins]
    decide +kernel
  have firedToo : wholeMarket.tick.1.toOption.map Report.fired = some 2 := by
    rw [tick, begins, halfMarket_begins]
    decide +kernel
  have quiet : halfMarket.Undisturbed (.ofAlerts halfMarket.store.listActive) := by
    intro due going
    cases going
  have quietToo : wholeMarket.Undisturbed (.ofAlerts wholeMarket.store.listActive) := by
    intro due going
    cases going
  have agrees := ticks_agree_on_code halfMarket wholeMarket "600519" alike (by decide) clock quiet
    quietToo
  rcases agrees with
    ⟨err, failed, -⟩ | ⟨r, s, after, after', decided, decidedToo, outcomes, agree⟩
  · rw [failed] at fired
    cases fired
  · refine ⟨fired, firedToo, outcomes, ?_⟩
    rw [decided.ended, decidedToo.ended]
    exact agree

end Timeline

end TickerWatch
