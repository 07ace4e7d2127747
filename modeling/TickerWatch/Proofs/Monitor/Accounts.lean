import TickerWatch.Proofs.Desk.Checks
import TickerWatch.Proofs.Monitor.Lookups

namespace TickerWatch

namespace Outages

variable {o : Outages} {c : Call}

def fails (o : Outages) (c : Call) : Bool :=
  match o c with
  | some (.failure _) => true
  | _ => false

theorem fails_eq_false : o.fails c = false ↔ o.Works c := by
  unfold fails Works
  split
  · rename_i reason failing
    simp [failing]
  · rename_i answers
    exact iff_of_true rfl fun reason failing => answers reason failing

theorem guard_fails {α : Type} (answer : Except String α) (failing : o.fails c = true) :
    ∃ reason, o.guard c answer = .error reason := by
  unfold fails at failing
  split at failing
  · rename_i reason broken
    exact ⟨reason, by simp [guard, broken]⟩
  · cases failing

end Outages

def Event.isTriggered : Event → Bool
  | triggered _ => true
  | updated => false

namespace Desk

variable {d after : Desk} {e : Surroundings} {a : Alert}

theorem gate_fails (active : a.isActive = true)
    (failing : e.outages.fails (.inCooldown a.id) = true) :
    ∃ reason, d.gate e a = .error (.repository reason) := by
  obtain ⟨reason, refused⟩ := Outages.guard_fails (d.store.inCooldown a.id e.now) failing
  refine ⟨reason, ?_⟩
  simp only [gate, active, Outages.inCooldown, refused, Bool.not_true, Bool.false_eq_true,
    ↓reduceIte]

theorem record_works (x : Snapshot) (message : String)
    (works : e.outages.Works (.appendHistory a.id)) :
    (d.record e a x message).store =
      d.store.appendHistory (historyEntry d.nextId a x message e.now) := by
  have answers : e.outages.appendHistory d.store (historyEntry d.nextId a x message e.now) =
      .ok (d.store.appendHistory (historyEntry d.nextId a x message e.now)) :=
    Outages.guard_answers works
  unfold record newId
  simp only [answers]
  rfl

theorem Rewrites.sent {id : RecordId} {f : Alert → Alert} (rewrites : d.Rewrites id f after) :
    ∃ events, after.feed.sent = d.feed.sent ++ events ∧
      events.countP Event.isTriggered = 0 := by
  rcases rewrites.feed with same | noted
  · exact ⟨[], by simp [same], rfl⟩
  · exact ⟨[.updated], by simp [noted, Feed.send], rfl⟩

end Desk

/-- What `n` fires have sent and written. Every fire writes one entry of the history, of which none
is missing unless its write failed. -/
structure Traces (o : Outages) (n : Nat) (events : List Event) (entries : List HistoryEntry) :
    Prop where
  triggered : events.countP Event.isTriggered = n
  bound : entries.length ≤ n
  complete : (∀ m, .triggered m ∈ events → o.Works (.appendHistory m.alertId)) →
    entries.length = n

theorem Traces.append {o : Outages} {m n : Nat} {events events' : List Event}
    {entries entries' : List HistoryEntry} (first : Traces o m events entries)
    (second : Traces o n events' entries') :
    Traces o (m + n) (events ++ events') (entries ++ entries') where
  triggered := by rw [List.countP_append, first.triggered, second.triggered]
  bound := by
    rw [List.length_append]
    exact Nat.add_le_add first.bound second.bound
  complete works := by
    have early := first.complete fun k sent => works k (List.mem_append_left _ sent)
    have late := second.complete fun k sent => works k (List.mem_append_right _ sent)
    rw [List.length_append, early, late]

structure Watch.Fired (o : Outages) (n : Nat) (w after : Watch) : Prop where
  ids : after.desk.store.alerts.map Alert.id = w.desk.store.alerts.map Alert.id
  traces : ∃ events entries, after.desk.feed.sent = w.desk.feed.sent ++ events ∧
    after.desk.store.history = w.desk.store.history ++ entries ∧ Traces o n events entries

namespace Watch

variable {o : Outages} {w mid after : Watch} {e : Surroundings} {a : Alert}

theorem Fired.none (o : Outages) (w : Watch) : w.Fired o 0 w where
  ids := rfl
  traces := ⟨[], [], by simp, by simp, rfl, Nat.le_refl 0, fun _ => rfl⟩

theorem Fired.trans {m n : Nat} (first : w.Fired o m mid) (second : mid.Fired o n after) :
    w.Fired o (m + n) after := by
  obtain ⟨events, entries, sent, recorded, traces⟩ := first.traces
  obtain ⟨events', entries', sent', recorded', traces'⟩ := second.traces
  refine ⟨second.ids.trans first.ids, events ++ events', entries ++ entries', ?_, ?_,
    traces.append traces'⟩
  · rw [sent', sent, List.append_assoc]
  · rw [recorded', recorded, List.append_assoc]

theorem Fired.fire (w : Watch) (e : Surroundings) (a : Alert) (x : Snapshot) (message : String)
    {n : Notification} (mine : n.alertId = a.id) :
    w.Fired e.outages 1 ({ w with desk := (w.desk.fire e a x message).2 }.dispatch n) := by
  let d := w.desk.record e a x message
  have stamped := Desk.stamp_rewrites d e a
  have retired := Desk.retire_rewrites (d.stamp e a) e a
  have feed : d.feed = w.desk.feed := Desk.record_feed
  have history : ((d.stamp e a).retire e a).store.history = d.store.history :=
    retired.history.trans stamped.history
  have written : ∃ entries, d.store.history = w.desk.store.history ++ entries ∧
      entries.length ≤ 1 ∧ (e.outages.Works (.appendHistory a.id) → entries.length = 1) := by
    rcases Desk.record_store w.desk e a x message with same | appended
    · refine ⟨[], by simp [d, same], Nat.zero_le 1, fun works => ?_⟩
      have grown := congrArg (fun s => s.history.length)
        (same.symm.trans (Desk.record_works x message works))
      simp [Store.appendHistory] at grown
    · exact ⟨[Desk.historyEntry w.desk.nextId a x message e.now], by simp only [d, appended]; rfl,
        Nat.le_refl 1, fun _ => rfl⟩
  obtain ⟨events, sent, quiet⟩ := stamped.sent
  obtain ⟨events', sent', quiet'⟩ := retired.sent
  obtain ⟨entries, recorded, bound, complete⟩ := written
  refine ⟨?_, events ++ events' ++ [.triggered n], entries, ?_, history.trans recorded, ?_, bound,
    fun works => complete (mine ▸ works n (by simp))⟩
  · show ((d.stamp e a).retire e a).store.alerts.map Alert.id = _
    rw [retired.ids fun _ => rfl, stamped.ids fun _ => rfl, Desk.record_alerts]
  · show ((d.stamp e a).retire e a).feed.sent ++ [.triggered n] = _
    rw [sent', sent, feed]
    simp only [List.append_assoc]
  · rw [List.countP_append, List.countP_append, quiet, quiet']
    rfl

theorem process_fired (w : Watch) (e : Surroundings) (a : Alert) (x : Snapshot) :
    w.Fired e.outages ([(w.process e a x).1].countP Decision.isFired) (w.process e a x).2 := by
  unfold process
  split
  · exact .none _ w
  · exact .none _ w
  · split
    · exact .fire w e a x _ rfl
    · exact .none _ w

theorem processAll_fired (w : Watch) (e : Surroundings) (snapshot : String → Option Snapshot)
    (as : List Alert) :
    w.Fired e.outages ((w.processAll e snapshot as).1.countP Decision.isFired)
      (w.processAll e snapshot as).2 := by
  induction as generalizing w with
  | nil => exact .none _ w
  | cons a as ih =>
    cases seen : snapshot a.code with
    | none =>
      simp only [processAll, seen]
      exact ih w
    | some x =>
      simp only [processAll, seen]
      rw [← List.singleton_append, List.countP_append]
      exact (process_fired w e a x).trans (ih (w.process e a x).2)

theorem processAll_length (w : Watch) (e : Surroundings) (snapshot : String → Option Snapshot)
    (as : List Alert) : (w.processAll e snapshot as).1.length = as.length := by
  induction as generalizing w with
  | nil => rfl
  | cons a as ih => simp only [processAll, List.length_cons, ih]

/-- A stored alert is skipped with its snapshot at hand only if its cooldown cannot be looked up. -/
theorem process_skipped (x : Snapshot) (active : a.isActive = true)
    (stored : a.id ∈ w.desk.store.alerts.map Alert.id) :
    (w.process e a x).1.isSkipped = e.outages.fails (.inCooldown a.id) := by
  cases failing : e.outages.fails (.inCooldown a.id) with
  | true =>
    obtain ⟨reason, refused⟩ := Desk.gate_fails (d := w.desk) active failing
    simp only [process, Desk.check, refused]
    rfl
  | false =>
    have works := Outages.fails_eq_false.mp failing
    obtain ⟨b, member, same⟩ := List.mem_map.mp stored
    cases found : w.desk.store.find? a.id with
    | none => exact absurd same (Store.find?_eq_none.mp found b member)
    | some held =>
      have passed := Desk.gate_stored (e := e) found works
      simp only [process, Desk.check, passed]
      cases { held with isActive := a.isActive }.state e.now with
      | cooling => rfl
      | disabled => rfl
      | armed =>
        dsimp only
        split <;> rfl

theorem processAll_skipped (w : Watch) (e : Surroundings) (snapshot : String → Option Snapshot)
    (as : List Alert) (active : ∀ a ∈ as, a.isActive = true)
    (stored : ∀ a ∈ as, a.id ∈ w.desk.store.alerts.map Alert.id) :
    (w.processAll e snapshot as).1.countP Decision.isSkipped =
      as.countP fun a => (snapshot a.code).isNone || e.outages.fails (.inCooldown a.id) := by
  induction as generalizing w with
  | nil => rfl
  | cons a as ih =>
    have activeRest : ∀ b ∈ as, b.isActive = true :=
      fun b member => active b (List.mem_cons_of_mem _ member)
    have storedRest : ∀ b ∈ as, b.id ∈ w.desk.store.alerts.map Alert.id :=
      fun b member => stored b (List.mem_cons_of_mem _ member)
    cases seen : snapshot a.code with
    | none =>
      simp only [processAll, seen, List.countP_cons, ih w activeRest storedRest]
      rfl
    | some x =>
      have kept := (process_fired w e a x).ids
      have first := process_skipped (w := w) (e := e) x (active a List.mem_cons_self)
        (stored a List.mem_cons_self)
      have rest := ih (w.process e a x).2 activeRest fun b member => by
        rw [kept]
        exact storedRest b member
      simp only [processAll, seen, List.countP_cons, rest, first, Option.isNone_some,
        Bool.false_or]

end Watch

theorem Decision.counted (ds : List Decision) :
    ds.length = ds.countP Decision.isEvaluated + ds.countP Decision.isCooling +
      ds.countP Decision.isSkipped := by
  induction ds with
  | nil => rfl
  | cons d ds ih =>
    simp only [List.length_cons, List.countP_cons, ih]
    cases d <;> simp [isEvaluated, isCooling, isSkipped] <;> omega

theorem Decision.fired_evaluated (ds : List Decision) :
    ds.countP Decision.isFired ≤ ds.countP Decision.isEvaluated := by
  apply List.countP_mono_left
  intro d _ fires
  cases d with
  | fired n => rfl
  | quiet => rfl
  | skipped => cases fires
  | cooling => cases fires

namespace Pass

variable {m : Market} {alerts : List Alert} {p : Pass}

theorem done_codes (done : p.isDone = true) :
    p.codes = p.found.map Prod.fst ++ p.failed.map Prod.fst := by
  simp only [isDone, Bool.and_eq_true, List.isEmpty_iff] at done
  simp [Pass.codes, done.1, done.2]

theorem Faithful.known (faithful : p.Faithful m alerts []) (done : p.isDone = true)
    (code : String) :
    code ∈ p.found.map Prod.fst ∨ code ∈ p.failed.map Prod.fst ↔ code ∈ alerts.map Alert.code := by
  rw [← mem_codesOf, ← faithful.codes.mem_iff, List.append_nil, done_codes done, List.mem_append]

theorem Faithful.mem_failed (faithful : p.Faithful m alerts []) (done : p.isDone = true)
    (code : String) :
    code ∈ p.failed.map Prod.fst ↔
      code ∈ alerts.map Alert.code ∧ (m.quote code).isOk = false := by
  rw [← faithful.known done]
  constructor
  · intro failed
    obtain ⟨l, member, rfl⟩ := List.mem_map.mp failed
    exact ⟨.inr failed, faithful.failed l member⟩
  · rintro ⟨found | failed, refused⟩
    · obtain ⟨l, member, rfl⟩ := List.mem_map.mp found
      rw [faithful.found l member] at refused
      cases refused
    · exact failed

theorem Faithful.snapshot_none (faithful : p.Faithful m alerts []) (done : p.isDone = true)
    {code : String} (among : code ∈ alerts.map Alert.code) :
    (p.snapshot code).isNone = !(m.quote code).isOk := by
  cases answered : (m.quote code).isOk with
  | false =>
    rw [Bool.not_false, Option.isNone_iff_eq_none, snapshot, List.lookup_eq_none_iff]
    intro l member
    rw [bne_iff_ne]
    rintro rfl
    rw [faithful.found l member] at answered
    cases answered
  | true =>
    rcases (faithful.known done code).mpr among with found | failed
    · rw [Bool.not_true, Option.isNone_eq_false_iff, Option.isSome_iff_ne_none, snapshot, ne_eq,
        List.lookup_eq_none_iff]
      intro missing
      obtain ⟨l, member, rfl⟩ := List.mem_map.mp found
      simpa using missing l member
    · rw [((faithful.mem_failed done code).mp failed).2] at answered
      cases answered

theorem Faithful.codesFailed_sorted (faithful : p.Faithful m alerts []) (done : p.isDone = true) :
    p.codesFailed.Pairwise (· < ·) := by
  have distinct : p.codes.Nodup := by
    have perm := faithful.codes
    rw [List.append_nil] at perm
    exact perm.nodup_iff.mpr (nodup_codesOf alerts)
  rw [done_codes done] at distinct
  exact sorted_texts (List.nodup_append.mp distinct).2.1

end Pass

theorem countP_or (as : List Alert) (f g : Alert → Bool) :
    (as.countP fun a => !f a || g a) =
      (as.countP fun a => !f a) + as.countP fun a => f a && g a := by
  induction as with
  | nil => rfl
  | cons a as ih =>
    simp only [List.countP_cons, ih]
    cases f a <;> cases g a <;> simp <;> omega

namespace Timeline

variable {t after : Timeline} {alerts : List Alert} {r : Report}

abbrev store (t : Timeline) : Store := t.watch.desk.store

abbrev feed (t : Timeline) : Feed := t.watch.desk.feed

def quoted (t : Timeline) (code : String) : Bool := (t.market.quote code).isOk

structure Accounted (t : Timeline) (alerts : List Alert) (r : Report) (after : Timeline) :
    Prop where
  all : r.alerts = alerts.length
  sum : r.alerts = r.evaluated + r.cooling + r.skipped
  fired : r.fired ≤ r.evaluated
  codes : r.codes = (alerts.map Alert.code).toFinset.card
  sorted : r.codesFailed.Pairwise (· < ·)
  failed : ∀ code, code ∈ r.codesFailed ↔ code ∈ alerts.map Alert.code ∧ t.quoted code = false
  skipped : r.skipped = (alerts.countP fun a => !t.quoted a.code) +
    alerts.countP fun a => t.quoted a.code && t.outages.fails (.inCooldown a.id)
  traces : ∃ events entries, after.feed.sent = t.feed.sent ++ events ∧
    after.store.history = t.store.history ++ entries ∧ Traces t.outages r.fired events entries

theorem Accounted.perm {others : List Alert} (accounted : t.Accounted alerts r after)
    (perm : alerts.Perm others) : t.Accounted others r after where
  all := accounted.all.trans perm.length_eq
  sum := accounted.sum
  fired := accounted.fired
  codes := by
    rw [accounted.codes]
    congr 1
    ext code
    simp only [List.mem_toFinset, (perm.map Alert.code).mem_iff]
  sorted := accounted.sorted
  failed code := by rw [accounted.failed, (perm.map Alert.code).mem_iff]
  skipped := by rw [accounted.skipped, perm.countP_eq, perm.countP_eq]
  traces := accounted.traces

theorem judge_accounted {e : Surroundings} {p : Pass} (outages : e.outages = t.outages)
    (active : ∀ a ∈ alerts, a.isActive = true) (stored : ∀ a ∈ alerts, a ∈ t.store.alerts)
    (faithful : p.Faithful t.market alerts []) (done : p.isDone = true)
    (judged : after.watch = (t.watch.judge e p).2) :
    t.Accounted alerts (t.watch.judge e p).1 after := by
  have listed := faithful.listed
  have fires := t.watch.processAll_fired e p.snapshot alerts
  have skips := t.watch.processAll_skipped e p.snapshot alerts active
    fun a member => List.mem_map_of_mem (stored a member)
  have count := t.watch.processAll_length e p.snapshot alerts
  rw [← listed] at fires skips count
  rw [outages] at fires skips
  constructor
  · rw [← listed]
    exact count
  · exact Decision.counted _
  · exact Decision.fired_evaluated _
  · rw [← length_codesOf, ← listed]
    rfl
  · exact faithful.codesFailed_sorted done
  · intro code
    rw [quoted, ← faithful.mem_failed done]
    exact (List.mergeSort_perm _ _).mem_iff
  · refine skips.trans ?_
    rw [listed, ← countP_or]
    apply List.countP_congr
    intro a member
    rw [faithful.snapshot_none done (List.mem_map_of_mem member)]
    rfl
  · show ∃ events entries, after.watch.desk.feed.sent = _ ∧
      after.watch.desk.store.history = _ ∧ _
    rw [judged]
    exact fires.traces

def active (t : Timeline) : List Alert := t.store.alerts.filter Alert.isActive

def activeOf (t : Timeline) (code : String) : List Alert :=
  t.store.alerts.filter fun a => a.isActive && a.code == Desk.normalCode code

theorem beginTick_ok {p : Pass} (begun : t.watch.beginTick t.surroundings = .ok p) :
    p = .ofAlerts t.store.listActive := by
  unfold Watch.beginTick at begun
  cases answer : t.watch.desk.listActive t.surroundings with
  | error err =>
    rw [answer] at begun
    cases begun
  | ok listing =>
    have held : t.store.listActive = listing := Desk.reading_ok answer
    rw [answer] at begun
    cases begun
    rw [held]

theorem beginCheck_ok {p : Pass} {code : String}
    (begun : t.watch.beginCheck t.surroundings code = .ok p) :
    p = .ofAlerts (t.store.listActiveOf (Desk.normalCode code)) := by
  unfold Watch.beginCheck at begun
  cases answer : t.watch.desk.listActiveOf t.surroundings code with
  | error err =>
    rw [answer] at begun
    cases begun
  | ok listing =>
    have held : t.store.listActiveOf (Desk.normalCode code) = listing := Desk.reading_ok answer
    rw [answer] at begun
    cases begun
    rw [held]

theorem one_code {code : String} (same : ∀ a ∈ alerts, a.code = code) :
    (alerts.map Alert.code).toFinset.card = if alerts = [] then 0 else 1 := by
  cases alerts with
  | nil => rfl
  | cons a as =>
    have only : ((a :: as).map Alert.code).toFinset = {code} := by
      ext other
      simp only [List.mem_toFinset, List.mem_map, Finset.mem_singleton]
      constructor
      · rintro ⟨b, member, rfl⟩
        exact same b member
      · rintro rfl
        exact ⟨a, List.mem_cons_self, same a List.mem_cons_self⟩
    rw [only, Finset.card_singleton, if_neg (List.cons_ne_nil _ _)]

theorem tick_accounted
    (undisturbed : ∀ p, t.watch.beginTick t.surroundings = .ok p → t.Undisturbed p) :
    match t.tick with
    | (.ok r, after) => t.Accounted t.active r after
    | (.error _, after) => after.store = t.store ∧ after.feed = t.feed := by
  unfold tick
  cases begun : t.watch.beginTick t.surroundings with
  | error err => exact ⟨rfl, rfl⟩
  | ok p =>
    have quiet := undisturbed p begun
    obtain rfl := beginTick_ok begun
    obtain ⟨p, later, finished, done, faithful, watch, outages⟩ := finish_ends quiet
    have perm : t.store.listActive.Perm t.active := List.mergeSort_perm _ _
    have active : ∀ a ∈ t.store.listActive, a ∈ t.store.alerts ∧ a.isActive = true :=
      fun a member => t.store.lists_active.active member
    simp only [finished, watch]
    exact (judge_accounted outages (fun a member => (active a member).2)
      (fun a member => (active a member).1) faithful done rfl).perm perm

theorem checkStock_accounted {code : String}
    (undisturbed : ∀ p, t.watch.beginCheck t.surroundings code = .ok p → t.Undisturbed p) :
    match t.checkStock code with
    | (.ok r, after) => t.Accounted (t.activeOf code) r after ∧
        r.codes = if t.activeOf code = [] then 0 else 1
    | (.error _, after) => after.store = t.store ∧ after.feed = t.feed := by
  unfold checkStock
  cases begun : t.watch.beginCheck t.surroundings code with
  | error err => exact ⟨rfl, rfl⟩
  | ok p =>
    have quiet := undisturbed p begun
    obtain rfl := beginCheck_ok begun
    obtain ⟨p, later, finished, done, faithful, watch, outages⟩ := finish_ends quiet
    have perm : (t.store.listActiveOf (Desk.normalCode code)).Perm (t.activeOf code) :=
      List.mergeSort_perm _ _
    have active : ∀ a ∈ t.store.listActiveOf (Desk.normalCode code),
        a ∈ t.store.alerts ∧ a.isActive = true :=
      fun a member => (t.store.lists_activeOf _).active member
    have same : ∀ a ∈ t.activeOf code, a.code = Desk.normalCode code := by
      intro a member
      have kept := (List.mem_filter.mp member).2
      simp only [Bool.and_eq_true, beq_iff_eq] at kept
      exact kept.2
    simp only [finished, watch, Watch.judgeOne]
    -- The only lookup there is decides whether the check goes on.
    cases p.failed with
    | cons l ls => exact ⟨rfl, rfl⟩
    | nil =>
      have accounted : ∀ after : Timeline, after.watch = (t.watch.judge later.surroundings p).2 →
          t.Accounted (t.activeOf code) (t.watch.judge later.surroundings p).1 after :=
        fun after judged => (judge_accounted outages (fun a member => (active a member).2)
          (fun a member => (active a member).1) faithful done judged).perm perm
      have codes := (accounted { later with watch := _ } rfl).codes
      exact ⟨accounted _ rfl, codes.trans (one_code same)⟩

/-- Every alert of a tick is accounted for in its report, and so is every alert of a check of one
stock. A pass that fails has done nothing. -/
theorem passes_accounted (t : Timeline) :
    ((∀ p, t.watch.beginTick t.surroundings = .ok p → t.Undisturbed p) →
      match t.tick with
      | (.ok r, after) => t.Accounted t.active r after
      | (.error _, after) => after.store = t.store ∧ after.feed = t.feed) ∧
    ∀ code, (∀ p, t.watch.beginCheck t.surroundings code = .ok p → t.Undisturbed p) →
      match t.checkStock code with
      | (.ok r, after) => t.Accounted (t.activeOf code) r after ∧
          r.codes = if t.activeOf code = [] then 0 else 1
      | (.error _, after) => after.store = t.store ∧ after.feed = t.feed :=
  ⟨tick_accounted, fun _ => checkStock_accounted⟩

def riser (number : Nat) (code : String) (createdAt : Int) : Alert where
  id := ⟨number⟩
  code := code
  name := "rise"
  alertType := "price"
  rule := { conditions := [⟨.priceChangePercent, .gt, 5, none⟩] }
  isActive := true
  sensitivity := 0
  cooldownHours := 1
  postTrigger := .once
  enableSound := true
  enableDesktop := true
  lastTriggeredAt := none
  createdAt := createdAt
  updatedAt := createdAt

def halfMarket : Timeline where
  watch :=
    { desk :=
        { store := { alerts := [riser 1 "000001" 3, riser 2 "600519" 2, riser 3 "600519" 1] }
          feed := { capacity := 16 }
          nextId := ⟨4⟩ } }
  polling := .ofInterval 10 .unattached
  market :=
    { quote := fun code =>
        if code = "600519" then .ok { changePercent := 6.2 } else .error "timed out"
      delay := fun _ => 3 }
  options := { concurrency := 1 }
  outages
    | .inCooldown ⟨3⟩ => some (.failure "down")
    | _ => none

theorem halfMarket_begins :
    halfMarket.watch.beginTick halfMarket.surroundings =
      .ok { alerts := halfMarket.store.alerts, waiting := ["000001", "600519"] } := by
  have listed : halfMarket.store.listActive = halfMarket.store.alerts :=
    List.mergeSort_of_pairwise (by decide)
  have codes : codesOf halfMarket.store.alerts = ["000001", "600519"] :=
    List.mergeSort_of_pairwise (by decide)
  show Except.ok (Pass.ofAlerts halfMarket.store.listActive) = _
  rw [listed, Pass.ofAlerts, codes]

theorem halfMarket_accounted :
    ∃ r after, halfMarket.tick = (.ok r, after) ∧ r.evaluated = 1 ∧ r.skipped = 2 ∧ r.fired = 1 ∧
      halfMarket.Accounted halfMarket.active r after := by
  have report : halfMarket.tick.1.toOption.map (fun r => (r.evaluated, r.skipped, r.fired)) =
      some (1, 2, 1) := by
    unfold tick
    rw [halfMarket_begins]
    decide +kernel
  have undisturbed : ∀ p, halfMarket.watch.beginTick halfMarket.surroundings = .ok p →
      halfMarket.Undisturbed p := by
    intro p _ due going
    cases going
  have accounted := (passes_accounted halfMarket).1 undisturbed
  generalize halfMarket.tick = outcome at report accounted
  obtain ⟨answer, after⟩ := outcome
  cases answer with
  | error err => cases report
  | ok r =>
    simp only [Except.toOption, Option.map_some, Option.some.injEq, Prod.mk.injEq] at report
    obtain ⟨evaluated, skipped, fired⟩ := report
    exact ⟨r, after, rfl, evaluated, skipped, fired, accounted⟩

end Timeline

end TickerWatch
