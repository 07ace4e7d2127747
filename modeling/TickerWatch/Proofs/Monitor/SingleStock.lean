import TickerWatch.Proofs.Monitor.Shares
import TickerWatch.Proofs.Store.Listings

namespace TickerWatch

theorem Pass.Faithful.failed_code {m : Market} {alerts : List Alert} {p : Pass} {code : String}
    {l : String × String} (faithful : p.Faithful m alerts []) (done : p.isDone = true)
    (same : ∀ a ∈ alerts, a.code = code) (failed : l ∈ p.failed) : l.1 = code := by
  obtain ⟨among, -⟩ := (faithful.mem_failed done l.1).mp (List.mem_map_of_mem failed)
  obtain ⟨a, listed, mine⟩ := List.mem_map.mp among
  rw [← mine, same a listed]

namespace Timeline

variable {t u : Timeline} {text : String}

theorem checkStock_idle (idle : t.store.listActiveOf (Desk.normalCode text) = []) :
    (t.checkStock text).2 = t := by
  unfold checkStock
  cases begun : t.watch.beginCheck t.surroundings text with
  | error err => rfl
  | ok p =>
    obtain rfl := beginCheck_ok begun
    have empty : Pass.ofAlerts [] = { alerts := [], waiting := [] } := by
      simp [Pass.ofAlerts, codesOf]
    rw [idle, empty]
    rfl

theorem beginTick_works (lists : t.outages.Works .listActive) :
    t.watch.beginTick t.surroundings = .ok (.ofAlerts t.store.listActive) := by
  have answer : t.watch.desk.listActive t.surroundings = .ok t.store.listActive :=
    Desk.reading_works lists
  rw [Watch.beginTick, answer]
  rfl

theorem beginCheck_works (lists : t.outages.Works (.listActiveOf (Desk.normalCode text))) :
    t.watch.beginCheck t.surroundings text =
      .ok (.ofAlerts (t.store.listActiveOf (Desk.normalCode text))) := by
  have answer : t.watch.desk.listActiveOf t.surroundings text =
      .ok (t.store.listActiveOf (Desk.normalCode text)) := Desk.reading_works lists
  rw [Watch.beginCheck, answer]
  rfl

section

variable {a : Alert} (lists : t.outages.Works (.listActiveOf (Desk.normalCode text)))
  (undisturbed : t.Undisturbed (.ofAlerts (t.store.listActiveOf (Desk.normalCode text))))
  (listed : a ∈ t.store.listActiveOf (Desk.normalCode text))

include lists undisturbed listed

/-- A check whose only lookup goes through judges the alerts as a tick would. -/
theorem checkStock_quoted {q : Quote}
    (quoted : t.market.quote (Desk.normalCode text) = .ok q) :
    ∃ after, t.checkStock text =
        (.ok (.ofDecisions 1 [] (t.judged (t.store.listActiveOf (Desk.normalCode text))).1),
          after) ∧
      after.watch = (t.judged (t.store.listActiveOf (Desk.normalCode text))).2 := by
  obtain ⟨p, later, finished, done, faithful, sourced, watch, judged⟩ := finish_judged undisturbed
  have answered : p.failed = [] := by
    rw [List.eq_nil_iff_forall_not_mem]
    intro l member
    have unquoted := faithful.failed l member
    rw [faithful.failed_code done Store.code_of_listActiveOf member, quoted] at unquoted
    cases unquoted
  have codes : p.codeCount = 1 := by
    rw [Pass.codeCount, sourced.listed, length_codesOf, one_code Store.code_of_listActiveOf,
      if_neg (List.ne_nil_of_mem listed)]
  have failed : p.codesFailed = [] := by
    simp [Pass.codesFailed, answered]
  have ended : t.checkStock text =
      (.ok (t.watch.judge later.surroundings p).1,
        { later with watch := (t.watch.judge later.surroundings p).2 }) := by
    simp only [checkStock, beginCheck_works lists, finished, watch, Watch.judgeOne, answered]
  have judge : t.watch.judge later.surroundings p =
      (.ofDecisions 1 [] (t.judged (t.store.listActiveOf (Desk.normalCode text))).1,
        (t.judged (t.store.listActiveOf (Desk.normalCode text))).2) := by
    rw [Watch.judge, judged, codes, failed]
  rw [judge] at ended
  exact ⟨_, ended, rfl⟩

theorem checkStock_unquoted {reason : String}
    (unquoted : t.market.quote (Desk.normalCode text) = .error reason) :
    ∃ after, t.checkStock text = (.error (.dataUnavailable reason), after) ∧
      after.watch = t.watch := by
  obtain ⟨p, later, finished, done, faithful, sourced, watch, -⟩ := finish_judged undisturbed
  have fails : Desk.normalCode text ∈ p.failed.map Prod.fst := by
    rw [faithful.mem_failed done, unquoted]
    exact ⟨List.mem_map.mpr ⟨a, listed, Store.code_of_listActiveOf a listed⟩, rfl⟩
  cases failed : p.failed with
  | nil =>
    rw [failed] at fails
    cases fails
  | cons l ls =>
    have member : l ∈ p.failed := by simp [failed]
    have why := sourced.failed l member
    rw [faithful.failed_code done Store.code_of_listActiveOf member, unquoted] at why
    obtain rfl := Except.error.inj why
    refine ⟨{ later with watch := t.watch }, ?_, rfl⟩
    simp only [checkStock, beginCheck_works lists, finished, watch, Watch.judgeOne, failed]

end

variable {code : String}

theorem listActiveOf_share (alike : Alike code t u)
    (distinct : (t.store.alerts.map Alert.id).Nodup)
    (clock : u.judgedAt (u.store.listActiveOf code) = t.judgedAt t.store.listActive) :
    ((t.store.listActive.zip (t.judged t.store.listActive).1).filter
        (·.1.code == code)).map Prod.snd = (u.judged (u.store.listActiveOf code)).1 ∧
      (t.judged t.store.listActive).2.Agree code (t.idsOf code)
        (u.judged (u.store.listActiveOf code)).2 := by
  have store : u.store = t.store := by rw [store, alike.watch]
  have listed := Store.listActiveOf_eq distinct code
  rw [store] at clock ⊢
  have kept : (t.store.listActiveOf code).filter (·.code == code) =
      t.store.listActive.filter (·.code == code) := by
    rw [listed, List.filter_filter]
    simp only [Bool.and_self]
  obtain ⟨decided, agree⟩ := judged_share alike distinct
    (fun a member => (t.store.lists_active.active member).1)
    (fun a member => (Store.mem_listActiveOf.mp member).1) kept clock
  refine ⟨?_, agree⟩
  have all : ∀ outcome ∈ (t.store.listActiveOf code).zip (u.judged (t.store.listActiveOf code)).1,
      (outcome.1.code == code) = true := by
    intro outcome member
    simpa using Store.code_of_listActiveOf outcome.1 (List.of_mem_zip member).1
  rw [← decided, List.filter_eq_self.mpr all]
  exact List.map_snd_zip (Nat.le_of_eq (Watch.processAll_length ..))

theorem judged_apart {other : String} (distinct : (t.store.alerts.map Alert.id).Nodup)
    (apart : other ≠ code) :
    t.watch.Agree other (t.idsOf other) (t.judged (t.store.listActiveOf code)).2 := by
  have elsewhere : ∀ a ∈ t.store.listActiveOf code, a.code ≠ other := by
    rintro a member rfl
    exact apart (Store.code_of_listActiveOf a member)
  refine Watch.agree_processAll_other elsewhere (fun a member held => ?_) t.watch
  exact elsewhere a member ((idsOf_iff distinct (Store.mem_listActiveOf.mp member).1).mp held)

/-- A check asks nothing of the market unless there is an active alert on its stock. Else it goes
through exactly where a tick of the same watch, judging at the same time, finds a quote of that
stock: it decides on the alerts on the stock as the tick does, leaves the same behind of them, and
leaves all others alone. Where there is no quote, nothing is left behind. -/
theorem checks_agree_with_ticks :
    (∀ (t : Timeline) (text : String),
      (∀ a ∈ t.store.alerts, a.isActive = true → a.code ≠ Desk.normalCode text) →
      (t.checkStock text).2 = t) ∧
    ∀ (t u : Timeline) (text code : String), Desk.normalCode text = code → Alike code t u →
      (t.store.alerts.map Alert.id).Nodup →
      t.outages.Works .listActive → u.outages.Works (.listActiveOf code) →
      t.Undisturbed (.ofAlerts t.store.listActive) →
      u.Undisturbed (.ofAlerts (u.store.listActiveOf code)) →
      u.judgedAt (u.store.listActiveOf code) = t.judgedAt t.store.listActive →
      (∃ a ∈ t.store.alerts, a.isActive = true ∧ a.code = code) →
      ∃ r answer after after', t.Decided r after ∧ u.checkStock text = (answer, after') ∧
        (∀ q, t.market.quote code = .ok q →
          answer = .ok (.ofDecisions 1 []
            ((t.tickOutcomes.filter (·.1.code == code)).map Prod.snd)) ∧
          after.watch.Agree code (t.idsOf code) after'.watch ∧
          ∀ other, other ≠ code → u.watch.Agree other (u.idsOf other) after'.watch) ∧
        (∀ reason, t.market.quote code = .error reason →
          answer = .error (.dataUnavailable reason) ∧ after'.watch = u.watch) ∧
        (code ∈ r.codesFailed ↔ ∃ reason, answer = .error (.dataUnavailable reason)) := by
  constructor
  · intro t text absent
    apply checkStock_idle
    rw [List.eq_nil_iff_forall_not_mem]
    intro a member
    obtain ⟨stored, active, same⟩ := Store.mem_listActiveOf.mp member
    exact absent a stored active same
  · rintro t u text _ rfl alike distinct lists listsToo quiet quietToo clock
      ⟨a, stored, active, same⟩
    obtain ⟨r, after, decided, outcomes, watch, failed⟩ := tick_judged (beginTick_works lists) quiet
    obtain ⟨decisions, agree⟩ := listActiveOf_share alike distinct clock
    have store : u.store = t.store := by rw [store, alike.watch]
    have listed : a ∈ u.store.listActiveOf (Desk.normalCode text) := by
      rw [Store.mem_listActiveOf, store]
      exact ⟨stored, active, same⟩
    have among : Desk.normalCode text ∈ t.store.listActive.map Alert.code :=
      List.mem_map.mpr
        ⟨a, List.mem_mergeSort.mpr (List.mem_filter.mpr ⟨stored, active⟩), same⟩
    have failing := failed (Desk.normalCode text)
    cases quoted : t.market.quote (Desk.normalCode text) with
    | ok q =>
      obtain ⟨after', checked, watchToo⟩ :=
        checkStock_quoted listsToo quietToo listed (alike.quote.trans quoted)
      refine ⟨r, _, after, after', decided, checked, ?_, ?_, ?_⟩
      · rintro _ -
        rw [outcomes, decisions, watch, watchToo]
        exact ⟨rfl, agree, fun other apart => judged_apart (store ▸ distinct) apart⟩
      · intro reason given
        cases given
      · rw [failing, quoted]
        exact iff_of_false (fun fails => Bool.noConfusion fails.2) (by simp)
    | error reason =>
      obtain ⟨after', checked, kept⟩ :=
        checkStock_unquoted listsToo quietToo listed (alike.quote.trans quoted)
      refine ⟨r, _, after, after', decided, checked, ?_, ?_, ?_⟩
      · intro q given
        cases given
      · intro why given
        obtain rfl := Except.error.inj given
        exact ⟨rfl, kept⟩
      · rw [failing, quoted]
        exact iff_of_true ⟨among, rfl⟩ ⟨reason, rfl⟩

theorem halfMarket_checks_agree :
    (halfMarket.checkStock "000002").2 = halfMarket ∧
    (∃ reason, (halfMarket.checkStock "000001").1 = .error (.dataUnavailable reason)) ∧
    (halfMarket.checkStock " 600519").1.toOption.map (fun r => (r.fired, r.skipped)) = some (1, 1) ∧
    halfMarket.tick.2.watch.Agree "600519" (halfMarket.idsOf "600519")
      (halfMarket.checkStock " 600519").2.watch := by
  obtain ⟨idle, checks⟩ := checks_agree_with_ticks
  have pass := beginTick_ok halfMarket_begins
  have alike : ∀ code, Alike code halfMarket halfMarket := fun _ => ⟨rfl, rfl, rfl, rfl⟩
  have works : ∀ code, halfMarket.outages.Works (.listActiveOf code) := by
    intro code reason failing
    cases failing
  have lists : halfMarket.outages.Works .listActive := by
    intro reason failing
    cases failing
  have quiet : ∀ alerts, halfMarket.Undisturbed (.ofAlerts alerts) := by
    intro alerts due going
    cases going
  have listed : halfMarket.store.listActiveOf "600519" =
      [riser 2 "600519" 2, riser 3 "600519" 1] := List.mergeSort_of_pairwise (by decide)
  have listedToo : halfMarket.store.listActiveOf "000001" = [riser 1 "000001" 3] :=
    List.mergeSort_of_pairwise (by decide)
  have clock : halfMarket.judgedAt (halfMarket.store.listActiveOf "600519") =
      halfMarket.judgedAt halfMarket.store.listActive := by
    rw [judgedAt, judgedAt, ← pass, listed]
    decide +kernel
  have clockToo : halfMarket.judgedAt (halfMarket.store.listActiveOf "000001") =
      halfMarket.judgedAt halfMarket.store.listActive := by
    rw [judgedAt, judgedAt, ← pass, listedToo]
    decide +kernel
  refine ⟨?_, ?_, ?_, ?_⟩
  · exact idle halfMarket "000002" (by decide +kernel)
  · obtain ⟨-, answer, -, after', -, checked, -, failed, -⟩ :=
      checks halfMarket halfMarket "000001" "000001" (by decide +kernel) (alike _) (by decide)
        lists (works _) (quiet _) (quiet _) clockToo ⟨_, List.mem_cons_self, rfl, rfl⟩
    exact ⟨"timed out", by rw [checked]; exact (failed "timed out" rfl).1⟩
  · have code : Desk.normalCode " 600519" = "600519" := by decide +kernel
    have begun : halfMarket.watch.beginCheck halfMarket.surroundings " 600519" =
        .ok (.ofAlerts (halfMarket.store.listActiveOf (Desk.normalCode " 600519"))) :=
      beginCheck_works (works _)
    rw [code, listed] at begun
    rw [checkStock, begun]
    decide +kernel
  · obtain ⟨r, answer, after, after', decided, checked, quoted, -, -⟩ :=
      checks halfMarket halfMarket " 600519" "600519" (by decide +kernel) (alike _) (by decide)
        lists (works _) (quiet _) (quiet _) clock
        ⟨_, List.mem_cons_of_mem _ List.mem_cons_self, rfl, rfl⟩
    rw [decided.ended, checked]
    exact (quoted _ rfl).2.1

end Timeline

end TickerWatch
