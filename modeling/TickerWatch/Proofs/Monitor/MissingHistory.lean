import TickerWatch.Proofs.Monitor.Outcomes
import TickerWatch.Proofs.Rule.Benchmarks

namespace TickerWatch

def Market.Historyless (m : Market) (o : FetchOptions) (code : String) : Prop :=
  m.bars = none ∨ o.historyBars = 0 ∨
    ∃ bars reason, m.bars = some bars ∧ bars code o.historyBars o.period = .error reason

variable {m : Market} {o : FetchOptions} {alerts : List Alert} {a : Alert} {d : Decision}

theorem Market.Historyless.history {code : String} (historyless : m.Historyless o code) :
    (m.history o code).1 = [] := by
  rcases historyless with absent | disabled | ⟨bars, reason, provided, failing⟩
  · simp only [Market.history, absent]
  · unfold Market.history
    split
    · rfl
    · rw [if_pos disabled]
  · simp only [Market.history, provided, failing]
    split <;> rfl

namespace Watch

variable {w : Watch} {e : Surroundings} {p : Pass}

theorem outcomes_quiet (sourced : p.Sourced o m alerts) (outcome : (a, d) ∈ w.outcomes e p)
    (relative : a.rule.IsRelative) (historyless : m.Historyless o a.code) : d.isFired = false := by
  have listed : (a, d) ∈ p.alerts.zip (w.processAll e p.snapshot p.alerts).1 := outcome
  rcases mem_processAll listed with ⟨-, rfl⟩ | ⟨v, x, seen, rfl⟩
  · rfl
  · obtain ⟨q, now, -, rfl⟩ := sourced.snapshot seen
    rw [Bool.eq_false_iff]
    intro fires
    have fired := process_fires fires
    rw [historyless.history, relative.quiet a.code q now a.sensitivity] at fired
    cases fired

end Watch

namespace Timeline

/-- A condition that is relative to the history fires only if the bars cover its reference, and says
so where they do not. No pass over alerts, by a loop or on its own, makes an alert fire by such
conditions alone while no bars come for its stock. -/
theorem relative_rules_need_history :
    (∀ (code : String) (q : Quote) (bars : List Bar) (now : Int) (field : Field)
      (reference : Reference) (op : Operator) (value sensitivity : Float),
      Relative field reference →
      let v := Condition.verdict ⟨field, op, value, some reference⟩ (.build code q bars now)
        sensitivity
      (v.fired = true → reference.Covered bars) ∧
        (¬ reference.Covered bars → v = .miss (reference.name ++ " unavailable"))) ∧
    (∀ (m : Market) (o : FetchOptions) (alerts : List Alert) (p : Pass) (w : Watch)
      (e : Surroundings), (Pass.ofAlerts alerts).Led o m p →
      ∀ a d, (a, d) ∈ w.outcomes e p → a.rule.IsRelative → m.Historyless o a.code →
        d.isFired = false) ∧
    ∀ (t after : Timeline) (r : Report), t.tick = (.ok r, after) →
      t.tickOutcomes.map Prod.fst = t.store.listActive ∧
      r.fired = t.tickOutcomes.countP (fun outcome => outcome.2.isFired) ∧
      ∀ a d, (a, d) ∈ t.tickOutcomes → a.rule.IsRelative → t.market.Historyless t.options a.code →
        d.isFired = false := by
  refine ⟨?_, ?_, ?_⟩
  · intro code q bars now field reference op value sensitivity relative
    exact ⟨Condition.covered_of_fired relative,
      Condition.verdict_uncovered relative op value code q now sensitivity⟩
  · intro m o alerts p w e led a d outcome relative historyless
    exact Watch.outcomes_quiet led.sourced outcome relative historyless
  · intro t after r ended
    obtain ⟨p, later, -, -, sourced, outcomes, report, -⟩ := tick_ok ended
    refine ⟨?_, ?_, ?_⟩
    · rw [outcomes, Watch.outcomes_alerts, sourced.listed]
    · rw [report]
      show (t.tickOutcomes.map Prod.snd).countP Decision.isFired = _
      rw [List.countP_map]
      rfl
    · intro a d outcome relative historyless
      rw [outcomes] at outcome
      exact Watch.outcomes_quiet sourced outcome relative historyless

def breakout : Alert :=
  { riser 1 "600519" 1 with
    rule := { conditions := [⟨.highPrice, .gt, 0, some .historicalHigh⟩] } }

def forgetfulMarket : Timeline where
  watch :=
    { desk :=
        { store := { alerts := [breakout] }
          feed := { capacity := 16 }
          nextId := ⟨2⟩ } }
  polling := .ofInterval 10 .unattached
  market :=
    { quote := fun _ => .ok { high := 12 }
      bars := some fun _ _ _ => .error "timed out" }

theorem breakout_needs_history :
    (∀ bars : List Bar, ¬ (Reference.historicalHigh).Covered bars →
      Condition.verdict ⟨.highPrice, .gt, 0, some .historicalHigh⟩
        (.build "600519" { high := 12 } bars 0) 0 = .miss "historical_high unavailable") ∧
    (Reference.historicalHigh).Covered [{ high := 11 }] ∧
    ∃ r after d, forgetfulMarket.tick = (.ok r, after) ∧ r.evaluated = 1 ∧
      (breakout, d) ∈ forgetfulMarket.tickOutcomes ∧ d.isFired = false := by
  obtain ⟨conditions, -, ticks⟩ := relative_rules_need_history
  have relative : breakout.rule.IsRelative := by
    intro c member
    obtain rfl := List.mem_singleton.mp member
    exact ⟨_, rfl, .high⟩
  have historyless : forgetfulMarket.market.Historyless forgetfulMarket.options breakout.code :=
    .inr (.inr ⟨_, "timed out", rfl, rfl⟩)
  refine ⟨?_, ?_, ?_⟩
  · intro bars uncovered
    exact (conditions "600519" { high := 12 } bars 0 _ _ .gt 0 0 .high).2 uncovered
  · refine (conditions "600519" { high := 12 } [{ high := 11 }] 0 _ _ .gt 0 0 .high).1 ?_
    decide +kernel
  · have report : forgetfulMarket.tick.1.toOption.map (fun r => r.evaluated) = some 1 := by
      decide +kernel
    generalize ended : forgetfulMarket.tick = result at report
    obtain ⟨answer, after⟩ := result
    cases answer with
    | error err => cases report
    | ok r =>
      obtain ⟨alerts, -, quiet⟩ := ticks forgetfulMarket after r ended
      have listed : breakout ∈ forgetfulMarket.tickOutcomes.map Prod.fst := by
        rw [alerts]
        exact List.mem_mergeSort.mpr (List.mem_singleton_self breakout)
      obtain ⟨⟨-, d⟩, outcome, rfl⟩ := List.mem_map.mp listed
      exact ⟨r, after, d, rfl, by simpa [Except.toOption] using report, outcome,
        quiet _ d outcome relative historyless⟩

end Timeline

end TickerWatch
