import TickerWatch.Proofs.Market.Summary
import TickerWatch.Proofs.Rule.Groups

namespace TickerWatch

inductive Relative : Field → Reference → Prop
  | high : Relative .highPrice .historicalHigh
  | low : Relative .lowPrice .historicalLow
  | average : Relative .ma5 .ma20

def Reference.Covered (bars : List Bar) : Reference → Prop
  | historicalHigh => ∃ b ∈ bars, 0 < b.high
  | historicalLow => ∃ b ∈ bars, 0 < b.low
  | ma20 => 20 ≤ bars.length
  | unknown _ => False

theorem Reference.not_covered_nil (reference : Reference) : ¬ reference.Covered [] := by
  cases reference <;> simp [Covered]

variable {bars : List Bar}

theorem foldl_larger_zero {xs : List Float} (none : ∀ x ∈ xs, ¬ 0 < x) :
    xs.foldl larger 0 = 0 := by
  induction xs with
  | nil => rfl
  | cons x xs ih =>
    have passed : larger 0 x = 0 := if_neg (none x List.mem_cons_self)
    rw [List.foldl_cons, passed]
    exact ih fun y member => none y (List.mem_cons_of_mem x member)

theorem highest_zero (none : ∀ b ∈ bars, ¬ 0 < b.high) : highest bars = 0 := by
  refine foldl_larger_zero fun x member => ?_
  obtain ⟨b, listed, rfl⟩ := List.mem_map.mp member
  exact none b listed

theorem Benchmark.verdict_unavailable {b : Benchmark} (zero : b.base = 0) (field : Field)
    (reference : Reference) (actual : Float) :
    b.verdict field reference actual = .miss (reference.name ++ " unavailable") := by
  have nothing : b.base ≤ 0 := by
    rw [zero]
    decide
  exact if_pos nothing

/-- Which operator and which value a condition has that is held against the history plays no part.
-/
theorem Condition.verdict_uncovered {field : Field} {reference : Reference}
    (relative : Relative field reference) (op : Operator) (value : Float) (code : String)
    (q : Quote) (now : Int) (sensitivity : Float) (uncovered : ¬ reference.Covered bars) :
    Condition.verdict ⟨field, op, value, some reference⟩ (.build code q bars now) sensitivity =
      .miss (reference.name ++ " unavailable") := by
  cases relative with
  | high =>
    have zero : highest bars = 0 := highest_zero fun b member high => uncovered ⟨b, member, high⟩
    exact Benchmark.verdict_unavailable zero ..
  | low =>
    have zero : lowest bars = 0 :=
      (lowest_isLowest bars).none_iff.mpr fun b member low => uncovered ⟨b, member, low⟩
    exact Benchmark.verdict_unavailable zero ..
  | average =>
    have zero : movingAverage bars 20 = 0 := movingAverage_zero (Nat.lt_of_not_le uncovered)
    exact Benchmark.verdict_unavailable zero ..

theorem Condition.covered_of_fired {field : Field} {reference : Reference}
    (relative : Relative field reference) {op : Operator} {value : Float} {code : String}
    {q : Quote} {now : Int} {sensitivity : Float}
    (fires : (Condition.verdict ⟨field, op, value, some reference⟩ (.build code q bars now)
      sensitivity).fired = true) : reference.Covered bars := by
  refine Classical.byContradiction fun uncovered => ?_
  rw [verdict_uncovered relative op value code q now sensitivity uncovered] at fires
  cases fires

theorem Rule.fires_by {r : Rule} {x : Snapshot} {sensitivity : Float}
    (fires : (r.verdict x sensitivity).fired = true) :
    ∃ c ∈ r.conditions, (c.verdict x sensitivity).fired = true := by
  obtain ⟨logic, cs⟩ := r
  cases logic with
  | all =>
    obtain ⟨nonempty, every⟩ := all_fires_iff.mp fires
    obtain ⟨c, held⟩ := List.exists_mem_of_ne_nil cs nonempty
    exact ⟨c, held, every c held⟩
  | any => exact any_fires_iff.mp fires

def Rule.IsRelative (r : Rule) : Prop :=
  ∀ c ∈ r.conditions, ∃ reference, c.reference = some reference ∧ Relative c.field reference

theorem Rule.IsRelative.quiet {r : Rule} (relative : r.IsRelative) (code : String) (q : Quote)
    (now : Int) (sensitivity : Float) :
    (r.verdict (.build code q [] now) sensitivity).fired = false := by
  rw [Bool.eq_false_iff]
  intro fires
  obtain ⟨⟨field, op, value, _⟩, held, fired⟩ := fires_by fires
  obtain ⟨reference, rfl, pair⟩ := relative _ held
  exact reference.not_covered_nil (Condition.covered_of_fired pair fired)

end TickerWatch
