import TickerWatch.Proofs.Rule.Benchmarks
import TickerWatch.Proofs.Rule.Groups

namespace TickerWatch

namespace Condition

variable {c : Condition} {x : Snapshot} {sensitivity actual : Float} {cs : List Condition}

def NamesUnknown (c : Condition) : Prop :=
  (∃ name, c.field = .unknown name) ∨ ∃ symbol, c.operator = .unknown symbol

def IsRelative (c : Condition) : Prop :=
  ∃ reference, c.reference = some reference ∧ Relative c.field reference

def diagnosis (c : Condition) : String :=
  match c.field with
  | .unknown name => "unknown field '" ++ name ++ "'"
  | _ => "unsupported operator '" ++ c.operator.symbol ++ "'"

theorem value?_eq_none {field : Field} : field.value? x = none ↔ ∃ name, field = .unknown name := by
  cases field <;> simp [Field.value?]

theorem benchmark?_isSome (x : Snapshot) (actual sensitivity : Float) {field : Field}
    {reference : Reference} :
    (benchmark? x actual sensitivity field reference).isSome = true ↔ Relative field reference := by
  constructor
  · intro found
    unfold benchmark? at found
    split at found
    · exact .high
    · exact .low
    · exact .average
    · cases found
  · rintro (_ | _ | _) <;> rfl

theorem diagnosis_unknownField {name : String} (unknown : c.field = .unknown name) :
    c.diagnosis = "unknown field '" ++ name ++ "'" := by
  simp only [diagnosis, unknown]

theorem diagnosis_knownField (known : c.field.value? x = some actual) :
    c.diagnosis = "unsupported operator '" ++ c.operator.symbol ++ "'" := by
  unfold diagnosis
  split
  · rename_i name unknown
    simp [unknown, Field.value?] at known
  · rfl

theorem verdict_literal (known : c.field.value? x = some actual) (literal : ¬ c.IsRelative) :
    c.verdict x sensitivity = c.literalVerdict actual sensitivity := by
  simp only [verdict, known]
  cases held : c.reference with
  | none => rfl
  | some reference =>
    have missing : benchmark? x actual sensitivity c.field reference = none := by
      rw [← Option.not_isSome_iff_eq_none, benchmark?_isSome]
      exact fun relative => literal ⟨reference, held, relative⟩
    simp only [missing]

theorem verdict_diagnosed (unknown : c.NamesUnknown) (literal : ¬ c.IsRelative) :
    c.verdict x sensitivity = .miss c.diagnosis := by
  cases value : c.field.value? x with
  | none =>
    obtain ⟨name, field⟩ := value?_eq_none.mp value
    rw [diagnosis_unknownField field]
    simp only [verdict, field, Field.value?, Field.name]
  | some actual =>
    obtain ⟨name, field⟩ | ⟨symbol, operator⟩ := unknown
    · cases value.symm.trans (value?_eq_none.mpr ⟨name, field⟩)
    · rw [verdict_literal value literal, literalVerdict, diagnosis_knownField value, operator]
      rfl

/-- A condition that is held against the history has no use for its operator and its value. -/
theorem verdict_relative (relative : c.IsRelative) (op : Operator) (value : Float) :
    Condition.verdict { c with operator := op, value } x sensitivity = c.verdict x sensitivity := by
  obtain ⟨field, operator, threshold, reference⟩ := c
  obtain ⟨reference, rfl, pair⟩ := relative
  cases pair <;> rfl

theorem diagnosed_quiet (unknown : c.NamesUnknown) (literal : ¬ c.IsRelative) :
    (c.verdict x sensitivity).fired = false := by
  rw [verdict_diagnosed unknown literal]
  rfl

theorem knownField_of_relative (relative : c.IsRelative) (name : String) :
    c.field ≠ .unknown name := by
  obtain ⟨reference, -, pair⟩ := relative
  intro unknown
  rw [unknown] at pair
  cases pair

theorem benchmark_names (b : Benchmark) (field : Field) (reference : Reference) (actual : Float) :
    reference.name.toList <+: (b.verdict field reference actual).message.toList ∨
      field.name.toList <+: (b.verdict field reference actual).message.toList := by
  unfold Benchmark.verdict
  split
  · refine .inl ?_
    simp only [Verdict.miss, String.toList_append]
    exact List.prefix_append _ _
  · refine .inr ?_
    dsimp only
    split <;> simp only [Verdict.hit, Verdict.miss, String.toList_append, List.append_assoc] <;>
      exact List.prefix_append _ _

theorem verdict_relative_undiagnosed (relative : c.IsRelative) :
    c.verdict x sensitivity ≠ .miss c.diagnosis := by
  obtain ⟨reference, held, pair⟩ := relative
  intro same
  obtain ⟨actual, value⟩ : ∃ actual, c.field.value? x = some actual :=
    Option.ne_none_iff_exists'.mp fun unknown => by
      obtain ⟨name, field⟩ := value?_eq_none.mp unknown
      exact knownField_of_relative ⟨reference, held, pair⟩ name field
  obtain ⟨b, found⟩ := Option.isSome_iff_exists.mp
    ((benchmark?_isSome x actual sensitivity).mpr pair)
  have judged : c.verdict x sensitivity = b.verdict c.field reference actual := by
    simp only [verdict, value, held, found]
  have names := benchmark_names b c.field reference actual
  rw [← judged, same, diagnosis_knownField value] at names
  generalize c.field = field at pair names
  cases pair <;> simp [Verdict.miss, Reference.name, Field.name] at names

/-- A condition that names something unknown does not fire but says so, unless it is held against
the history: there an unknown operator is passed over as a known one would be. The others keep a
rule from firing of which all conditions have to fire, and never make a rule fire. -/
theorem unknown_names_diagnosed (c : Condition) (cs : List Condition) (x : Snapshot)
    (sensitivity : Float) (unknown : c.NamesUnknown) :
    (c.verdict x sensitivity = .miss c.diagnosis ↔ ¬ c.IsRelative) ∧
      (c.IsRelative → ∀ op value,
        Condition.verdict { c with operator := op, value } x sensitivity =
          c.verdict x sensitivity) ∧
      (¬ c.IsRelative → c ∈ cs → (Rule.verdict ⟨.all, cs⟩ x sensitivity).fired = false) ∧
      ((Rule.verdict ⟨.any, cs⟩ x sensitivity).fired = true ↔
        ∃ other ∈ cs, (other.NamesUnknown → other.IsRelative) ∧
          (other.verdict x sensitivity).fired = true) := by
  refine ⟨⟨fun told relative => verdict_relative_undiagnosed relative told,
    verdict_diagnosed unknown⟩, verdict_relative, fun literal member => ?_, ?_⟩
  · rw [Bool.eq_false_iff]
    intro fires
    have fired := (Rule.all_fires_iff.mp fires).2 c member
    cases fired.symm.trans (diagnosed_quiet unknown literal)
  · rw [Rule.any_fires_iff]
    refine exists_congr fun other => and_congr_right fun _ => ⟨fun fires => ⟨fun named => ?_, fires⟩,
      And.right⟩
    refine Classical.byContradiction fun literal => ?_
    cases fires.symm.trans (diagnosed_quiet named literal)

def misspelt : Condition := ⟨.highPrice, .ofSymbol "=>", 0, some .historicalHigh⟩

theorem unknown_operator_fires :
    misspelt.operator = .unknown "=>" ∧
      misspelt.verdict { highPrice := 101, historicalHigh := 100 } 0.001 =
        .hit "high_price 101.00 broke above historical_high 100.00" ∧
      (Rule.verdict ⟨.all, [misspelt]⟩ { highPrice := 101, historicalHigh := 100 } 0.001).fired =
        true := by
  decide +kernel

def turnover : Condition := ⟨.ofName "turnover", .gt, 1, some .historicalHigh⟩

theorem turnover_diagnosed :
    let x : Snapshot := { highPrice := 101, historicalHigh := 100 }
    turnover.NamesUnknown ∧ ¬ turnover.IsRelative ∧
      turnover.verdict x 0.001 = .miss "unknown field 'turnover'" ∧
      (Rule.verdict ⟨.all, [misspelt, turnover]⟩ x 0.001).fired = false ∧
      ((Rule.verdict ⟨.any, [misspelt, turnover]⟩ x 0.001).fired = true ↔
        ∃ other ∈ [misspelt, turnover], (other.NamesUnknown → other.IsRelative) ∧
          (other.verdict x 0.001).fired = true) ∧
      misspelt.NamesUnknown ∧ misspelt.IsRelative ∧
      misspelt.verdict x 0.001 ≠ .miss misspelt.diagnosis ∧
      Condition.verdict { misspelt with operator := .lt, value := 7 } x 0.001 =
        misspelt.verdict x 0.001 := by
  intro x
  have field : turnover.field = .unknown "turnover" := by decide +kernel
  have unknown : turnover.NamesUnknown := .inl ⟨_, field⟩
  have literal : ¬ turnover.IsRelative := fun relative => knownField_of_relative relative _ field
  have operator : misspelt.NamesUnknown := .inr ⟨"=>", by decide +kernel⟩
  have relative : misspelt.IsRelative := ⟨_, rfl, .high⟩
  obtain ⟨told, -, quiet, fires⟩ :=
    unknown_names_diagnosed turnover [misspelt, turnover] x 0.001 unknown
  obtain ⟨undiagnosed, passed, -⟩ := unknown_names_diagnosed misspelt [] x 0.001 operator
  have said := told.mpr literal
  rw [diagnosis_unknownField field] at said
  exact ⟨unknown, literal, said, quiet literal (by simp), fires, operator, relative,
    fun same => undiagnosed.mp same relative, passed relative .lt 7⟩

end Condition

end TickerWatch
