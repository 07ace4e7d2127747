import TickerWatch.Proofs.Json.Written
import TickerWatch.Proofs.Rule.Canonical

namespace TickerWatch

open Json

def reading (x : Float) : Option Float := (readAll real (Value.real x).render).toOption

def Condition.renewed (c : Condition) (y : Float) : Condition where
  field := .ofName c.field.name
  operator := .ofSymbol c.operator.symbol
  value := y
  reference := c.reference.map fun r => .ofName r.name

/-- Every value is finite and equals what is read from its own number text. -/
def Rule.ValueSafe (r : Rule) : Prop :=
  ∀ c ∈ r.conditions, c.value.isFinite = true ∧
    ∃ y, reading c.value = some y ∧ (y == c.value) = true

theorem reading_answers (x : Float) : real.Answers (.real x) (reading x) := by
  obtain ⟨y, answers, -⟩ := real_answers x
  rw [reading, answers.readAll]
  exact answers

theorem reading_not_finite {x : Float} (infinite : x.isFinite = false) : reading x = none := by
  obtain ⟨y, answers, none⟩ := real_answers x
  rw [reading, answers.readAll, none infinite]

namespace Condition

def fields : Fields [String, String, Float, Option String] :=
  .cons "field" text required <|
  .cons "operator" text required <|
  .cons "value" real required <|
  .cons "reference" (optional text) (byDefault none) .nil

abbrev Filled := Fills (fields.member false)

theorem filled_names {field operator : String} {ms : List (String × Value)}
    {y : Option (Slots [String, String, Float, Option String])}
    (more : Filled (some field, some operator, none, none, ()) ms y) :
    Filled fields.empty (("field", .text field) :: ("operator", .text operator) :: ms) y := by
  refine ⟨_, _, rfl, (text_answers field).map _, .inr ⟨_, rfl, ?_⟩⟩
  exact ⟨_, _, rfl, ((text_answers operator).map _).map _, .inr ⟨_, rfl, more⟩⟩

theorem filled_value {field operator : Option String} {x y : Float}
    {ms : List (String × Value)} {z : Option (Slots [String, String, Float, Option String])}
    (read : reading x = some y) (more : Filled (field, operator, some y, none, ()) ms z) :
    Filled (field, operator, none, none, ()) (("value", .real x) :: ms) z := by
  have value := reading_answers x
  rw [read] at value
  exact ⟨_, _, rfl, ((value.map _).map _).map _, .inr ⟨_, rfl, more⟩⟩

theorem not_filled_value {field operator : Option String} {x : Float}
    {ms : List (String × Value)} (refused : reading x = none) :
    Filled (field, operator, none, none, ()) (("value", .real x) :: ms) none := by
  have value := reading_answers x
  rw [refused] at value
  exact ⟨_, _, rfl, ((value.map _).map _).map _, .inl ⟨rfl, rfl⟩⟩

theorem filled_reference {field operator : Option String} {value : Option Float} (name : String) :
    Filled (field, operator, value, none, ()) [("reference", .text name)]
      (some (field, operator, value, some (some name), ())) :=
  ⟨_, _, rfl, ((((optional_answers (text_answers name)).map _).map _).map _).map _,
    .inr ⟨_, rfl, rfl⟩⟩

theorem decoder_answers (c : Condition) :
    decoder.Answers c.toValue ((reading c.value).map c.renewed) := by
  obtain ⟨field, operator, value, reference⟩ := c
  cases read : reading value with
  | none => exact (record_answers "Condition" (filled_names (not_filled_value read))).map _
  | some y =>
    cases reference with
    | none =>
      have last : Filled (some field.name, some operator.symbol, some y, none, ()) []
          (some (some field.name, some operator.symbol, some y, none, ())) := rfl
      exact (record_answers "Condition" (filled_names (filled_value read last))).map _
    | some r =>
      have last : Filled (some field.name, some operator.symbol, some y, none, ()) _ _ :=
        filled_reference r.name
      exact (record_answers "Condition" (filled_names (filled_value read last))).map _

end Condition

theorem Logic.decoder_answers (l : Logic) : (choice names).Answers (.text l.name) (some l) := by
  have read := choice_answers names l.name
  cases l with
  | all => exact read
  | any => exact read

theorem Rule.decoder_answers (r : Rule) :
    decoder.Answers r.toValue
      ((r.conditions.mapM fun c => (reading c.value).map c.renewed).map fun cs =>
        { r with conditions := cs }) := by
  obtain ⟨logic, conditions⟩ := r
  have list : (list Condition.decoder).Answers (.list (conditions.map Condition.toValue))
      (conditions.mapM fun c => (reading c.value).map c.renewed) :=
    list_answers fun c _ => c.decoder_answers
  cases read : conditions.mapM fun c => (reading c.value).map c.renewed with
  | none =>
    rw [read] at list
    have filled : Fills (fields.member false) fields.empty
        [("logic", .text logic.name), ("conditions", .list (conditions.map Condition.toValue))]
        none := by
      refine ⟨_, _, rfl, logic.decoder_answers.map _, .inr ⟨_, rfl, ?_⟩⟩
      exact ⟨_, _, rfl, (list.map _).map _, .inl ⟨rfl, rfl⟩⟩
    exact (record_answers "ConditionGroup" filled).map _
  | some cs =>
    rw [read] at list
    have filled : Fills (fields.member false) fields.empty
        [("logic", .text logic.name), ("conditions", .list (conditions.map Condition.toValue))]
        (some (some logic, some cs, ())) := by
      refine ⟨_, _, rfl, logic.decoder_answers.map _, .inr ⟨_, rfl, ?_⟩⟩
      exact ⟨_, _, rfl, (list.map _).map _, .inr ⟨_, rfl, rfl⟩⟩
    exact (record_answers "ConditionGroup" filled).map _

theorem Rule.ofJson_toJson (r : Rule) :
    (ofJson r.toJson).toOption =
      (r.conditions.mapM fun c => (reading c.value).map c.renewed).map fun cs =>
        { r with conditions := cs } :=
  (decoder_answers r).readAll

theorem Condition.beq_iff {a b : Condition} :
    (a == b) = true ↔ a.field = b.field ∧ a.operator = b.operator ∧ (a.value == b.value) = true ∧
      a.reference = b.reference := by
  obtain ⟨f, o, v, r⟩ := a
  obtain ⟨f', o', v', r'⟩ := b
  show instBEqCondition.beq _ _ = true ↔ _
  simp [instBEqCondition.beq]

theorem Condition.renewed_beq {c : Condition} {y : Float} (same : (y == c.value) = true) :
    (c.renewed y == c) = true ↔ c.Canonical := by
  obtain ⟨field, operator, value, reference⟩ := c
  rw [beq_iff]
  dsimp only [renewed]
  rw [field.ofName_name, operator.ofSymbol_symbol]
  constructor
  · rintro ⟨fieldCanonical, operatorCanonical, -, sameReference⟩
    refine ⟨fieldCanonical, operatorCanonical, ?_⟩
    rintro r rfl
    exact r.ofName_name.mp (Option.some.inj sameReference)
  · rintro ⟨fieldCanonical, operatorCanonical, referenceCanonical⟩
    refine ⟨fieldCanonical, operatorCanonical, same, ?_⟩
    cases reference with
    | none => rfl
    | some r => exact congrArg some (r.ofName_name.mpr (referenceCanonical r rfl))

theorem conditions_renewed {cs : List Condition}
    (safe : ∀ c ∈ cs, ∃ y, reading c.value = some y ∧ (y == c.value) = true) :
    ∃ cs', (cs.mapM fun c => (reading c.value).map c.renewed) = some cs' ∧
      ((cs' == cs) = true ↔ ∀ c ∈ cs, c.Canonical) := by
  induction cs with
  | nil => exact ⟨[], rfl, by simp⟩
  | cons c cs ih =>
    obtain ⟨y, read, same⟩ := safe c List.mem_cons_self
    obtain ⟨cs', others, equal⟩ := ih fun c' among => safe c' (List.mem_cons_of_mem c among)
    refine ⟨c.renewed y :: cs', ?_, ?_⟩
    · rw [List.mapM_cons, read, others]
      rfl
    · rw [List.cons_beq_cons, Bool.and_eq_true, Condition.renewed_beq same, equal,
        List.forall_mem_cons]

theorem conditions_refused {cs : List Condition} {c : Condition} (member : c ∈ cs)
    (refused : reading c.value = none) :
    (cs.mapM fun c => (reading c.value).map c.renewed) = none := by
  induction cs with
  | nil => cases member
  | cons first cs ih =>
    rw [List.mapM_cons]
    rcases List.mem_cons.mp member with rfl | among
    · rw [refused]
      rfl
    · rw [ih among]
      cases (reading first.value).map first.renewed <;> rfl

theorem Rule.beq_iff {a b : Rule} :
    (a == b) = true ↔ a.logic = b.logic ∧ (a.conditions == b.conditions) = true := by
  obtain ⟨l, cs⟩ := a
  obtain ⟨l', cs'⟩ := b
  show instBEqRule.beq _ _ = true ↔ _
  simp [instBEqRule.beq]

/-- A rule whose values survive their texts is restored exactly if its names are canonical, as those
of a rule that was read are. A rule with a value that is not finite is never read back. -/
theorem Rule.restored_iff_canonical (r : Rule) :
    (r.ValueSafe → ∃ r', ofJson r.toJson = .ok r' ∧ ((r' == r) = true ↔ r.Canonical)) ∧
    (r.ValueSafe → ∀ s, ofJson s = .ok r →
      ∃ r', ofJson r.toJson = .ok r' ∧ (r' == r) = true) ∧
    ((∃ c ∈ r.conditions, c.value.isFinite = false) → ∃ e, ofJson r.toJson = .error e) := by
  have read := r.ofJson_toJson
  have restored : r.ValueSafe →
      ∃ r', ofJson r.toJson = .ok r' ∧ ((r' == r) = true ↔ r.Canonical) := by
    intro safe
    obtain ⟨cs, renewed, equal⟩ := conditions_renewed fun c member => (safe c member).2
    rw [renewed] at read
    refine ⟨_, ok_of_toOption read, ?_⟩
    rw [beq_iff]
    exact ⟨fun same => equal.mp same.2, fun canonical => ⟨rfl, equal.mpr canonical⟩⟩
  refine ⟨restored, fun safe s origin => ?_, fun infinite => ?_⟩
  · obtain ⟨r', back, equal⟩ := restored safe
    exact ⟨r', back, equal.mpr (ofJson_canonical origin)⟩
  · obtain ⟨c, member, infinite⟩ := infinite
    rw [conditions_refused member (reading_not_finite infinite)] at read
    exact error_of_toOption read

def oddNames : Rule where
  logic := .any
  conditions :=
    [⟨.unknown "\"turn\\over\"\n\x01", .unknown "≈", 1.5, some (.unknown "Ø vwap")⟩,
      ⟨.highPrice, .gte, -0.0, some .historicalHigh⟩]

def endless : Rule where
  conditions := [⟨.ma5, .lt, 3, none⟩, ⟨.volume, .gt, 1 / 0, none⟩]

theorem odd_names_restored :
    oddNames.ValueSafe ∧
    (∃ r, Rule.ofJson oddNames.toJson = .ok r ∧ (r == oddNames) = true) ∧
    ∃ e, Rule.ofJson endless.toJson = .error e := by
  have safe : oddNames.ValueSafe := by
    intro c member
    rcases List.mem_cons.mp member with rfl | second
    · exact ⟨by decide +kernel, 1.5, by decide +kernel, by decide +kernel⟩
    · obtain rfl := List.mem_singleton.mp second
      exact ⟨by decide +kernel, -0.0, by decide +kernel, by decide +kernel⟩
  have canonical : oddNames.Canonical := by
    intro c member
    rcases List.mem_cons.mp member with rfl | second
    · constructor
      · rintro _ ⟨⟩
        decide +kernel
      · rintro _ ⟨⟩
        decide +kernel
      · rintro _ ⟨⟩ _ ⟨⟩
        decide +kernel
    · obtain rfl := List.mem_singleton.mp second
      exact ⟨nofun, nofun, by rintro _ ⟨⟩; exact nofun⟩
  have infinite : ∃ c ∈ endless.conditions, c.value.isFinite = false :=
    ⟨⟨.volume, .gt, 1 / 0, none⟩, by simp [endless], by decide +kernel⟩
  obtain ⟨r, read, equal⟩ := oddNames.restored_iff_canonical.1 safe
  exact ⟨safe, ⟨r, read, equal.mpr canonical⟩, endless.restored_iff_canonical.2.2 infinite⟩

end TickerWatch
