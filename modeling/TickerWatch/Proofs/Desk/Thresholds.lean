import Mathlib.Data.List.Forall2
import TickerWatch.Proofs.Desk.Instantiation
import TickerWatch.Proofs.Rule.Values

namespace TickerWatch

open Json

def Condition.Reread (c : Condition) (c' : Condition) : Prop :=
  ∃ y, reading c.value = some y ∧ c' = c.renewed y

theorem Condition.renewed_eq_iff {c : Condition} {y : Float} :
    c.renewed y = c ↔ y = c.value ∧ c.Canonical := by
  obtain ⟨field, operator, value, reference⟩ := c
  constructor
  · intro same
    obtain ⟨fieldSame, operatorSame, valueSame, referenceSame⟩ := Condition.mk.inj same
    refine ⟨valueSame, field.ofName_name.mp fieldSame, operator.ofSymbol_symbol.mp operatorSame, ?_⟩
    rintro r rfl
    exact r.ofName_name.mp (Option.some.inj referenceSame)
  · rintro ⟨rfl, fieldCanonical, operatorCanonical, referenceCanonical⟩
    have references : reference.map (fun r => Reference.ofName r.name) = reference := by
      cases reference with
      | none => rfl
      | some r => exact congrArg some (r.ofName_name.mpr (referenceCanonical r rfl))
    simp only [renewed, field.ofName_name.mpr fieldCanonical,
      operator.ofSymbol_symbol.mpr operatorCanonical, references]

theorem Condition.reread_self_iff {c : Condition} :
    c.Reread c ↔ Retold c.value ∧ c.Canonical := by
  constructor
  · rintro ⟨y, read, same⟩
    obtain ⟨rfl, canonical⟩ := renewed_eq_iff.mp same.symm
    exact ⟨read, canonical⟩
  · rintro ⟨read, canonical⟩
    exact ⟨c.value, read, (renewed_eq_iff.mpr ⟨rfl, canonical⟩).symm⟩

theorem Condition.reread_unique : Relator.RightUnique Condition.Reread := by
  rintro c c' c'' ⟨y, read, rfl⟩ ⟨y', read', rfl⟩
  rw [Option.some.inj (read.symm.trans read')]

theorem reread_of_mapM {cs cs' : List Condition}
    (read : (cs.mapM fun c => (reading c.value).map c.renewed) = some cs') :
    List.Forall₂ Condition.Reread cs cs' := by
  induction cs generalizing cs' with
  | nil =>
    cases read
    exact .nil
  | cons c cs ih =>
    rw [List.mapM_cons] at read
    obtain ⟨c', first, read⟩ := Option.bind_eq_some_iff.mp read
    obtain ⟨more, others, read⟩ := Option.bind_eq_some_iff.mp read
    obtain ⟨y, value, rfl⟩ := Option.map_eq_some_iff.mp first
    cases read
    exact .cons ⟨y, value, rfl⟩ (ih others)

namespace Rule

structure Reread (r r' : Rule) : Prop where
  logic : r'.logic = r.logic
  conditions : List.Forall₂ Condition.Reread r.conditions r'.conditions

variable {r r' : Rule}

theorem reread_of_ofJson (read : ofJson r.toJson = .ok r') : r.Reread r' := by
  have written := r.ofJson_toJson
  rw [read] at written
  obtain ⟨cs, renewed, rfl⟩ := Option.map_eq_some_iff.mp written.symm
  exact ⟨rfl, reread_of_mapM renewed⟩

theorem Reread.eq_iff (reread : r.Reread r') : r' = r ↔ ∀ c ∈ r.conditions, c.Reread c := by
  obtain ⟨logic, conditions⟩ := reread
  constructor
  · rintro rfl
    exact List.forall₂_same.mp conditions
  · intro self
    -- Each condition is read as one only, so a rule that can be read as itself is.
    obtain ⟨l, cs⟩ := r
    obtain ⟨l', cs'⟩ := r'
    obtain rfl : l' = l := logic
    obtain rfl : cs' = cs :=
      Condition.reread_unique.forall₂ conditions (List.forall₂_same.mpr self)
    rfl

end Rule

theorem Params.applyTo_reread_iff {params : Params} {r : Rule} :
    (∀ c ∈ (params.applyTo r).conditions, c.Reread c) ↔
      r.Canonical ∧ ∀ c ∈ r.conditions, Retold (params.valueOf c) := by
  have members : (∀ c ∈ (params.applyTo r).conditions, c.Reread c) ↔
      ∀ c ∈ r.conditions, ({ c with value := params.valueOf c } : Condition).Reread
        { c with value := params.valueOf c } :=
    List.forall_mem_map
  rw [members]
  constructor
  · intro all
    refine ⟨fun c among => ?_, fun c among => (Condition.reread_self_iff.mp (all c among)).1⟩
    obtain ⟨-, field, operator, reference⟩ := Condition.reread_self_iff.mp (all c among)
    exact ⟨field, operator, reference⟩
  · rintro ⟨canonical, retold⟩ c among
    obtain ⟨field, operator, reference⟩ := canonical c among
    exact Condition.reread_self_iff.mpr ⟨retold c among, field, operator, reference⟩

namespace Desk

variable {d : Desk} {e : Surroundings} {template code name : String} {params : Params} {a : Alert}

/-- The rule of an alert that was made from a template is the one that the parameters made, written
out and read again. It is that very rule exactly if its names are canonical and every value is given
back by its number text, as every value is that stands for a decimal of at most fifteen digits. -/
theorem instantiate_rereads (made : (d.instantiate e template code name params).1 = .ok a) :
    ∃ t, d.store.findTemplate? template = some t ∧ (params.applyTo t.rule).Reread a.rule ∧
      (a.rule = params.applyTo t.rule ↔
        t.rule.Canonical ∧ ∀ c ∈ t.rule.conditions, Retold (params.valueOf c)) ∧
      (t.rule.Canonical → (∀ c ∈ t.rule.conditions, FewDigits (params.valueOf c)) →
        a.rule = params.applyTo t.rule) := by
  obtain ⟨t, hours, c, found, -, checked, rfl⟩ := instantiate_made made
  have reread := Rule.reread_of_ofJson (Definition.check_ok checked).2.rule
  have unaltered := reread.eq_iff.trans Params.applyTo_reread_iff
  refine ⟨t, found, reread, unaltered, fun canonical fewDigits => ?_⟩
  exact unaltered.mpr ⟨canonical, fun c among => (fewDigits c among).retold⟩

def lively : Params := [("volume_ratio", 2.35)]

theorem volume_spike_unaltered :
    ∃ a, (supplied.instantiate { now := 0 } "volume_spike" "sh600000" "Bank" lively).1 = .ok a ∧
      a.rule = lively.applyTo volumeSpike.rule := by
  have accepted : (supplied.instantiate { now := 0 } "volume_spike" "sh600000" "Bank"
      lively).1.toOption.isSome = true := by
    decide +kernel
  obtain ⟨a, made⟩ := Option.isSome_iff_exists.mp accepted
  have made := ok_of_toOption made
  obtain ⟨t, found, -, -, unaltered⟩ := instantiate_rereads made
  have known : supplied.store.findTemplate? "volume_spike" = some volumeSpike := rfl
  cases known.symm.trans found
  have ratio : FewDigits 2.35 := by
    have parts : Decimal.Binary.ofFloat 2.35 = .finite false 5291729562160333 (-51) := by
      decide +kernel
    refine ⟨false, 5291729562160333, 235, 2, -51, parts, by decide, by decide, ?_⟩
    constructor <;> norm_num [Decimal.below]
  have change : FewDigits 0 := by
    have parts : Decimal.Binary.ofFloat 0 = .finite false 0 (-1074) := by decide +kernel
    refine ⟨false, 0, 0, 0, -1074, parts, by decide, by decide, ?_⟩
    simpa [Decimal.size] using Decimal.InSpan.self 0 (-1074)
  have fewDigits : ∀ c ∈ volumeSpike.rule.conditions, FewDigits (lively.valueOf c) := by
    have values : volumeSpike.rule.conditions.map lively.valueOf = [2.35, 0] := by decide +kernel
    intro c among
    have value : lively.valueOf c ∈ [2.35, 0] := values ▸ List.mem_map_of_mem among
    rcases List.mem_pair.mp value with same | same
    · exact same ▸ ratio
    · exact same ▸ change
  exact ⟨a, made, unaltered (Template.builtin_canonical _ (by simp [volumeSpike])) fewDigits⟩

def greatestOdd : Params := [("value", 9007199254740991)]

def priceSurge : Template := Template.builtin[0]

/-- The text of the greatest odd float has sixteen digits and a zero behind the point, which make a
significand of more than 53 bits. -/
theorem greatest_odd_altered :
    (∀ p ∈ greatestOdd, p.2.isFinite = true) ∧
    supplied.store.findTemplate? "price_surge" = some priceSurge ∧ priceSurge.rule.Canonical ∧
    ∃ a, (supplied.instantiate { now := 0 } "price_surge" "AAPL" "N" greatestOdd).1 = .ok a ∧
      a.rule.conditions.map (·.value) = [9007199254740990] ∧
      a.rule ≠ greatestOdd.applyTo priceSurge.rule := by
  have accepted : ((supplied.instantiate { now := 0 } "price_surge" "AAPL" "N"
      greatestOdd).1.toOption.any fun a => a.rule.conditions.map (·.value) = [9007199254740990]) =
        true := by
    decide +kernel
  obtain ⟨a, made, values⟩ := (Option.any_eq_true _ _).mp accepted
  have values := of_decide_eq_true values
  refine ⟨by decide +kernel, rfl, Template.builtin_canonical _ (by simp [priceSurge]), a,
    ok_of_toOption made, values, fun same => ?_⟩
  rw [same] at values
  revert values
  decide +kernel

end Desk

end TickerWatch
