import Mathlib.Data.List.DropRight
import TickerWatch.Proofs.Rule.Canonical
import TickerWatch.Proofs.Desk.Checks
import TickerWatch.Proofs.Desk.Requests

namespace TickerWatch

namespace Text

theorem trimRight_trimRight (cs : List Char) : trimRight (trimRight cs) = trimRight cs := by
  have rdrop : ∀ cs, trimRight cs = cs.rdropWhile isBlank := fun _ => rfl
  simp only [rdrop]
  exact List.rdropWhile_idempotent isBlank cs

theorem trimLeft_trimRight {cs : List Char} (trimmed : trimLeft cs = cs) :
    trimLeft (trimRight cs) = trimRight cs := by
  have front : trimRight cs <+: cs := List.rdropWhile_prefix isBlank cs
  cases kept : trimRight cs with
  | nil => rfl
  | cons c rest =>
    rw [kept] at front
    obtain ⟨blanks, rfl⟩ := front
    by_cases blank : isBlank c = true
    · have shorter := congrArg List.length trimmed
      have bound := ((rest ++ blanks).dropWhile_sublist isBlank).length_le
      simp only [trimLeft, List.cons_append, List.dropWhile_cons, blank, ↓reduceIte,
        List.length_cons] at shorter
      omega
    · rw [trimLeft, List.dropWhile_cons_of_neg blank]

theorem trim_trim (s : String) : trim (trim s) = trim s := by
  have left : trimLeft (trimLeft s.toList) = trimLeft s.toList :=
    List.dropWhile_idempotent isBlank s.toList
  simp only [trim, String.toList_ofList]
  rw [trimLeft_trimRight left, trimRight_trimRight]

end Text

structure Acceptable (code name alertType : String) (rule : Rule) (sensitivity : Float)
    (cooldownHours : Int) : Prop where
  code : code ≠ "" ∧ ∃ s, code = Text.upper (Text.trim s)
  name : name ≠ "" ∧ Text.trim name = name
  alertType : alertType ≠ "" ∧ Text.trim alertType = alertType
  conditions : rule.conditions ≠ []
  finite : ∀ c ∈ rule.conditions, c.value.isFinite = true
  canonical : rule.Canonical
  sensitivity : sensitivity.isFinite = true ∧ 0 ≤ sensitivity ∧ sensitivity ≤ 0.1
  cooldownHours : 0 ≤ cooldownHours ∧ cooldownHours ≤ 24

def Alert.WellFormed (a : Alert) : Prop :=
  Acceptable a.code a.name a.alertType a.rule a.sensitivity a.cooldownHours

namespace Definition

variable {d : Definition}

theorem readRule_ok {rule : Rule} (h : d.readRule = .ok rule) :
    rule.conditions ≠ [] ∧ (∀ c ∈ rule.conditions, c.value.isFinite = true) ∧ rule.Canonical := by
  unfold readRule at h
  split at h
  · cases h
  · rename_i found read
    split at h
    · cases h
    · rename_i nonempty
      split at h
      · cases h
      · rename_i finite
        cases h
        refine ⟨by simpa using nonempty, ?_, Rule.ofJson_canonical read⟩
        simpa [List.find?_eq_none] using finite

theorem allowedSensitivity_ok {x : Float} (h : allowedSensitivity x = true) :
    x.isFinite = true ∧ 0 ≤ x ∧ x ≤ 0.1 := by
  simp only [allowedSensitivity, Bool.and_eq_true, decide_eq_true_eq] at h
  exact ⟨h.1.1, h.1.2, h.2⟩

theorem allowedCooldown_ok {hours : Int} (h : allowedCooldown hours = true) :
    0 ≤ hours ∧ hours ≤ 24 := by
  simp only [allowedCooldown, Bool.and_eq_true, decide_eq_true_eq] at h
  exact h

/-- Only a definition that has passed every test is accepted. -/
theorem check_acceptable {c : Checked} (h : d.check = .ok c) :
    Acceptable c.code c.name c.alertType c.rule d.sensitivity d.cooldownHours := by
  unfold check at h
  dsimp only at h
  split at h
  · cases h
  rename_i code
  split at h
  · cases h
  rename_i name
  split at h
  · cases h
  rename_i alertType
  split at h
  · cases h
  rename_i rule read
  split at h
  · cases h
  rename_i sensitivity
  split at h
  · cases h
  rename_i cooldownHours
  split at h
  · cases h
  rw [← Except.ok.inj h]
  obtain ⟨conditions, finite, canonical⟩ := readRule_ok read
  dsimp only
  constructor
  · exact ⟨by simpa using code, d.code, rfl⟩
  · exact ⟨by simpa using name, Text.trim_trim d.name⟩
  · exact ⟨by simpa using alertType, Text.trim_trim d.alertType⟩
  · exact conditions
  · exact finite
  · exact canonical
  · exact allowedSensitivity_ok (by simpa using sensitivity)
  · exact allowedCooldown_ok (by simpa using cooldownHours)

end Definition

end TickerWatch
