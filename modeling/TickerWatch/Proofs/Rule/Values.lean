import TickerWatch.Proofs.Decimal.Brief
import TickerWatch.Proofs.Rule.RoundTrip

namespace TickerWatch

namespace Json

open Text Decimal

theorem le_ofDigitChars (cs : List Char) (init : Nat) : init ≤ Nat.ofDigitChars 10 cs init := by
  rw [Nat.ofDigitChars_eq_ofDigitChars_zero]
  exact Nat.le_add_right_of_le (Nat.le_mul_of_pos_left init (Nat.pow_pos (by decide)))

theorem absorb_all {cs : List Char} {init : Nat}
    (fits : Nat.ofDigitChars 10 cs init < significandLimit) :
    absorb init cs = (Nat.ofDigitChars 10 cs init, 0) := by
  induction cs generalizing init with
  | nil => rfl
  | cons c cs ih =>
    have next : 10 * init + digitOf c < significandLimit :=
      (le_ofDigitChars cs (10 * init + digitOf c)).trans_lt fits
    unfold absorb
    dsimp only
    rw [if_pos next]
    exact ih fits

theorem Numeral.real_eq {n : Numeral} (fits : n.amount.digits < significandLimit)
    (near : ∀ e, n.exponent = some e → digitsValue e.digits < exponentLimit) :
    n.real = match scaled? n.amount.digits n.amount.power with
      | some x => .ok (signed n.negative x)
      | none => .error .numberOutOfRange := by
  obtain ⟨negative, whole, fraction, exponent⟩ := n
  have split : digitsValue (whole ++ fraction) = Nat.ofDigitChars 10 fraction (digitsValue whole) :=
    digitsValue_append whole fraction
  have fits : digitsValue (whole ++ fraction) < significandLimit := fits
  have front : absorb 0 whole = (digitsValue whole, 0) := by
    apply absorb_all
    rw [split] at fits
    exact (le_ofDigitChars fraction _).trans_lt fits
  have back : absorb (digitsValue whole) fraction = (digitsValue (whole ++ fraction), 0) := by
    rw [split] at fits ⊢
    exact absorb_all fits
  unfold Numeral.real
  dsimp only
  rw [front]
  dsimp only
  rw [back]
  dsimp only
  cases exponent with
  | none => rfl
  | some e =>
    have power :
        (if e.negative then ((0 : Nat) : Int) - (fraction.length - 0 : Nat) - digitsValue e.digits
          else (0 : Nat) - (fraction.length - 0 : Nat) + digitsValue e.digits) =
        (if e.negative then -(digitsValue e.digits : Int) else digitsValue e.digits) -
          fraction.length := by
      split <;> omega
    dsimp only [Option.map]
    rw [if_neg (Nat.not_le_of_lt (near e rfl)), power]
    rfl

theorem Numeral.value_eq {n : Numeral} (real : n.fraction ≠ [] ∨ n.exponent ≠ none) :
    n.value = n.real.map .real := by
  have pointed : ¬ (n.fraction.isEmpty && n.exponent.isNone && (absorb 0 n.whole).2 = 0) = true := by
    rcases real with fraction | exponent
    · simp [fraction]
    · simp [exponent]
  unfold Numeral.value
  rw [if_neg pointed]

theorem real_answers_of_value {x y : Float} {n : Numeral} (proper : n.Proper)
    (text : text? x = some n.chars) (value : n.value = .ok (.real y)) :
    real.Answers (.real x) (some y) := by
  have written : (Value.real x).write = n.chars := by simp [Value.write, writeReal, text]
  intro rest ends
  rw [written]
  refine (leaf_numeral proper ends _ _).trans ?_
  rw [value]
  rfl

end Json

def Retold (x : Float) : Prop := reading x = some x

instance (x : Float) : Decidable (Retold x) := inferInstanceAs (Decidable (reading x = some x))

namespace Decimal

open Json

variable {x : Digits}

theorem Digits.Brief.few (brief : x.Brief) : x.digits < 10 ^ 15 :=
  (Nat.le_mul_of_pos_right _ (Nat.pow_pos (by decide))).trans_lt brief.whole

theorem Digits.Brief.power_lt (brief : x.Brief) (above : 0 < x.digits) : x.power < 15 := by
  have scale : 10 ^ x.power.toNat < 10 ^ 15 :=
    (Nat.le_mul_of_pos_left _ above).trans_lt brief.whole
  have := (Nat.pow_lt_pow_iff_right (by decide)).mp scale
  omega

/-- The numeral of brief digits is read as the float in whose span they lie. -/
theorem scaled?_brief {n : Numeral} {first : ℤ} {m : ℕ} {e : ℤ} (makes : n.Makes x first)
    (brief : x.Brief) (above : 0 < x.digits) (legal : Legal m e) (positive : 0 < m)
    (span : InSpan x.value m e) :
    n.amount.digits < significandLimit ∧
      ∃ y, scaled? n.amount.digits n.amount.power = some y ∧
        Binary.ofFloat y = .finite false m e := by
  have few := brief.few
  have high := brief.power_lt above
  have limit : significandLimit = 2 ^ 64 := rfl
  rcases makes.amount with plain | ⟨whole, padded⟩
  · have same : x.digits * 2 ^ 0 = x.digits := Nat.mul_one _
    have span : InSpan ((x.digits * 2 ^ 0 : ℕ) * 10 ^ x.power) m e := by
      rw [same]
      exact span
    have read :=
      scaled?_span above (by omega) (by omega) legal positive brief.places (by omega) span
    rw [same] at read
    rw [plain, limit]
    exact ⟨by omega, read⟩
  · -- The zero behind the point makes the significand even: one bit more would not fit.
    have even : x.digits * Nat.pow 10 (x.power.toNat + 1) =
        x.digits * 10 ^ x.power.toNat * 5 * 2 ^ 1 := by
      rw [Nat.pow_eq, Nat.pow_succ]
      ring
    have value :
        ((x.digits * 10 ^ x.power.toNat * 5 * 2 ^ 1 : ℕ) : ℚ) * 10 ^ (-1 : ℤ) = x.value := by
      have power : (10 : ℚ) ^ x.power = 10 ^ x.power.toNat := by
        rw [← zpow_natCast, Int.toNat_of_nonneg whole]
      rw [Digits.value, power]
      push_cast
      ring
    have span : InSpan ((x.digits * 10 ^ x.power.toNat * 5 * 2 ^ 1 : ℕ) * 10 ^ (-1 : ℤ)) m e := by
      rwa [value]
    have short := brief.whole
    have some : 0 < x.digits * 10 ^ x.power.toNat * 5 :=
      Nat.mul_pos (Nat.mul_pos above (Nat.pow_pos (by decide))) (by decide)
    have read := scaled?_span some (by omega) (by omega) legal positive (by decide) (by decide) span
    rw [← even] at read
    rw [padded, limit]
    exact ⟨by dsimp only; omega, read⟩

end Decimal

section Retold

open Json Decimal

variable {x : Float} {negative : Bool} {m : ℕ} {e : ℤ}

theorem retold_zero (parts : Binary.ofFloat x = .finite negative 0 e) : Retold x := by
  have legal := ofBits_legal parts
  have least : e = -1074 := legal.full.resolve_left (by decide)
  rw [least] at parts
  cases negative with
  | false =>
    have zero : Binary.ofFloat 0 = .finite false 0 (-1074) := by decide +kernel
    rw [eq_of_parts parts zero]
    decide +kernel
  | true =>
    have zero : Binary.ofFloat (-0) = .finite true 0 (-1074) := by decide +kernel
    rw [eq_of_parts parts zero]
    decide +kernel

theorem retold_nonzero (positive : 0 < m) (parts : Binary.ofFloat x = .finite negative m e)
    (brief : (shortest m e).Brief) : Retold x := by
  have legal := ofBits_legal parts
  have above := Nat.pos_of_ne_zero (shortest_digits positive e)
  have span := shortest_span positive brief.few
  obtain ⟨n, proper, rfl, text, makes⟩ := text?_finite parts
  obtain ⟨fits, y, scaled, partsY⟩ := scaled?_brief makes brief above legal positive span
  have near : ∀ shift, n.exponent = some shift → Text.digitsValue shift.digits < exponentLimit := by
    intro shift given
    have few := brief.few
    have low := brief.places
    have high := brief.power_lt above
    have length : (Nat.toDigits 10 (shortest m e).digits).length ≤ 15 :=
      (Nat.length_toDigits_le_iff (by decide) (by decide)).mpr few
    have limit : exponentLimit = 2 ^ 31 := rfl
    rw [makes.exponent shift given, limit]
    omega
  have value : n.value = .ok (.real (signed n.negative y)) := by
    rw [Numeral.value_eq makes.real, Numeral.real_eq fits near, scaled]
    rfl
  have same : signed n.negative y = x := by
    refine eq_of_parts ?_ parts
    cases n.negative with
    | false => exact partsY
    | true => exact neg_parts legal positive partsY
  have read := (real_answers_of_value proper text value).readAll
  rwa [same] at read

/-- A float that is, but for its sign, the nearest to a decimal number of at most fifteen digits, no
more than 21 places of it behind the point. -/
def FewDigits (x : Float) : Prop :=
  ∃ (negative : Bool) (m n k : ℕ) (e : ℤ), Binary.ofFloat x = .finite negative m e ∧
    n < 10 ^ 15 ∧ k ≤ 21 ∧ InSpan (n / 10 ^ k) m e

theorem FewDigits.retold (fewDigits : FewDigits x) : Retold x := by
  obtain ⟨negative, m, n, k, e, parts, few, places, span⟩ := fewDigits
  -- Zero has no first digit to search from; its two texts are read by themselves.
  rcases Nat.eq_zero_or_pos m with rfl | positive
  · exact retold_zero parts
  · exact retold_nonzero positive parts
      (shortest_brief positive span (ofBits_legal parts) places few)

end Retold

end TickerWatch
