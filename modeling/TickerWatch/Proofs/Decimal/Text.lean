import TickerWatch.Decimal.Text

namespace TickerWatch.Decimal

theorem toDigits_head {n : Nat} (positive : 0 < n) : (Nat.toDigits 10 n).head? ≠ some '0' := by
  induction n using Nat.strongRecOn with
  | ind n ih =>
    rw [Nat.toDigits_eq_if (by decide)]
    split
    · rename_i small
      have single : ∀ n < 10, 0 < n → [n.digitChar].head? ≠ some '0' := by decide
      exact single n small positive
    · have fewer := ih (n / 10) (by omega) (by omega)
      cases front : Nat.toDigits 10 (n / 10) with
      | nil => exact absurd front Nat.toDigits_ne_nil
      | cons c more =>
        rw [front] at fewer
        exact fewer

theorem pow_le_of_toDigits {n : Nat} (positive : 0 < n) :
    Nat.pow 10 ((Nat.toDigits 10 n).length - 1) ≤ n := by
  by_cases single : (Nat.toDigits 10 n).length = 1
  · rw [single]
    exact positive
  · have nonempty : 0 < (Nat.toDigits 10 n).length := Nat.length_toDigits_pos
    apply Nat.le_of_not_lt
    intro smaller
    have shorter := (Nat.length_toDigits_le_iff (b := 10) (by decide) (by omega)).mpr smaller
    omega

theorem lt_pow_toDigits (n : Nat) : n < Nat.pow 10 (Nat.toDigits 10 n).length :=
  (Nat.length_toDigits_le_iff (by decide) Nat.length_toDigits_pos).mp (Nat.le_refl _)

def Reaches (num den : Nat) (power : Int) : Prop :=
  den * Nat.pow 10 power.toNat ≤ num * Nat.pow 10 (-power).toNat

variable {num den : Nat}

theorem Reaches.lower {power lower : Int} (reaches : Reaches num den power)
    (below : lower ≤ power) : Reaches num den lower := by
  have up : Nat.pow 10 lower.toNat ≤ Nat.pow 10 power.toNat :=
    Nat.pow_le_pow_right (by decide) (by omega)
  have down : Nat.pow 10 (-power).toNat ≤ Nat.pow 10 (-lower).toNat :=
    Nat.pow_le_pow_right (by decide) (by omega)
  calc den * Nat.pow 10 lower.toNat
      ≤ den * Nat.pow 10 power.toNat := Nat.mul_le_mul_left den up
    _ ≤ num * Nat.pow 10 (-power).toNat := reaches
    _ ≤ num * Nat.pow 10 (-lower).toNat := Nat.mul_le_mul_left num down

theorem magnitude_reaches (positive : 0 < num) (divides : 0 < den) :
    Reaches num den (magnitude num den) := by
  unfold magnitude Reaches
  split
  · rename_i atLeast
    have first := pow_le_of_toDigits (Nat.div_pos atLeast divides)
    have nonempty : 0 < (Nat.toDigits 10 (num / den)).length := Nat.length_toDigits_pos
    have up : (((Nat.toDigits 10 (num / den)).length : Int) - 1).toNat =
        (Nat.toDigits 10 (num / den)).length - 1 := by omega
    have down : (-(((Nat.toDigits 10 (num / den)).length : Int) - 1)).toNat = 0 := by omega
    rw [up, down]
    calc den * Nat.pow 10 ((Nat.toDigits 10 (num / den)).length - 1)
        ≤ den * (num / den) := Nat.mul_le_mul_left den first
      _ ≤ num := Nat.mul_div_le num den
      _ = num * Nat.pow 10 0 := (Nat.mul_one num).symm
  · have nonempty : 0 < (Nat.toDigits 10 (den / num)).length := Nat.length_toDigits_pos
    dsimp only
    split
    · rename_i enough
      have up : (1 - ((Nat.toDigits 10 (den / num)).length : Int)).toNat = 0 := by omega
      have down : (-(1 - ((Nat.toDigits 10 (den / num)).length : Int))).toNat =
          (Nat.toDigits 10 (den / num)).length - 1 := by omega
      rw [up, down]
      exact (Nat.mul_one den).symm ▸ enough
    · have up : (-((Nat.toDigits 10 (den / num)).length : Int)).toNat = 0 := by omega
      have down : (-(-((Nat.toDigits 10 (den / num)).length : Int))).toNat =
          (Nat.toDigits 10 (den / num)).length := by omega
      have quotient := (Nat.div_lt_iff_lt_mul positive).mp (lt_pow_toDigits (den / num))
      rw [up, down, Nat.mul_comm num]
      exact (Nat.mul_one den).symm ▸ Nat.le_of_lt quotient

namespace Span

variable {s : Span}

theorem not_holds_zero (above : 0 < s.low) (power : Int) : s.holds ⟨0, power⟩ = false := by
  have unit : 0 < Nat.pow 10 (-power).toNat := Nat.pow_pos (by decide)
  have least : 0 < s.low * Nat.pow 10 (-power).toNat := Nat.mul_pos above unit
  have beyond : ¬ s.low * Nat.pow 10 (-power).toNat ≤ 0 := Nat.not_le_of_lt least
  cases closed : s.closed with
  | false => simp [holds, closed]
  | true =>
    simp only [holds, closed, ↓reduceIte, Nat.zero_mul, beyond, decide_false, Bool.false_and]

theorem holds_digits (above : 0 < s.low) {x : Digits} (holds : s.holds x = true) :
    x.digits ≠ 0 := by
  intro zero
  obtain ⟨digits, power⟩ := x
  obtain rfl : digits = 0 := zero
  rw [not_holds_zero above] at holds
  cases holds

theorem pick?_some {power : Int} {x : Digits} (picked : s.pick? power = some x) :
    s.holds x = true ∧ x.power = power := by
  unfold pick? at picked
  dsimp only at picked
  split at picked
  · rename_i low high
    split at picked <;> cases picked
    · exact ⟨high, rfl⟩
    · exact ⟨low, rfl⟩
  · rename_i low high
    cases picked
    exact ⟨low, rfl⟩
  · rename_i low high
    cases picked
    exact ⟨high, rfl⟩
  · cases picked

theorem pick?_digits (above : 0 < s.low) {power : Int} {x : Digits}
    (picked : s.pick? power = some x) : x.digits ≠ 0 :=
  holds_digits above (pick?_some picked).1

theorem floorAt_positive (den : 0 < s.den) {power : Int} (reaches : Reaches s.mid s.den power) :
    s.floorAt power ≠ 0 := by
  have unit : 0 < Nat.pow 10 power.toNat := Nat.pow_pos (by decide)
  exact Nat.ne_of_gt (Nat.div_pos reaches (Nat.mul_pos den unit))

theorem search_digits (above : 0 < s.low) (den : 0 < s.den) {grids : Nat} {power : Int}
    (reaches : Reaches s.mid s.den power) : (s.search grids power).digits ≠ 0 := by
  -- The last resort is the floor on the finest grid, which the value itself reaches.
  induction grids generalizing power with
  | zero => exact floorAt_positive den reaches
  | succ grids ih =>
    unfold search
    cases picked : s.pick? power with
    | none => exact ih (reaches.lower (by omega))
    | some x => exact pick?_digits above picked

theorem ofBinary_low {mantissa : Nat} (positive : 0 < mantissa) (exponent : Int) :
    0 < (ofBinary mantissa exponent).low := by
  have scale : 0 < Nat.pow 2 (exponent - 2).toNat := Nat.pow_pos (by decide)
  unfold ofBinary
  apply Nat.mul_pos _ scale
  split <;> omega

end Span

theorem stripZeros_digits {places : Nat} {x : Digits} (nonzero : x.digits ≠ 0) :
    (stripZeros places x).digits ≠ 0 := by
  induction places generalizing x with
  | zero => exact nonzero
  | succ places ih =>
    unfold stripZeros
    split
    · rename_i divides
      apply ih
      show x.digits / 10 ≠ 0
      omega
    · exact nonzero

theorem shortest_digits {mantissa : Nat} (positive : 0 < mantissa) (exponent : Int) :
    (shortest mantissa exponent).digits ≠ 0 := by
  have den : 0 < (Span.ofBinary mantissa exponent).den := Nat.pow_pos (by decide)
  have mid : 0 < (Span.ofBinary mantissa exponent).mid :=
    Nat.mul_pos (by omega) (Nat.pow_pos (by decide))
  unfold shortest
  rw [if_neg (Nat.ne_of_gt positive)]
  exact stripZeros_digits
    (Span.search_digits (Span.ofBinary_low positive exponent) den (magnitude_reaches mid den))

section Finite

open Float.Model

theorem unpackExponent_toNat (bits : BitVec 64) :
    (@UnpackedFloat.unpackExponent Format.binary64 bits).toNat =
      bits.toNat / Nat.pow 2 52 % 2048 := by
  simp only [UnpackedFloat.unpackExponent, BitVec.toNat_cast, BitVec.extractLsb_toNat,
    Nat.shiftRight_eq_div_pow]

theorem unpack_isFinite {bits : BitVec 64}
    (partly : @UnpackedFloat.unpackExponent Format.binary64 bits ≠ -1#11) :
    (UnpackedFloat.unpack Format.binary64 bits).isFinite = true := by
  unfold UnpackedFloat.unpack
  dsimp only
  rw [if_neg partly]
  by_cases least : @UnpackedFloat.unpackExponent Format.binary64 bits = 0#11
  · rw [if_pos least]
    by_cases zero : @UnpackedFloat.unpackMantissa Format.binary64 bits = 0#52
    · rw [dif_pos zero]
      rfl
    · rw [dif_neg zero]
      rfl
  · rw [if_neg least]
    rfl

theorem exponent_of_not_finite {x : Float} (infinite : x.isFinite = false) :
    x.toBits.toNat / Nat.pow 2 52 % 2048 = 2047 := by
  have exponent := unpackExponent_toNat x.toBits.toBitVec
  have full : @UnpackedFloat.unpackExponent Format.binary64 x.toBits.toBitVec = -1#11 := by
    apply Classical.byContradiction
    intro partly
    have finite : x.isFinite = true := unpack_isFinite partly
    rw [finite] at infinite
    cases infinite
  rw [full] at exponent
  exact exponent.symm

end Finite

theorem text?_not_finite {x : Float} (infinite : x.isFinite = false) : text? x = none := by
  have full := exponent_of_not_finite infinite
  unfold text? Binary.ofFloat Binary.ofBits
  simp only [full, ↓reduceIte]
  by_cases fraction : x.toBits.toNat % Nat.pow 2 52 = 0 <;> simp only [fraction, ↓reduceIte]

end TickerWatch.Decimal
