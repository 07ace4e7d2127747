import TickerWatch.Decimal.Scaled
import TickerWatch.Proofs.Decimal.Packing
import TickerWatch.Proofs.Decimal.Rounding

namespace TickerWatch.Decimal

open Float.Model Float.Model.UnpackedFloat

def size (m : ℕ) (e : ℤ) : ℚ := m * 2 ^ e

variable {m m₁ m₂ n : ℕ} {e e₁ e₂ k : ℤ} {x y : Float}

theorem tells_exact (n : ℕ) (k : ℤ) :
    Tells (ExtendedMantissa.ofMantissaAndAccuracy n .exact) (size n k / 2 ^ k) := by
  have scale : (0 : ℚ) < 2 ^ k := zpow_pos two_pos k
  show size n k / 2 ^ k = n
  rw [size, mul_div_cancel_right₀ _ scale.ne']

theorem accuracy_tells {q r den : ℕ} (part : r < den) :
    Tells (ExtendedMantissa.ofMantissaAndAccuracy q (accuracyOfFraction r den)) (q + r / den) := by
  have scale : (0 : ℚ) < den := by exact_mod_cast Nat.zero_lt_of_lt part
  have whole : (r / den : ℚ) < 1 := by
    rw [div_lt_one scale]
    exact_mod_cast part
  unfold accuracyOfFraction
  split
  · rename_i none
    show (q + r / den : ℚ) = q
    rw [none, Nat.cast_zero, zero_div, add_zero]
  · rename_i some
    have above : (0 : ℚ) < r / den := div_pos (by exact_mod_cast Nat.pos_of_ne_zero some) scale
    rcases Nat.lt_trichotomy (2 * r) den with less | same | more
    · have half : (r / den : ℚ) < 1 / 2 := by
        rw [div_lt_div_iff₀ scale two_pos]
        exact_mod_cast (by omega : r * 2 < 1 * den)
      rw [Nat.compare_eq_lt.mpr less]
      show (q : ℚ) < q + r / den ∧ (q + r / den : ℚ) < q + 1 / 2
      exact ⟨by linarith, by linarith⟩
    · have half : (r / den : ℚ) = 1 / 2 := by
        rw [div_eq_div_iff scale.ne' two_ne_zero]
        exact_mod_cast (by omega : r * 2 = 1 * den)
      rw [Nat.compare_eq_eq.mpr same, half]
      rfl
    · have half : (1 / 2 : ℚ) < r / den := by
        rw [div_lt_div_iff₀ two_pos scale]
        exact_mod_cast (by omega : 1 * den < r * 2)
      rw [Nat.compare_eq_gt.mpr more]
      show (q + 1 / 2 : ℚ) < q + r / den ∧ (q + r / den : ℚ) < q + 1
      exact ⟨by linarith, by linarith⟩

theorem quotient_tells {num den : ℕ} (positive : 0 < den) :
    Tells (ExtendedMantissa.ofMantissaAndAccuracy (num / den) (accuracyOfFraction (num % den) den))
      (num / den) := by
  have scale : (den : ℚ) ≠ 0 := by exact_mod_cast positive.ne'
  have split : (num : ℚ) = (num / den : ℕ) * den + (num % den : ℕ) := by
    exact_mod_cast (Nat.div_add_mod' num den).symm
  have parts : (num / den : ℚ) = (num / den : ℕ) + (num % den : ℕ) / den := by
    rw [eq_comm, eq_div_iff scale, add_mul, div_mul_cancel₀ _ scale, ← split]
  rw [parts]
  exact accuracy_tells (Nat.mod_lt num positive)

theorem round_exact {s : Sign} (legal : Legal m e) (positive : 0 < m) (some : 0 < n)
    (coarse : k ≤ grid n k) (span : InSpan (size n k) m e) :
    roundWithAccuracy .binary64 s n k .exact = .finite s m e positive :=
  roundWithAccuracy_span s legal positive some coarse (tells_exact n k) span

theorem grid_le (full : 2 ^ 52 ≤ n) (k : ℤ) : k ≤ grid n k := by
  have bits : 52 ≤ n.log2 := (Nat.le_log2 (by omega)).mpr full
  rw [grid_eq]
  omega

theorem size_mul (m₁ m₂ : ℕ) (e₁ e₂ : ℤ) :
    size (m₁ * m₂) (e₁ + e₂) = size m₁ e₁ * size m₂ e₂ := by
  unfold size
  rw [zpow_add₀ two_ne_zero]
  push_cast
  ring

theorem mul_finite {s₁ s₂ : Sign} (positive₁ : 0 < m₁) (positive₂ : 0 < m₂) :
    UnpackedFloat.mul .binary64 (.finite s₁ m₁ e₁ positive₁) (.finite s₂ m₂ e₂ positive₂) =
      roundWithAccuracy .binary64 (s₁ * s₂) (m₁ * m₂) (e₁ + e₂) .exact := rfl

/-- Two floats have a product that is rounded to the float in whose span it lies. -/
theorem mul_span (left : Binary.ofFloat x = .finite false m₁ e₁)
    (right : Binary.ofFloat y = .finite false m₂ e₂) (full : 2 ^ 52 ≤ m₁) (some : 0 < m₂)
    (legal : Legal m e) (positive : 0 < m)
    (span : InSpan (size m₁ e₁ * size m₂ e₂) m e) :
    Binary.ofFloat (x * y) = .finite false m e := by
  have first : 0 < m₁ := by omega
  have rounded : UnpackedFloat.mul .binary64 x.toModel.unpack y.toModel.unpack =
      .finite .positive m e positive := by
    rw [unpack_of_parts (s := .positive) first left, unpack_of_parts (s := .positive) some right]
    refine round_exact legal positive (Nat.mul_pos first some) (grid_le ?_ _) ?_
    · exact full.trans (Nat.le_mul_of_pos_right m₁ some)
    · rwa [size_mul]
  have packed : x * y = .ofModel (.pack (.finite .positive m e positive)) :=
    congrArg (fun u => Float.ofModel (.pack u)) rounded
  rw [packed, parts_of_pack legal positive]
  rfl

theorem size_div (m₁ m₂ : ℕ) (e₁ e₂ : ℤ) :
    size m₁ e₁ / size m₂ e₂ / 2 ^ (e₁ - e₂ - 53) = (m₁ * 2 ^ 53 : ℕ) / m₂ := by
  unfold size
  rw [zpow_sub₀ two_ne_zero, zpow_sub₀ two_ne_zero]
  push_cast
  field_simp

section Quotient

variable (full₁ : 2 ^ 52 ≤ m₁) (full₂ : 2 ^ 52 ≤ m₂) (bound₁ : m₁ < 2 ^ 53) (bound₂ : m₂ < 2 ^ 53)

include full₁ full₂ bound₁ bound₂

theorem divCore_full (normal : -1021 ≤ e₁ - e₂) :
    divCore .binary64 m₁ e₁ m₂ e₂ =
      (m₁ * 2 ^ 53 / m₂, e₁ - e₂ - 53, accuracyOfFraction (m₁ * 2 ^ 53 % m₂) m₂) := by
  have bits : Format.binary64.mantissaBits = 53 := rfl
  have least : Format.binary64.minExponent = -1074 := rfl
  have target : min (e₁ - e₂)
      (Format.binary64.targetExponent (totalExponent m₁ e₁ - totalExponent m₂ e₂)) =
        e₁ - e₂ - 53 := by
    unfold Format.targetExponent totalExponent
    rw [bits, least, log2_full full₁ bound₁, log2_full full₂ bound₂]
    omega
  have shift : (e₁ - e₂ - (e₁ - e₂ - 53)).toNat = 53 := by omega
  unfold divCore
  dsimp only
  rw [target, shift, Nat.shiftLeft_eq]

/-- Two floats have a quotient that is rounded to the float in whose span it lies. -/
theorem div_span (left : Binary.ofFloat x = .finite false m₁ e₁)
    (right : Binary.ofFloat y = .finite false m₂ e₂) (normal : -1021 ≤ e₁ - e₂)
    (legal : Legal m e) (positive : 0 < m)
    (span : InSpan (size m₁ e₁ / size m₂ e₂) m e) :
    Binary.ofFloat (x / y) = .finite false m e := by
  have first : 0 < m₁ := by omega
  have second : 0 < m₂ := by omega
  have full : 2 ^ 52 ≤ m₁ * 2 ^ 53 / m₂ := by
    rw [Nat.le_div_iff_mul_le second]
    exact Nat.mul_le_mul full₁ bound₂.le
  have tells : Tells
      (ExtendedMantissa.ofMantissaAndAccuracy (m₁ * 2 ^ 53 / m₂)
        (accuracyOfFraction (m₁ * 2 ^ 53 % m₂) m₂))
      (size m₁ e₁ / size m₂ e₂ / 2 ^ (e₁ - e₂ - 53)) := by
    rw [size_div]
    exact quotient_tells second
  have rounded : UnpackedFloat.div .binary64 x.toModel.unpack y.toModel.unpack =
      .finite .positive m e positive := by
    rw [unpack_of_parts (s := .positive) first left, unpack_of_parts (s := .positive) second right]
    unfold UnpackedFloat.div
    dsimp only
    rw [divCore_full full₁ full₂ bound₁ bound₂ normal]
    exact roundWithAccuracy_span .positive legal positive (by omega) (grid_le full _) tells span
  have packed : x / y = .ofModel (.pack (.finite .positive m e positive)) :=
    congrArg (fun u => Float.ofModel (.pack u)) rounded
  rw [packed, parts_of_pack legal positive]
  rfl

end Quotient

section Integers

theorem InSpan.self (m : ℕ) (e : ℤ) : InSpan (size m e) m e := by
  have scale : (0 : ℚ) < 2 ^ (e - 2) := zpow_pos two_pos _
  have quarters : size m e = 4 * m * 2 ^ (e - 2) := by
    rw [quarter, size]
    ring
  have some : (0 : ℚ) < below m e := by
    unfold below
    split <;> norm_num
  have low : (4 * m - below m e) * (2 : ℚ) ^ (e - 2) < 4 * m * 2 ^ (e - 2) :=
    mul_lt_mul_of_pos_right (by linarith) scale
  have high : (4 * m : ℚ) * 2 ^ (e - 2) < (4 * m + 2) * 2 ^ (e - 2) :=
    mul_lt_mul_of_pos_right (by linarith) scale
  rw [quarters]
  exact ⟨low.le, high.le, fun _ => ⟨low, high⟩⟩

theorem size_shift (n j : ℕ) (k : ℤ) : size (n <<< j) (k - j) = size n k := by
  unfold size
  rw [Nat.shiftLeft_eq, zpow_sub₀ two_ne_zero, zpow_natCast]
  push_cast
  field_simp

theorem log2_shiftLeft (some : 0 < n) (j : ℕ) : (n <<< j).log2 = n.log2 + j := by
  rw [Nat.shiftLeft_eq, Nat.log2_eq_iff (Nat.mul_pos some (Nat.two_pow_pos j)).ne']
  constructor
  · rw [Nat.pow_add]
    exact Nat.mul_le_mul_right _ (Nat.log2_self_le some.ne')
  · rw [Nat.add_right_comm, Nat.pow_add]
    exact Nat.mul_lt_mul_of_pos_right Nat.lt_log2_self (Nat.two_pow_pos j)

theorem grid_shift (some : 0 < n) (j : ℕ) (k : ℤ) : grid (n <<< j) (k - j) = grid n k := by
  rw [grid_eq, grid_eq, log2_shiftLeft some]
  push_cast
  congr 1
  ring

theorem round_span {s : Sign} (legal : Legal m e) (positive : 0 < m) (some : 0 < n)
    (span : InSpan (size n k) m e) : round .binary64 s n k = .finite s m e positive := by
  show roundWithAccuracy .binary64 s (n <<< (k - grid n k).toNat) (k - (k - grid n k).toNat) .exact
    = _
  apply round_exact legal positive
  · rw [Nat.shiftLeft_eq]
    exact Nat.mul_pos some (Nat.two_pow_pos _)
  · rw [grid_shift some]
    omega
  · rwa [size_shift]

variable (legal : Legal m e) (full : 2 ^ 52 ≤ m)

include legal full

theorem toFloat_exact {w : UInt64} (exact : size m e = w.toNat) :
    Binary.ofFloat w.toFloat = .finite false m e := by
  have positive : 0 < m := by omega
  have some : 0 < w.toNat := by
    have above : (0 : ℚ) < size m e :=
      mul_pos (by exact_mod_cast positive) (zpow_pos two_pos e)
    rw [exact] at above
    exact_mod_cast above
  have span : InSpan (size w.toNat 0) m e := by
    have same : size w.toNat 0 = size m e := by rw [exact, size, zpow_zero, mul_one]
    rw [same]
    exact .self m e
  have rounded : UnpackedFloat.normalize .binary64 w.toNat 0 .positive =
      .finite .positive m e positive := by
    have more : compare (w.toNat : ℤ) 0 = .gt := Int.compare_eq_gt.mpr (by omega)
    unfold UnpackedFloat.normalize
    rw [more]
    exact round_span legal positive some span
  have packed : w.toFloat = .ofModel (.pack (.finite .positive m e positive)) :=
    congrArg (fun u => Float.ofModel (.pack u)) rounded
  rw [packed, parts_of_pack legal positive]
  rfl

theorem ofNat_exact (small : n < 2 ^ 64) (exact : size m e = n) :
    Binary.ofFloat (Float.ofNat n) = .finite false m e := by
  have positive : 0 < m := by omega
  show Binary.ofFloat (Float.ofScientific n false 0) = _
  unfold Float.ofScientific
  split
  · have word : n.toUInt64.toNat = n := UInt64.toNat_ofNat_of_lt small
    have parts := toFloat_exact legal full (w := n.toUInt64) (by rw [word, exact])
    have one : Binary.ofFloat (Float.exactlyRepresentablePowersOfTen[0]) =
        .finite false (2 ^ 52) (-52) := by
      decide +kernel
    have unit : size (2 ^ 52) (-52) = 1 := by
      unfold size
      norm_num
    refine mul_span parts one full (by decide) legal positive ?_
    rw [unit, mul_one]
    exact .self m e
  · rename_i beyond
    -- From here on the integer is multiplied by one, with 53 places behind it.
    have some : n ≠ 0 := by omega
    have scaled : 2 ^ 52 ≤ n <<< 53 * 10 ^ 0 := by
      rw [Nat.shiftLeft_eq]
      omega
    have same : size (n <<< 53 * 10 ^ 0) (-53 + 0) = size m e := by
      rw [exact, Nat.shiftLeft_eq, size]
      push_cast
      norm_num
      ring
    have rounded : UnpackedFloat.ofScientific .binary64 n 0 = .finite .positive m e positive := by
      have range : (2 : ℤ) ^ Format.binary64.exponentBits = 2048 := rfl
      unfold UnpackedFloat.ofScientific
      rw [dif_neg some, if_neg (by omega), if_neg (by omega), if_pos (Int.le_refl 0), mul_finite]
      show roundWithAccuracy .binary64 .positive (n <<< 53 * 10 ^ 0) (-53 + 0) .exact = _
      refine round_exact legal positive (by omega) (grid_le scaled _) ?_
      rw [same]
      exact .self m e
    have packed : Float.ofModel (Float.Model.ofScientific n 0) =
        .ofModel (.pack (.finite .positive m e positive)) :=
      congrArg (fun u => Float.ofModel (.pack u)) rounded
    show Binary.ofFloat (.ofModel (Float.Model.ofScientific n 0)) = _
    rw [packed, parts_of_pack legal positive]
    rfl

end Integers

section Exact

variable {n' j j' : ℕ}

def lifted (n : ℕ) : ℕ := n * 2 ^ (52 - n.log2)

def Is (x : Float) (n j : ℕ) : Prop :=
  Binary.ofFloat x = .finite false (lifted n) (j - (52 - n.log2 : ℕ))

instance (x : Float) (n j : ℕ) : Decidable (Is x n j) := decEq _ _

theorem size_lifted (n j : ℕ) : size (lifted n) (j - (52 - n.log2 : ℕ)) = (n * 2 ^ j : ℕ) := by
  unfold size lifted
  rw [zpow_sub₀ two_ne_zero, zpow_natCast, zpow_natCast]
  push_cast
  field_simp

variable (some : 0 < n) (small : n < 2 ^ 53)

include some small

theorem lifted_full : 2 ^ 52 ≤ lifted n ∧ lifted n < 2 ^ 53 := by
  have first := Nat.log2_self_le some.ne'
  have last : n < 2 ^ (n.log2 + 1) := Nat.lt_log2_self
  have bits : n.log2 < 53 := (Nat.log2_lt some.ne').mpr small
  have split : 52 = n.log2 + (52 - n.log2) := by omega
  unfold lifted
  constructor
  · calc 2 ^ 52 = 2 ^ n.log2 * 2 ^ (52 - n.log2) := by rw [← Nat.pow_add, ← split]
      _ ≤ n * 2 ^ (52 - n.log2) := Nat.mul_le_mul_right _ first
  · calc n * 2 ^ (52 - n.log2) < 2 ^ (n.log2 + 1) * 2 ^ (52 - n.log2) :=
          Nat.mul_lt_mul_of_pos_right last (Nat.two_pow_pos _)
      _ = 2 ^ 53 := by
        rw [← Nat.pow_add]
        congr 1
        omega

theorem lifted_legal (few : j ≤ 900) : Legal (lifted n) (j - (52 - n.log2 : ℕ)) := by
  have bounds := lifted_full some small
  exact ⟨bounds.2, by omega, by omega, .inl bounds.1⟩

theorem ofNat_is (few : n * 2 ^ j < 2 ^ 64) : Is (Float.ofNat (n * 2 ^ j)) n j := by
  have scale : j < 64 :=
    (Nat.pow_lt_pow_iff_right one_lt_two).mp ((Nat.le_mul_of_pos_left _ some).trans_lt few)
  exact ofNat_exact (lifted_legal some small (by omega)) (lifted_full some small).1 few
    (size_lifted n j)

theorem div_is (left : Is x n j) (right : Is y n' j') (some' : 0 < n') (small' : n' < 2 ^ 53)
    (few : j' ≤ 900) (legal : Legal m e) (positive : 0 < m)
    (span : InSpan ((n * 2 ^ j : ℕ) / (n' * 2 ^ j' : ℕ)) m e) :
    Binary.ofFloat (x / y) = .finite false m e := by
  have bounds := lifted_full some small
  have bounds' := lifted_full some' small'
  refine div_span bounds.1 bounds'.1 bounds.2 bounds'.2 left right (by omega) legal positive ?_
  rwa [size_lifted, size_lifted]

end Exact

theorem tenTo_is : ∀ k < 23, Is (tenTo k) (5 ^ k) k := by
  decide +kernel

theorem isInf_of_parts {negative : Bool} (parts : Binary.ofFloat x = .finite negative m e) :
    x.isInf = false := by
  rw [ofFloat_eq] at parts
  show x.toModel.unpack.isInf = false
  cases unpacked : x.toModel.unpack with
  | infinity s =>
    rw [unpacked] at parts
    cases parts
  | _ => rfl

theorem ten_pow (k : ℕ) : ((5 ^ k * 2 ^ k : ℕ) : ℚ) = 10 ^ k := by
  rw [← Nat.mul_pow]
  norm_num

theorem five_pow {k : ℕ} (places : k < 23) : 5 ^ k < 2 ^ 53 :=
  (Nat.pow_le_pow_right (by decide) (Nat.le_of_lt_succ places)).trans_lt (by decide : 5 ^ 22 < _)

section Scaled

variable {n j k : ℕ} {power : ℤ} (above : 0 < n) (small : n < 2 ^ 53) (few : n * 2 ^ j < 2 ^ 64)
  (legal : Legal m e) (positive : 0 < m)

include above small few legal positive

theorem scaledDown_span (places : k < 23) (span : InSpan ((n * 2 ^ j : ℕ) / 10 ^ k) m e) :
    Binary.ofFloat (scaledDown (Float.ofNat (n * 2 ^ j)) k) = .finite false m e := by
  unfold scaledDown
  rw [if_pos (by unfold greatestPower; omega)]
  refine div_is above small (ofNat_is above small few) (tenTo_is k places)
    (Nat.pow_pos (by decide)) (five_pow places) (by omega) legal positive ?_
  rwa [ten_pow]

theorem scaledUp?_span (places : k < 23) (span : InSpan ((n * 2 ^ j : ℕ) * 10 ^ k) m e) :
    ∃ x, scaledUp? (Float.ofNat (n * 2 ^ j)) k = some x ∧ Binary.ofFloat x = .finite false m e := by
  have power := lifted_full (Nat.pow_pos (by decide)) (five_pow places)
  have product : Binary.ofFloat (Float.ofNat (n * 2 ^ j) * tenTo k) = .finite false m e := by
    refine mul_span (ofNat_is above small few) (tenTo_is k places) (lifted_full above small).1
      (by omega) legal positive ?_
    rwa [size_lifted, size_lifted, ten_pow]
  refine ⟨_, ?_, product⟩
  unfold scaledUp?
  rw [if_pos (by unfold greatestPower; omega)]
  dsimp only
  rw [isInf_of_parts product]
  rfl

/-- A significand that a float can be, times a power of ten whose size a float can be, is rounded
once. -/
theorem scaled?_span (low : -22 ≤ power) (high : power ≤ 22)
    (span : InSpan ((n * 2 ^ j : ℕ) * 10 ^ power) m e) :
    ∃ x, scaled? (n * 2 ^ j) power = some x ∧ Binary.ofFloat x = .finite false m e := by
  cases power with
  | ofNat k =>
    rw [Int.ofNat_eq_natCast] at high span
    refine scaledUp?_span above small few legal positive (by omega) ?_
    rwa [zpow_natCast] at span
  | negSucc k =>
    refine ⟨_, rfl, scaledDown_span above small few legal positive (by omega) ?_⟩
    rwa [zpow_negSucc, ← div_eq_mul_inv] at span

end Scaled

end TickerWatch.Decimal
