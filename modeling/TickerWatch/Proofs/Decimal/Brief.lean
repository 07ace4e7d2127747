import TickerWatch.Proofs.Decimal.Products
import TickerWatch.Proofs.Decimal.Shortest

namespace TickerWatch.Decimal

variable {m n k : ℕ} {e power : ℤ} {x : Digits} {u v w : ℚ}

/-- Digits that make less than `10 ^ 15` up to the point, and places that a power of ten can make up
for that is a float. -/
structure Digits.Brief (x : Digits) : Prop where
  whole : x.digits * 10 ^ x.power.toNat < 10 ^ 15
  places : -22 ≤ x.power

theorem InSpan.convex (low : InSpan u m e) (high : InSpan w m e) (above : u ≤ v) (under : v ≤ w) :
    InSpan v m e :=
  ⟨low.low.trans above, under.trans high.high,
    fun odd => ⟨(low.inside odd).1.trans_le above, under.trans_lt (high.inside odd).2⟩⟩

namespace Span

variable {s : Span} (den : 0 < s.den)

include den

theorem floorAt_le (power : ℤ) : s.floorAt power * (10 : ℚ) ^ power ≤ s.mid / s.den := by
  have scale : (0 : ℚ) < s.den := by exact_mod_cast den
  have product : s.floorAt power * 10 ^ power.toNat * s.den ≤ s.mid * 10 ^ (-power).toNat :=
    calc s.floorAt power * 10 ^ power.toNat * s.den
        = s.floorAt power * (s.den * Nat.pow 10 power.toNat) := by rw [Nat.pow_eq]; ring
      _ ≤ s.mid * 10 ^ (-power).toNat := Nat.div_mul_le_self _ _
  rw [zpow_toNat, ← mul_div_assoc, div_le_div_iff₀ (by positivity) scale]
  exact_mod_cast product

theorem lt_floorAt (power : ℤ) : (s.mid / s.den : ℚ) < (s.floorAt power + 1) * 10 ^ power := by
  have scale : (0 : ℚ) < s.den := by exact_mod_cast den
  have step : 0 < s.den * Nat.pow 10 power.toNat := Nat.mul_pos den (Nat.pow_pos (by decide))
  have product : s.mid * 10 ^ (-power).toNat < (s.floorAt power + 1) * 10 ^ power.toNat * s.den :=
    calc s.mid * 10 ^ (-power).toNat
        < (s.floorAt power + 1) * (s.den * Nat.pow 10 power.toNat) :=
          (Nat.div_lt_iff_lt_mul step).mp (Nat.lt_succ_self _)
      _ = (s.floorAt power + 1) * 10 ^ power.toNat * s.den := by rw [Nat.pow_eq]; ring
  rw [zpow_toNat, ← mul_div_assoc, div_lt_div_iff₀ scale (by positivity)]
  exact_mod_cast product

end Span

theorem magnitude_exceeds {num den : ℕ} (positive : 0 < num) (divides : 0 < den) :
    ¬ Reaches num den (magnitude num den + 1) := by
  unfold magnitude Reaches
  rw [Nat.not_le]
  split
  · have digits := (Nat.div_lt_iff_lt_mul divides).mp (lt_pow_toDigits (num / den))
    generalize (Nat.toDigits 10 (num / den)).length = places at digits ⊢
    have up : ((places : ℤ) - 1 + 1).toNat = places := by omega
    have down : (-((places : ℤ) - 1 + 1)).toNat = 0 := by omega
    rw [up, down, Nat.mul_comm den]
    exact (Nat.mul_one num).symm ▸ digits
  · rename_i less
    have quotient : 0 < den / num := Nat.div_pos (by omega) positive
    have digits := (Nat.le_div_iff_mul_le positive).mp (pow_le_of_toDigits quotient)
    have nonempty : 0 < (Nat.toDigits 10 (den / num)).length := Nat.length_toDigits_pos
    generalize (Nat.toDigits 10 (den / num)).length = places at digits nonempty ⊢
    dsimp only
    split
    · rcases Nat.lt_or_ge 1 places with several | single
      · have up : (1 - (places : ℤ) + 1).toNat = 0 := by omega
        have down : (-(1 - (places : ℤ) + 1)).toNat = places - 2 := by omega
        have last : places - 1 = places - 2 + 1 := by omega
        have above := Nat.mul_pos positive (Nat.pow_pos (by decide) : 0 < Nat.pow 10 (places - 2))
        rw [last] at digits
        rw [up, down]
        simp only [Nat.pow_eq, Nat.pow_succ, Nat.pow_zero] at digits above ⊢
        linarith
      · have up : (1 - (places : ℤ) + 1).toNat = 1 := by omega
        have down : (-(1 - (places : ℤ) + 1)).toNat = 0 := by omega
        rw [up, down]
        simp only [Nat.pow_eq, Nat.pow_zero, Nat.pow_succ]
        omega
    · rename_i short
      have up : (-(places : ℤ) + 1).toNat = 0 := by omega
      have down : (-(-(places : ℤ) + 1)).toNat = places - 1 := by omega
      rw [up, down]
      exact (Nat.mul_one den).symm ▸ Nat.lt_of_not_le short

theorem mid_eq (m : ℕ) (e : ℤ) :
    ((Span.ofBinary m e).mid / (Span.ofBinary m e).den : ℚ) = size m e := by
  have quarters := Span.end_eq (4 * m) e
  have same : ((4 * m : ℕ) : ℚ) * 2 ^ (e - 2) = size m e := by
    rw [quarter, size]
    push_cast
    ring
  rw [← same, quarters]
  unfold Span.ofBinary
  simp only [Nat.pow_eq]
  push_cast
  rfl

theorem Span.pick?_isSome (positive : 0 < m) (span : InSpan (n * 10 ^ power) m e) :
    ∃ x, (Span.ofBinary m e).pick? power = some x := by
  have den : 0 < (Span.ofBinary m e).den := Nat.pow_pos (by decide)
  have scale : (0 : ℚ) < 10 ^ power := zpow_pos (by norm_num) power
  have floor := floorAt_le den power
  have ceiling := lt_floorAt den power
  rw [mid_eq] at floor ceiling
  have held : (Span.ofBinary m e).holds ⟨(Span.ofBinary m e).floorAt power, power⟩ = true ∨
      (Span.ofBinary m e).holds ⟨(Span.ofBinary m e).floorAt power + 1, power⟩ = true := by
    rw [holds_iff positive, holds_iff positive, Digits.value, Digits.value]
    rcases Nat.lt_or_ge ((Span.ofBinary m e).floorAt power) n with above | below
    · have reach : ((Span.ofBinary m e).floorAt power + 1 : ℚ) ≤ n := by exact_mod_cast above
      right
      push_cast
      exact (InSpan.self m e).convex span ceiling.le (mul_le_mul_of_nonneg_right reach scale.le)
    · have reach : (n : ℚ) ≤ (Span.ofBinary m e).floorAt power := by exact_mod_cast below
      left
      exact span.convex (InSpan.self m e) (mul_le_mul_of_nonneg_right reach scale.le) floor
  unfold Span.pick?
  dsimp only
  rcases held with low | high
  · rw [low]
    cases (Span.ofBinary m e).holds ⟨(Span.ofBinary m e).floorAt power + 1, power⟩ <;>
      exact ⟨_, rfl⟩
  · rw [high]
    cases (Span.ofBinary m e).holds ⟨(Span.ofBinary m e).floorAt power, power⟩ <;>
      exact ⟨_, rfl⟩

theorem Span.search_found {s : Span} {grids : ℕ} {first : ℤ} (found : ∃ x, s.pick? power = some x)
    (below : power ≤ first) (near : first < power + grids) :
    s.holds (s.search grids first) = true ∧ power ≤ (s.search grids first).power := by
  induction grids generalizing first with
  | zero => omega
  | succ grids ih =>
    unfold search
    cases picked : s.pick? first with
    | some x =>
      obtain ⟨holds, same⟩ := pick?_some picked
      exact ⟨holds, same.symm ▸ below⟩
    | none =>
      have apart : power ≠ first := by
        rintro rfl
        obtain ⟨x, found⟩ := found
        cases picked.symm.trans found
      exact ih (by omega) (by omega)

theorem stripZeros_power (places : ℕ) (x : Digits) : x.power ≤ (stripZeros places x).power := by
  induction places generalizing x with
  | zero => exact le_refl _
  | succ places ih =>
    unfold stripZeros
    split
    · have later := ih ⟨x.digits / 10, x.power + 1⟩
      dsimp only at later
      omega
    · exact le_refl _

section Bounds

variable (span : InSpan v m e)

include span

theorem InSpan.le_next (other : InSpan u m e) : u ≤ v + 2 ^ e := by
  have scale : (0 : ℚ) < 2 ^ e := zpow_pos two_pos e
  have low := (le_div_iff₀ scale).mp span.nearest.low
  have high := (div_le_iff₀ scale).mp other.nearest.high
  linarith

variable (positive : 0 < m)

include positive

theorem InSpan.size_le : size m e ≤ 2 * v := by
  have scale : (0 : ℚ) < 2 ^ e := zpow_pos two_pos e
  have one : (1 : ℚ) ≤ m := by exact_mod_cast positive
  have low := (le_div_iff₀ scale).mp span.nearest.low
  have least := mul_le_mul_of_nonneg_right one scale.le
  unfold size
  linarith

theorem InSpan.le_size : v ≤ 2 * size m e := by
  have scale : (0 : ℚ) < 2 ^ e := zpow_pos two_pos e
  have one : (1 : ℚ) ≤ m := by exact_mod_cast positive
  have high := (div_le_iff₀ scale).mp span.nearest.high
  have least := mul_le_mul_of_nonneg_right one scale.le
  unfold size
  linarith

/-- Floats are closer to each other than the last places of a decimal number of at most fifteen
digits. -/
theorem InSpan.step_lt (legal : Legal m e) (few : v * 10 ^ k < 10 ^ 15) (places : k ≤ 21) :
    (2 : ℚ) ^ e * 10 ^ k < 1 / 2 := by
  have scale : (0 : ℚ) < 2 ^ e := zpow_pos two_pos e
  have unit : (0 : ℚ) < 10 ^ k := by positivity
  rcases legal.full with full | rfl
  · have full : ((2 ^ 52 : ℕ) : ℚ) ≤ m := by exact_mod_cast full
    have bits := mul_le_mul_of_nonneg_right full scale.le
    have bound := mul_le_mul_of_nonneg_right (bits.trans (span.size_le positive)) unit.le
    push_cast at bound
    linarith
  · have tiny : (2 : ℚ) ^ (-1074 : ℤ) ≤ 2 ^ (-71 : ℤ) :=
      zpow_le_zpow_right₀ one_le_two (by decide)
    have size : (10 : ℚ) ^ k ≤ 10 ^ 21 := pow_le_pow_right₀ (by norm_num) places
    calc (2 : ℚ) ^ (-1074 : ℤ) * 10 ^ k
        ≤ 2 ^ (-71 : ℤ) * 10 ^ 21 := mul_le_mul tiny size unit.le (by positivity)
      _ < 1 / 2 := by norm_num

end Bounds

theorem Digits.whole_eq (x : Digits) :
    ((x.digits * 10 ^ x.power.toNat : ℕ) : ℚ) = x.value * 10 ^ (-x.power).toNat := by
  have scale : (10 : ℚ) ^ (-x.power).toNat ≠ 0 := by positivity
  rw [Span.value_eq, div_mul_cancel₀ _ scale]
  push_cast
  rfl

theorem Digits.brief_of_value {p : ℕ} (small : x.value * 10 ^ p < 10 ^ 15)
    (above : -(p : ℤ) ≤ x.power) (places : p ≤ 22) : x.Brief := by
  constructor
  · have value : 0 ≤ x.value := by
      unfold Digits.value
      positivity
    have power : (10 : ℚ) ^ (-x.power).toNat ≤ 10 ^ p :=
      pow_le_pow_right₀ (by norm_num) (by omega)
    have whole := (mul_le_mul_of_nonneg_left power value).trans_lt small
    rw [← x.whole_eq] at whole
    exact_mod_cast whole
  · omega

section Decimal

variable (positive : 0 < m) (span : InSpan (n / 10 ^ k) m e)

theorem unscale (n k : ℕ) : (n / 10 ^ k : ℚ) * 10 ^ k = n :=
  div_mul_cancel₀ _ (by positivity)

section Magnitude

variable {first : ℤ}

include positive span

theorem digits_pos : 0 < n := by
  apply Nat.pos_of_ne_zero
  rintro rfl
  have size : (0 : ℚ) < size m e := mul_pos (by exact_mod_cast positive) (zpow_pos two_pos e)
  have twice := span.size_le positive
  rw [Nat.cast_zero, zero_div, mul_zero] at twice
  linarith

theorem first_lt (few : n < 10 ^ 15) (reach : (10 : ℚ) ^ first ≤ size m e) : first < 16 - k := by
  have unit : (0 : ℚ) < 10 ^ k := by positivity
  have few : (n : ℚ) < 10 ^ 15 := by exact_mod_cast few
  have split : (10 : ℚ) ^ (16 - k : ℤ) = 10 ^ 16 / 10 ^ k := by
    rw [zpow_sub₀ (by norm_num), zpow_natCast]
    norm_cast
  have twice := mul_le_mul_of_nonneg_right (reach.trans (span.size_le positive)) unit.le
  rw [mul_assoc, unscale] at twice
  have bound : (10 : ℚ) ^ first < 10 ^ (16 - k : ℤ) := by
    rw [split, lt_div_iff₀ unit]
    linarith
  exact (zpow_lt_zpow_iff_right₀ (by norm_num)).mp bound

theorem lt_first (beyond : size m e < (10 : ℚ) ^ (first + 1)) : -(k : ℤ) < first + 2 := by
  have unit : (0 : ℚ) < 10 ^ k := by positivity
  have power : (0 : ℚ) < 10 ^ (first + 1) := zpow_pos (by norm_num) _
  have one : (1 : ℚ) ≤ n := by exact_mod_cast digits_pos positive span
  have last : (10 : ℚ) ^ (-k : ℤ) ≤ n / 10 ^ k := by
    rw [zpow_neg, zpow_natCast, ← one_div]
    exact div_le_div_of_nonneg_right one unit.le
  have next : (10 : ℚ) ^ (first + 2) = 10 * 10 ^ (first + 1) := by
    rw [← zpow_one_add₀ (by norm_num)]
    congr 1
    ring
  have twice := span.le_size positive
  have bound : (10 : ℚ) ^ (-k : ℤ) < 10 ^ (first + 2) := by
    rw [next]
    linarith
  exact (zpow_lt_zpow_iff_right₀ (by norm_num)).mp bound

theorem one_digit (beyond : size m e < (10 : ℚ) ^ (-k : ℤ)) : n < 2 := by
  have unit : (0 : ℚ) < 10 ^ k := by positivity
  have twice := (span.le_size positive).trans_lt (mul_lt_mul_of_pos_left beyond two_pos)
  rw [zpow_neg, zpow_natCast, div_lt_iff₀ unit, mul_assoc, inv_mul_cancel₀ unit.ne'] at twice
  exact_mod_cast twice

end Magnitude

variable (legal : Legal m e) (places : k ≤ 21)

include positive span legal places

theorem brief_of_found {z : Digits} {p : ℕ} (few : n * 10 ^ (p - k) + 10 ^ (p - k) ≤ 10 ^ 15)
    (finer : k ≤ p) (fits : p ≤ 22) (found : InSpan z.value m e) (above : -(p : ℤ) ≤ z.power) :
    (stripZeros 2 z).Brief := by
  have unit : (0 : ℚ) < 10 ^ k := by positivity
  have rest : (0 : ℚ) < 10 ^ (p - k) := by positivity
  have split : (10 : ℚ) ^ p = 10 ^ k * 10 ^ (p - k) := by
    rw [← pow_add, Nat.add_sub_cancel' finer]
  have few : (n : ℚ) * 10 ^ (p - k) + 10 ^ (p - k) ≤ 10 ^ 15 := by exact_mod_cast few
  have small : (n : ℚ) < 10 ^ 15 := by
    have one : (1 : ℚ) ≤ 10 ^ (p - k) := one_le_pow₀ (by norm_num)
    have scaled := le_mul_of_one_le_right (Nat.cast_nonneg n : (0 : ℚ) ≤ n) one
    linarith
  have step := span.step_lt positive legal (by rwa [unscale]) places
  have next := mul_le_mul_of_nonneg_right (span.le_next found) unit.le
  rw [add_mul, unscale] at next
  have next := mul_le_mul_of_nonneg_right next rest.le
  have step := mul_lt_mul_of_pos_right step rest
  have stripped := stripZeros_power 2 z
  refine Digits.brief_of_value (p := p) ?_ (by omega) fits
  rw [stripZeros_value, split, ← mul_assoc]
  linarith

/-- The digits of a float that stands for a decimal of at most fifteen digits are brief. -/
theorem shortest_brief (few : n < 10 ^ 15) : (shortest m e).Brief := by
  have den : 0 < (Span.ofBinary m e).den := Nat.pow_pos (by decide)
  have mid := ofBinary_mid positive (e := e)
  have reach := (reaches_iff den _).mp (magnitude_reaches mid den)
  have beyond := lt_of_not_ge (mt (reaches_iff den _).mpr (magnitude_exceeds mid den))
  rw [mid_eq] at reach beyond
  rw [shortest_eq positive]
  generalize magnitude (Span.ofBinary m e).mid (Span.ofBinary m e).den = first at reach beyond ⊢
  -- The search begins at the first digit of the float: mostly that is above the last place of the
  -- decimal, and otherwise one place below it.
  rcases Int.lt_or_le first (-k) with fine | coarse
  · have above := lt_first positive span beyond
    obtain rfl : first = -(k + 1 : ℕ) := by omega
    have place : -((k + 1 : ℕ) : ℤ) + 1 = -k := by omega
    have one := one_digit positive span (place ▸ beyond)
    have grid : InSpan ((n * 10 : ℕ) * 10 ^ (-(k + 1 : ℕ) : ℤ)) m e := by
      have same : ((n * 10 : ℕ) : ℚ) * 10 ^ (-(k + 1 : ℕ) : ℤ) = n / 10 ^ k := by
        rw [zpow_neg, zpow_natCast, pow_succ]
        push_cast
        field_simp
      rwa [same]
    obtain ⟨holds, power⟩ :=
      Span.search_found (Span.pick?_isSome positive grid) (le_refl _)
        (by omega : -((k + 1 : ℕ) : ℤ) < -(k + 1 : ℕ) + (17 : ℕ))
    refine brief_of_found positive span legal places (p := k + 1) ?_ (by omega) (by omega)
      ((Span.holds_iff positive).mp holds) power
    rw [Nat.add_sub_cancel_left]
    omega
  · have near := first_lt positive span few reach
    have grid : InSpan (n * 10 ^ (-k : ℤ)) m e := by
      rwa [zpow_neg, zpow_natCast, ← div_eq_mul_inv]
    obtain ⟨holds, power⟩ :=
      Span.search_found (Span.pick?_isSome positive grid) coarse
        (by omega : first < -k + (17 : ℕ))
    refine brief_of_found positive span legal places (p := k) ?_ (le_refl k) (by omega)
      ((Span.holds_iff positive).mp holds) power
    rw [Nat.sub_self, Nat.pow_zero]
    omega

end Decimal

end TickerWatch.Decimal
