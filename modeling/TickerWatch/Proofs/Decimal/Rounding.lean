import TickerWatch.Proofs.Decimal.Parts

namespace TickerWatch.Decimal

open Float.Model Float.Model.UnpackedFloat

/-- What a mantissa and the two bits behind it tell of a number. -/
def Tells (em : ExtendedMantissa) (u : ℚ) : Prop :=
  match em.roundBit, em.stickyBit with
  | false, false => u = em.mantissa
  | false, true => em.mantissa < u ∧ u < em.mantissa + 1 / 2
  | true, false => u = em.mantissa + 1 / 2
  | true, true => em.mantissa + 1 / 2 < u ∧ u < em.mantissa + 1

structure Nearest (r : ℕ) (u : ℚ) : Prop where
  low : r - 1 / 2 ≤ u
  high : u ≤ r + 1 / 2
  even : u = r - 1 / 2 ∨ u = r + 1 / 2 → r % 2 = 0

variable {em : ExtendedMantissa} {u v : ℚ}

theorem Tells.shiftRightOne (tells : Tells em u) : Tells em.shiftRightOne (u / 2) := by
  obtain ⟨m, roundBit, stickyBit⟩ := em
  have parity : (m : ℚ) = 2 * (m / 2 : ℕ) + (m % 2 : ℕ) := by
    exact_mod_cast (Nat.div_add_mod m 2).symm
  rcases Nat.mod_two_eq_zero_or_one m with even | odd
  · rw [even] at parity
    cases roundBit <;> cases stickyBit <;>
      simp [Tells, ExtendedMantissa.shiftRightOne, even] at tells ⊢ <;>
      first
      | linarith
      | constructor <;> linarith
  · rw [odd] at parity
    cases roundBit <;> cases stickyBit <;>
      simp [Tells, ExtendedMantissa.shiftRightOne, odd] at tells ⊢ <;>
      first
      | linarith
      | constructor <;> linarith

theorem Tells.shiftRight (tells : Tells em u) (n : ℕ) : Tells (em >>> n) (u / 2 ^ n) := by
  change Tells (n.repeat ExtendedMantissa.shiftRightOne em) _
  induction n with
  | zero => simpa [Nat.repeat] using tells
  | succ n ih =>
    have next := ih.shiftRightOne
    rwa [div_div, ← pow_succ] at next

theorem nearest_of_between {r : ℕ} (low : r - 1 / 2 < u) (high : u < r + 1 / 2) : Nearest r u :=
  ⟨low.le, high.le, fun ends => by rcases ends with rfl | rfl <;> linarith⟩

theorem Tells.nearest (tells : Tells em u) : Nearest em.roundedMantissa u := by
  obtain ⟨m, roundBit, stickyBit⟩ := em
  cases roundBit <;> cases stickyBit <;> simp only [Tells] at tells
  · exact nearest_of_between (r := m) (by linarith) (by linarith)
  · exact nearest_of_between (r := m) (by linarith) (by linarith)
  · show Nearest (m + m % 2) u
    rcases Nat.mod_two_eq_zero_or_one m with even | odd
    · rw [even]
      refine ⟨?_, ?_, fun _ => by omega⟩ <;> push_cast <;> linarith
    · rw [odd]
      refine ⟨?_, ?_, fun _ => by omega⟩ <;> push_cast <;> linarith
  · apply nearest_of_between (r := m + 1) <;> push_cast <;> linarith

theorem Nearest.le {r q : ℕ} (nearest : Nearest r u) (other : Nearest q u) : q ≤ r := by
  by_contra less
  have next : (r : ℚ) + 1 ≤ q := by exact_mod_cast Nat.lt_of_not_le less
  have low := other.low
  have high := nearest.high
  have middle : u = r + 1 / 2 := by linarith
  have successor : (q : ℚ) = (r + 1 : ℕ) := by push_cast; linarith
  have even := nearest.even (.inr middle)
  have evenToo := other.even (.inl (by linarith))
  rw [Nat.cast_inj.mp successor] at evenToo
  omega

theorem Nearest.unique {r q : ℕ} (nearest : Nearest r u) (other : Nearest q u) : r = q :=
  Nat.le_antisymm (other.le nearest) (nearest.le other)

def below (m : ℕ) (e : ℤ) : ℕ := if m = 2 ^ 52 ∧ -1074 < e then 1 else 2

/-- The numbers that a float stands for. Where floats begin to be twice as far apart, those below
are nearer. -/
structure InSpan (v : ℚ) (m : ℕ) (e : ℤ) : Prop where
  low : (4 * m - below m e) * (2 : ℚ) ^ (e - 2) ≤ v
  high : v ≤ (4 * m + 2) * (2 : ℚ) ^ (e - 2)
  inside : m % 2 = 1 →
    (4 * m - below m e) * (2 : ℚ) ^ (e - 2) < v ∧ v < (4 * m + 2) * (2 : ℚ) ^ (e - 2)

theorem below_le (m : ℕ) (e : ℤ) : (below m e : ℚ) ≤ 2 := by
  unfold below
  split <;> norm_num

variable {m : ℕ} {e : ℤ}

theorem quarter (e : ℤ) : (2 : ℚ) ^ (e - 2) = 2 ^ e / 4 := by
  rw [zpow_sub₀ two_ne_zero]
  norm_num

theorem InSpan.nearest (span : InSpan v m e) : Nearest m (v / 2 ^ e) := by
  have scale : (0 : ℚ) < 2 ^ e := zpow_pos two_pos e
  have reach := mul_le_mul_of_nonneg_right (below_le m e) scale.le
  obtain ⟨low, high, inside⟩ := span
  rw [quarter] at low high inside
  constructor
  · rw [le_div_iff₀ scale]
    linarith
  · rw [div_le_iff₀ scale]
    linarith
  · intro ends
    by_contra odd
    obtain ⟨above, under⟩ := inside (by omega)
    rcases ends with tie | tie <;> rw [div_eq_iff scale.ne'] at tie <;> linarith

/-- What lies in the span of the least float of its size, and below that float, is rounded to it by
way of the next power of two. -/
theorem InSpan.nearest_carry (span : InSpan v (2 ^ 52) e) (normal : -1074 < e)
    (less : v < 2 ^ 52 * 2 ^ e) : Nearest (2 ^ 53) (v / 2 ^ (e - 1)) := by
  have scale : (0 : ℚ) < 2 ^ (e - 1) := zpow_pos two_pos _
  have half : (2 : ℚ) ^ e = 2 * 2 ^ (e - 1) := by
    rw [← zpow_one_add₀ two_ne_zero]
    congr 1
    ring
  have reach : below (2 ^ 52) e = 1 := if_pos ⟨rfl, normal⟩
  have low := span.low
  rw [quarter, reach, half] at low
  rw [half] at less
  refine ⟨?_, ?_, fun _ => rfl⟩
  · rw [le_div_iff₀ scale]
    push_cast at low ⊢
    linarith
  · rw [div_le_iff₀ scale]
    push_cast
    linarith

def grid (m : ℕ) (e : ℤ) : ℤ := Format.binary64.targetExponent (totalExponent m e)

theorem grid_eq (m : ℕ) (e : ℤ) : grid m e = max (m.log2 + e - 52) (-1074) := by
  have bits : Format.binary64.mantissaBits = 53 := rfl
  have least : Format.binary64.minExponent = -1074 := rfl
  unfold grid Format.targetExponent totalExponent
  rw [bits, least]
  omega

theorem Tells.floor (tells : Tells em u) : em.mantissa ≤ u ∧ u < em.mantissa + 1 := by
  obtain ⟨m, roundBit, stickyBit⟩ := em
  cases roundBit <;> cases stickyBit <;> simp only [Tells] at tells <;>
    constructor <;> linarith

section Powers

variable {n : ℕ} {k : ℤ}

theorem power_le (positive : 0 < n) (low : n ≤ v / 2 ^ k) : (2 : ℚ) ^ (n.log2 + k) ≤ v := by
  have scale : (0 : ℚ) < 2 ^ k := zpow_pos two_pos k
  have first : ((2 ^ n.log2 : ℕ) : ℚ) ≤ n := by exact_mod_cast Nat.log2_self_le positive.ne'
  rw [le_div_iff₀ scale] at low
  rw [zpow_add₀ two_ne_zero, zpow_natCast]
  push_cast at first
  exact (mul_le_mul_of_nonneg_right first scale.le).trans low

theorem lt_power (high : v / 2 ^ k < n + 1) : v < (2 : ℚ) ^ (n.log2 + k + 1) := by
  have scale : (0 : ℚ) < 2 ^ k := zpow_pos two_pos k
  have last : ((n + 1 : ℕ) : ℚ) ≤ (2 ^ (n.log2 + 1) : ℕ) := by exact_mod_cast Nat.lt_log2_self
  rw [div_lt_iff₀ scale] at high
  have split : (2 : ℚ) ^ (n.log2 + k + 1) = 2 ^ (n.log2 + 1) * 2 ^ k := by
    rw [add_right_comm, zpow_add₀ two_ne_zero]
    norm_cast
  push_cast at last
  rw [split]
  exact high.trans_le (mul_le_mul_of_nonneg_right last scale.le)

end Powers

theorem InSpan.lt_power (span : InSpan v m e) (legal : Legal m e) : v < (2 : ℚ) ^ (e + 53) := by
  have scale : (0 : ℚ) < 2 ^ e := zpow_pos two_pos e
  have bound : ((m + 1 : ℕ) : ℚ) ≤ (2 ^ 53 : ℕ) := by exact_mod_cast legal.bound
  have high := span.high
  have split : (2 : ℚ) ^ (e + 53) = 2 ^ 53 * 2 ^ e := by
    rw [zpow_add₀ two_ne_zero, mul_comm]
    norm_cast
  rw [quarter] at high
  push_cast at bound
  rw [split]
  have := mul_le_mul_of_nonneg_right bound scale.le
  linarith

/-- The exponent that a number is rounded at is that of the float that it stands for, or the one
just below. -/
theorem InSpan.grid_cases {n : ℕ} {k : ℤ} (span : InSpan v m e) (legal : Legal m e)
    (positive : 0 < n) (low : n ≤ v / 2 ^ k) (high : v / 2 ^ k < n + 1) :
    grid n k = e ∨ grid n k = e - 1 ∧ m = 2 ^ 52 ∧ -1074 < e ∧ v < 2 ^ 52 * 2 ^ e := by
  have scale : (0 : ℚ) < 2 ^ e := zpow_pos two_pos e
  have least := legal.least
  have atMost : (n.log2 + k : ℤ) < e + 53 :=
    (zpow_lt_zpow_iff_right₀ one_lt_two).mp ((power_le positive low).trans_lt (span.lt_power legal))
  rw [grid_eq]
  by_cases level : max (n.log2 + k - 52 : ℤ) (-1074) = e
  · exact .inl level
  · have full := legal.full.resolve_right (by omega)
    have power : ∀ d : ℕ, (2 : ℚ) ^ (e + d) = 2 ^ d * 2 ^ e := fun d => by
      rw [zpow_add₀ two_ne_zero, zpow_natCast, mul_comm]
    have less : v < 2 ^ 52 * 2 ^ e := by
      rw [← power]
      exact (Decimal.lt_power high).trans_le (zpow_le_zpow_right₀ one_le_two (by omega))
    have reach : (m - 1 / 2) * 2 ^ e ≤ v := (le_div_iff₀ scale).mp span.nearest.low
    have first : m = 2 ^ 52 := by
      by_contra other
      have next : ((2 ^ 52 + 1 : ℕ) : ℚ) ≤ m := by exact_mod_cast (by omega : 2 ^ 52 + 1 ≤ m)
      have beyond := mul_le_mul_of_nonneg_right next scale.le
      push_cast at beyond
      linarith
    have atLeast : (2 : ℚ) ^ (e + (51 : ℕ)) < 2 ^ (n.log2 + k + 1) := by
      refine lt_trans ?_ (Decimal.lt_power high)
      rw [power]
      rw [first] at reach
      push_cast at reach
      linarith
    have := (zpow_lt_zpow_iff_right₀ one_lt_two).mp atLeast
    exact .inr ⟨by omega, first, by omega, less⟩

theorem Legal.grid (legal : Legal m e) (positive : 0 < m) : grid m e = e := by
  obtain ⟨bound, least, -, full⟩ := legal
  have last : m.log2 < 53 := (Nat.log2_lt positive.ne').mpr bound
  rw [grid_eq]
  rcases full with full | rfl
  · have first : 52 ≤ m.log2 := (Nat.le_log2 positive.ne').mpr full
    omega
  · omega

theorem shiftToTarget (n : ℕ) (k : ℤ) (acc : Accuracy) :
    shiftToTargetExponent .binary64 n k acc =
      (ExtendedMantissa.ofMantissaAndAccuracy n acc >>> (grid n k - k).toNat,
        k + (grid n k - k).toNat) := rfl

theorem Legal.settled (legal : Legal m e) (positive : 0 < m) :
    shiftToTargetExponent .binary64 m e .exact = (⟨m, false, false⟩, e) := by
  rw [shiftToTarget, legal.grid positive, Int.sub_self]
  exact Prod.ext rfl (Int.add_zero e)

theorem carried (normal : -1074 < e) :
    shiftToTargetExponent .binary64 (2 ^ 53) (e - 1) .exact = (⟨2 ^ 52, false, false⟩, e) := by
  have next : grid (2 ^ 53) (e - 1) = e := by
    rw [grid_eq, Nat.log2_two_pow]
    omega
  have one : (e - (e - 1)).toNat = 1 := by omega
  rw [shiftToTarget, next, one]
  exact Prod.ext rfl (by show e - 1 + (1 : ℕ) = e; omega)

/-- A number is rounded to the float in whose span it lies. -/
theorem roundWithAccuracy_span {n : ℕ} {k : ℤ} {acc : Accuracy} (s : Sign) (legal : Legal m e)
    (positive : 0 < m) (some : 0 < n) (coarse : k ≤ grid n k)
    (tells : Tells (ExtendedMantissa.ofMantissaAndAccuracy n acc) (v / 2 ^ k))
    (span : InSpan v m e) :
    roundWithAccuracy .binary64 s n k acc = .finite s m e positive := by
  have mantissa : (ExtendedMantissa.ofMantissaAndAccuracy n acc).mantissa = n := by
    rcases acc with _ | (_ | _ | _) <;> rfl
  have floor := tells.floor
  rw [mantissa] at floor
  have nearest := (tells.shiftRight (grid n k - k).toNat).nearest
  have place : v / 2 ^ k / 2 ^ (grid n k - k).toNat = v / 2 ^ grid n k := by
    rw [div_div, ← zpow_natCast, ← zpow_add₀ two_ne_zero]
    congr 2
    omega
  have exponent : k + (grid n k - k).toNat = grid n k := by omega
  rw [place] at nearest
  unfold roundWithAccuracy
  rw [shiftToTarget]
  dsimp only
  rw [exponent]
  -- Just below a power of two the number is rounded on the finer grid of the floats below, up to
  -- that power, which the second shift brings back to the grid of the floats above.
  rcases span.grid_cases legal some floor.1 floor.2 with same | ⟨lower, rfl, normal, less⟩
  · rw [same] at nearest ⊢
    rw [nearest.unique span.nearest, legal.settled positive]
    exact dif_neg positive.ne'
  · rw [lower] at nearest ⊢
    rw [nearest.unique (span.nearest_carry normal less), carried normal]
    exact dif_neg positive.ne'

end TickerWatch.Decimal
