import TickerWatch.Proofs.Decimal.Rounding

namespace TickerWatch.Decimal

def Digits.value (x : Digits) : ℚ := x.digits * 10 ^ x.power

theorem zpow_toNat (b : ℚ) (k : ℤ) : b ^ k = b ^ k.toNat / b ^ (-k).toNat := by
  rcases Int.le_total 0 k with above | below
  · rw [Int.toNat_of_nonpos (by omega : -k ≤ 0), pow_zero, div_one, ← zpow_natCast,
      Int.toNat_of_nonneg above]
  · rw [Int.toNat_of_nonpos below, pow_zero, one_div, ← zpow_natCast,
      Int.toNat_of_nonneg (by omega : 0 ≤ -k), zpow_neg, inv_inv]

namespace Span

variable {s : Span} {m : ℕ} {e : ℤ} {x : Digits}

section Compare

variable (n : ℕ) (e : ℤ) (x : Digits)

theorem end_eq : n * (2 : ℚ) ^ (e - 2) = n * 2 ^ (e - 2).toNat / 2 ^ (2 - e).toNat := by
  have opposite : -(e - 2) = 2 - e := by omega
  rw [zpow_toNat, opposite, mul_div_assoc]

theorem value_eq : x.value = x.digits * 10 ^ x.power.toNat / 10 ^ (-x.power).toNat := by
  rw [Digits.value, zpow_toNat, mul_div_assoc]

theorem end_le_value :
    n * (2 : ℚ) ^ (e - 2) ≤ x.value ↔
      n * Nat.pow 2 (e - 2).toNat * Nat.pow 10 (-x.power).toNat ≤
        x.digits * Nat.pow 10 x.power.toNat * Nat.pow 2 (2 - e).toNat := by
  rw [end_eq, value_eq, div_le_div_iff₀ (by positivity) (by positivity)]
  simp only [Nat.pow_eq]
  exact_mod_cast Iff.rfl

theorem value_le_end :
    x.value ≤ n * (2 : ℚ) ^ (e - 2) ↔
      x.digits * Nat.pow 10 x.power.toNat * Nat.pow 2 (2 - e).toNat ≤
        n * Nat.pow 2 (e - 2).toNat * Nat.pow 10 (-x.power).toNat := by
  rw [end_eq, value_eq, div_le_div_iff₀ (by positivity) (by positivity)]
  simp only [Nat.pow_eq]
  exact_mod_cast Iff.rfl

end Compare

theorem holds_iff (positive : 0 < m) :
    (Span.ofBinary m e).holds x = true ↔ InSpan x.value m e := by
  have reach : below m e ≤ 4 * m := by
    unfold below
    split <;> omega
  have low : ((4 * m - below m e : ℕ) : ℚ) = 4 * m - below m e := by
    rw [Nat.cast_sub reach]
    push_cast
    rfl
  have high : ((4 * m + 2 : ℕ) : ℚ) = 4 * m + 2 := by push_cast; rfl
  have above := end_le_value (4 * m - below m e) e x
  have notAbove := value_le_end (4 * m - below m e) e x
  have under := value_le_end (4 * m + 2) e x
  have notUnder := end_le_value (4 * m + 2) e x
  rw [low] at above notAbove
  rw [high] at under notUnder
  unfold Span.holds Span.ofBinary
  dsimp only
  split
  · rename_i even
    have even := beq_iff_eq.mp even
    rw [Bool.and_eq_true, decide_eq_true_iff, decide_eq_true_iff]
    constructor
    · rintro ⟨first, last⟩
      exact ⟨above.mpr first, under.mpr last, fun odd => absurd even (by omega)⟩
    · intro span
      exact ⟨above.mp span.low, under.mp span.high⟩
  · rename_i odd
    have odd : m % 2 = 1 := by
      have := mt beq_iff_eq.mpr odd
      omega
    rw [Bool.and_eq_true, decide_eq_true_iff, decide_eq_true_iff]
    constructor
    · rintro ⟨first, last⟩
      have first := lt_of_not_ge (mt notAbove.mp (Nat.not_le_of_lt first))
      have last := lt_of_not_ge (mt notUnder.mp (Nat.not_le_of_lt last))
      exact ⟨first.le, last.le, fun _ => ⟨first, last⟩⟩
    · intro span
      obtain ⟨first, last⟩ := span.inside odd
      exact ⟨Nat.lt_of_not_le (mt notAbove.mpr first.not_ge),
        Nat.lt_of_not_le (mt notUnder.mpr last.not_ge)⟩

theorem search_holds (s : Span) (grids : ℕ) (power : ℤ) :
    s.holds (s.search grids power) = true ∨
      s.search grids power = ⟨s.floorAt (power - grids), power - grids⟩ := by
  induction grids generalizing power with
  | zero =>
    right
    rw [Int.natCast_zero, Int.sub_zero]
    rfl
  | succ grids ih =>
    unfold search
    cases picked : s.pick? power with
    | some x => exact .inl (pick?_some picked).1
    | none =>
      have lower : power - (grids + 1 : ℕ) = power - 1 - grids := by omega
      rw [lower]
      exact ih (power - 1)

end Span

theorem stripZeros_value (places : ℕ) (x : Digits) : (stripZeros places x).value = x.value := by
  induction places generalizing x with
  | zero => rfl
  | succ places ih =>
    unfold stripZeros
    split
    · rename_i divides
      have whole : x.digits = x.digits / 10 * 10 := by omega
      have same : (x.digits : ℚ) = (x.digits / 10 : ℕ) * 10 := by exact_mod_cast whole
      rw [ih, Digits.value, Digits.value, same, zpow_add_one₀ (by norm_num)]
      ring
    · rfl

theorem stripZeros_many (places : ℕ) (x : Digits) :
    x.digits ≤ (stripZeros places x).digits * 10 ^ places := by
  induction places generalizing x with
  | zero => exact (Nat.mul_one _).ge
  | succ places ih =>
    unfold stripZeros
    split
    · rename_i divides
      have fewer := ih ⟨x.digits / 10, x.power + 1⟩
      dsimp only at fewer
      rw [Nat.pow_succ, ← Nat.mul_assoc]
      omega
    · exact Nat.le_mul_of_pos_right _ (Nat.pow_pos (by decide))

theorem reaches_iff {num den : ℕ} (positive : 0 < den) (power : ℤ) :
    Reaches num den power ↔ (10 : ℚ) ^ power ≤ num / den := by
  have scale : (0 : ℚ) < den := by exact_mod_cast positive
  rw [zpow_toNat, div_le_div_iff₀ (by positivity) scale]
  unfold Reaches
  rw [mul_comm den]
  simp only [Nat.pow_eq]
  exact_mod_cast Iff.rfl

/-- The finest grid that is tried has so many points that it is never reached for few digits. -/
theorem floorAt_many {s : Span} (den : 0 < s.den) {power : ℤ} (reaches : Reaches s.mid s.den power)
    (grids : ℕ) : 10 ^ grids ≤ s.floorAt (power - grids) := by
  have finer : Reaches s.mid (s.den * 10 ^ grids) (power - grids) := by
    rw [reaches_iff den] at reaches
    rw [reaches_iff (Nat.mul_pos den (Nat.pow_pos (by decide))), zpow_sub₀ (by norm_num),
      zpow_natCast]
    push_cast
    rw [← div_div]
    exact div_le_div_of_nonneg_right reaches (by positivity)
  have step : 0 < s.den * Nat.pow 10 (power - grids).toNat :=
    Nat.mul_pos den (Nat.pow_pos (by decide))
  unfold Span.floorAt
  rw [Nat.le_div_iff_mul_le step]
  calc 10 ^ grids * (s.den * Nat.pow 10 (power - grids).toNat)
      = s.den * 10 ^ grids * Nat.pow 10 (power - grids).toNat := by ring
    _ ≤ s.mid * Nat.pow 10 (-(power - grids)).toNat := finer

section Positive

variable {m : ℕ} {e : ℤ} (positive : 0 < m)

include positive

theorem shortest_eq :
    shortest m e =
      stripZeros 2 ((Span.ofBinary m e).search 17
        (magnitude (Span.ofBinary m e).mid (Span.ofBinary m e).den)) :=
  if_neg positive.ne'

theorem ofBinary_mid : 0 < (Span.ofBinary m e).mid :=
  Nat.mul_pos (by omega) (Nat.pow_pos (by decide))

/-- The shortest digits of a float, where they are fewer than sixteen, make a number that it stands
for. -/
theorem shortest_span (few : (shortest m e).digits < 10 ^ 15) :
    InSpan (shortest m e).value m e := by
  have den : 0 < (Span.ofBinary m e).den := Nat.pow_pos (by decide)
  rw [shortest_eq positive] at few ⊢
  rw [stripZeros_value]
  rcases Span.search_holds (Span.ofBinary m e) 17 (magnitude _ _) with holds | last
  · exact (Span.holds_iff positive).mp holds
  · have many := floorAt_many den (magnitude_reaches (ofBinary_mid positive) den) 17
    have stripped := stripZeros_many 2
      ((Span.ofBinary m e).search 17 (magnitude (Span.ofBinary m e).mid (Span.ofBinary m e).den))
    rw [last] at few stripped
    dsimp only at stripped
    omega

end Positive

end TickerWatch.Decimal
