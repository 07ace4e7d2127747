import Mathlib
import TickerWatch.Proofs.Decimal.Order
import TickerWatch.Proofs.Decimal.Text

namespace TickerWatch.Decimal

open Float.Model Float.Model.UnpackedFloat

def Binary.ofUnpacked : UnpackedFloat → Binary
  | .notANumber => .nan
  | .infinity s => .infinite (s == .negative)
  | .zero s => .finite (s == .negative) 0 (-1074)
  | .finite s m e _ => .finite (s == .negative) m e

section Fields

variable (b : BitVec Format.binary64.numBits)

theorem fraction_toNat : (unpackMantissa b).toNat = b.toNat % 2 ^ 52 := by
  simp [unpackMantissa, BitVec.extractLsb]

theorem sign_negative : (Sign.ofBitVec (unpackSign b) == .negative) = decide (2 ^ 63 ≤ b.toNat) := by
  have word : b.toNat < 2 ^ 64 := b.isLt
  have bit : (unpackSign b).toNat = b.toNat / 2 ^ 63 := by
    simp [unpackSign, BitVec.extractLsb, Nat.shiftRight_eq_div_pow]
    omega
  have zero : unpackSign b = 0#1 ↔ b.toNat < 2 ^ 63 := by
    rw [← BitVec.toNat_inj, bit, BitVec.toNat_zero]
    omega
  unfold Sign.ofBitVec
  by_cases small : b.toNat < 2 ^ 63
  · rw [if_pos (zero.mpr small), decide_eq_false (by omega)]
    rfl
  · rw [if_neg (fun h => small (zero.mp h)), decide_eq_true (by omega)]
    rfl

theorem append_one_toNat (f : BitVec 52) : (1#1 ++ f).toNat = f.toNat + 2 ^ 52 := by
  rw [BitVec.toNat_append, ← Nat.shiftLeft_add_eq_or_of_lt f.isLt]
  simp [Nat.shiftLeft_eq, Nat.add_comm]

theorem ofBits_toNat : Binary.ofBits b.toNat = .ofUnpacked (UnpackedFloat.unpack .binary64 b) := by
  have bias : Format.binary64.exponentBias = 1023 := by decide
  have field : (unpackExponent b).toNat = b.toNat / 2 ^ 52 % 2048 := unpackExponent_toNat b
  have full : unpackExponent b = -1#_ ↔ b.toNat / 2 ^ 52 % 2048 = 2047 := by
    rw [← BitVec.toNat_inj, field]
    rfl
  have none : unpackExponent b = 0#_ ↔ b.toNat / 2 ^ 52 % 2048 = 0 := by
    rw [← BitVec.toNat_inj, field]
    rfl
  have blank : unpackMantissa b = 0#_ ↔ b.toNat % 2 ^ 52 = 0 := by
    rw [← BitVec.toNat_inj, fraction_toNat]
    rfl
  unfold UnpackedFloat.unpack Binary.ofBits
  simp only [full, none, blank, Nat.pow_eq]
  by_cases special : b.toNat / 2 ^ 52 % 2048 = 2047
  · by_cases empty : b.toNat % 2 ^ 52 = 0
    · rw [if_pos special, if_pos special, if_pos empty, if_pos empty, Binary.ofUnpacked,
        sign_negative]
    · rw [if_pos special, if_pos special, if_neg empty, if_neg empty, Binary.ofUnpacked]
  · by_cases small : b.toNat / 2 ^ 52 % 2048 = 0
    · by_cases empty : b.toNat % 2 ^ 52 = 0
      · rw [if_neg special, if_neg special, if_pos small, if_pos small, dif_pos empty,
          Binary.ofUnpacked, sign_negative, empty]
      · rw [if_neg special, if_neg special, if_pos small, if_pos small, dif_neg empty,
          Binary.ofUnpacked, sign_negative, fraction_toNat, field, small, bias]
        rfl
    · rw [if_neg special, if_neg special, if_neg small, if_neg small, Binary.ofUnpacked,
        sign_negative, append_one_toNat, fraction_toNat, field, bias]
      rfl

end Fields

theorem ofFloat_eq (x : Float) : Binary.ofFloat x = .ofUnpacked x.toModel.unpack :=
  ofBits_toNat x.toBits.toBitVec

/-- The parts that a finite float is taken apart into. -/
structure Legal (m : Nat) (e : Int) : Prop where
  bound : m < 2 ^ 53
  least : -1074 ≤ e
  greatest : e ≤ 971
  full : 2 ^ 52 ≤ m ∨ e = -1074

theorem ofBits_legal {bits m : Nat} {e : Int} {negative : Bool}
    (parts : Binary.ofBits bits = .finite negative m e) : Legal m e := by
  unfold Binary.ofBits at parts
  simp only [Nat.pow_eq] at parts
  split at parts
  · split at parts <;> cases parts
  · split at parts
    · cases parts
      exact ⟨by omega, by omega, by omega, .inr rfl⟩
    · cases parts
      exact ⟨by omega, by omega, by omega, .inl (by omega)⟩

theorem legal_of_unpack {x : Float} {s : Sign} {m : Nat} {e : Int} {positive : 0 < m}
    (parts : x.toModel.unpack = .finite s m e positive) : Legal m e :=
  ofBits_legal ((ofFloat_eq x).trans (congrArg Binary.ofUnpacked parts))

def units (m : Nat) (e : Int) : Nat := m * 2 ^ (e + 1074).toNat

theorem Legal.exponent_le {m m' : Nat} {e e' : Int} (legal : Legal m e) (other : Legal m' e')
    (same : units m e = units m' e') : e' ≤ e := by
  refine Int.not_lt.mp fun less => ?_
  have least := legal.least
  have full := other.full.resolve_right fun lowest => by omega
  obtain ⟨k, gap⟩ : ∃ k : Nat, e' = e + 1 + k := ⟨(e' - e - 1).toNat, by omega⟩
  have scale : (e' + 1074).toNat = (1 + k) + (e + 1074).toNat := by omega
  have shifted : m = m' * 2 ^ (1 + k) := by
    apply Nat.eq_of_mul_eq_mul_right (Nat.two_pow_pos (e + 1074).toNat)
    rw [Nat.mul_assoc, ← Nat.pow_add, ← scale]
    exact same
  have double : 2 ≤ 2 ^ (1 + k) := by
    rw [Nat.pow_add]
    exact Nat.le_mul_of_pos_right 2 (Nat.two_pow_pos k)
  have bound := legal.bound
  have := Nat.mul_le_mul full double
  omega

theorem Legal.units_injective {m m' : Nat} {e e' : Int} (legal : Legal m e) (other : Legal m' e')
    (same : units m e = units m' e') : m = m' ∧ e = e' := by
  obtain rfl : e = e' :=
    Int.le_antisymm (other.exponent_le legal same.symm) (legal.exponent_le other same)
  exact ⟨Nat.eq_of_mul_eq_mul_right (Nat.two_pow_pos _) same, rfl⟩

def IsWhole (n : Int) : UnpackedFloat → Prop
  | .zero _ => n = 0
  | .finite s m e _ => n * (2 ^ (-e).toNat : Nat) = s.apply (m * 2 ^ e.toNat : Nat)
  | _ => False

theorem mul_eq_apply {n : Int} {num den : Nat} (s : Sign) (positive : 0 < den) :
    n * den = s.apply num ↔ num % den = 0 ∧ n = s.apply (num / den : Nat) := by
  constructor
  · intro same
    have size : n.natAbs * den = num := by
      rw [← Int.natAbs_natCast den, ← Int.natAbs_mul, same]
      cases s <;> simp [Sign.apply]
    rw [← size, Nat.mul_mod_left, Nat.mul_div_cancel _ positive]
    refine ⟨rfl, ?_⟩
    cases s with
    | negative =>
      have below : n ≤ 0 :=
        Int.nonpos_of_mul_nonpos_left (b := den) (by simp [same, Sign.apply]) (by omega)
      simp only [Sign.apply]
      omega
    | positive =>
      have above : 0 ≤ n :=
        Int.nonneg_of_mul_nonneg_left (b := den) (by simp [same, Sign.apply]) (by omega)
      simp only [Sign.apply]
      omega
  · rintro ⟨divides, rfl⟩
    have exact : num / den * den = num := Nat.div_mul_cancel (Nat.dvd_of_mod_eq_zero divides)
    cases s with
    | negative => rw [Sign.apply, Sign.apply, Int.neg_mul, ← Int.natCast_mul, exact]
    | positive => rw [Sign.apply, Sign.apply, ← Int.natCast_mul, exact]

theorem whole?_iff {x : Float} {n : Int} : whole? x = some n ↔ IsWhole n x.toModel.unpack := by
  unfold whole?
  rw [ofFloat_eq]
  cases x.toModel.unpack with
  | notANumber => exact ⟨nofun, nofun⟩
  | infinity s => exact ⟨nofun, nofun⟩
  | zero s =>
    simp only [Binary.ofUnpacked, Nat.zero_mul, Nat.zero_mod, Nat.zero_div, if_true, IsWhole]
    cases s <;> exact ⟨fun h => (Option.some.inj h).symm, fun h => congrArg some h.symm⟩
  | finite s m e positive =>
    simp only [Binary.ofUnpacked, IsWhole, Nat.pow_eq]
    rw [mul_eq_apply s (Nat.two_pow_pos _)]
    generalize m * 2 ^ e.toNat = num
    generalize 2 ^ (-e).toNat = den
    split
    · rename_i divides
      have told : ∀ q : Int, some q = some n ↔ num % den = 0 ∧ n = q := fun q =>
        ⟨fun h => ⟨divides, (Option.some.inj h).symm⟩, fun h => congrArg some h.2.symm⟩
      cases s <;> exact told _
    · rename_i inexact
      exact ⟨nofun, fun h => absurd h.1 inexact⟩

theorem apply_mul (s : Sign) (n k : Nat) : s.apply n * k = s.apply (n * k : Nat) := by
  cases s with
  | negative => rw [Sign.apply, Sign.apply, Int.neg_mul, Int.natCast_mul]
  | positive => rw [Sign.apply, Sign.apply, Int.natCast_mul]

theorem IsWhole.units {n : Int} {s : Sign} {m k : Nat} {e : Int} {positive : 0 < m}
    (whole : IsWhole n (.finite s m e positive)) (least : -1074 ≤ e) (places : (k : Int) = 1074) :
    n * (2 ^ k : Nat) = s.apply (units m e) := by
  have split : k + e.toNat = (-e).toNat + (e + 1074).toNat := by omega
  have scale : (2 ^ e.toNat : Nat) ≠ 0 := Nat.ne_of_gt (Nat.two_pow_pos e.toNat)
  apply Int.eq_of_mul_eq_mul_right (Int.natCast_ne_zero.mpr scale)
  calc n * (2 ^ k : Nat) * (2 ^ e.toNat : Nat)
      = n * (2 ^ (-e).toNat : Nat) * (2 ^ (e + 1074).toNat : Nat) := by
        rw [Int.mul_assoc, Int.mul_assoc, ← Int.natCast_mul, ← Int.natCast_mul, ← Nat.pow_add,
          ← Nat.pow_add, split]
    _ = s.apply (m * 2 ^ e.toNat : Nat) * (2 ^ (e + 1074).toNat : Nat) := by rw [whole]
    _ = s.apply (Decimal.units m e) * (2 ^ e.toNat : Nat) := by
        rw [apply_mul, apply_mul, Decimal.units, Nat.mul_right_comm]

theorem apply_injective {s s' : Sign} {n n' : Nat} (positive : 0 < n)
    (same : s.apply n = s'.apply n') : s = s' ∧ n = n' := by
  cases s <;> cases s' <;> simp only [Sign.apply] at same <;>
    first
    | exact ⟨rfl, by omega⟩
    | omega

theorem units_pos {m : Nat} {e : Int} (positive : 0 < m) : 0 < units m e :=
  Nat.mul_pos positive (Nat.two_pow_pos _)

theorem IsWhole.ne_zero {n : Int} {s : Sign} {m : Nat} {e : Int} {positive : 0 < m}
    (whole : IsWhole n (.finite s m e positive)) : n ≠ 0 := by
  rintro rfl
  have size : 0 < m * 2 ^ e.toNat := Nat.mul_pos positive (Nat.two_pow_pos _)
  simp only [IsWhole, Int.zero_mul] at whole
  cases s <;> simp only [Sign.apply] at whole <;> omega

theorem beq_of_whole? {x y : Float} {n : Int} (left : whole? x = some n)
    (right : whole? y = some n) : (x == y) = true := by
  rw [whole?_iff] at left right
  rw [beq_iff]
  match partsX : x.toModel.unpack, partsY : y.toModel.unpack, left, right with
  | .zero _, .zero _, _, _ => rfl
  | .zero _, .finite .., nothing, whole => exact absurd nothing whole.ne_zero
  | .finite .., .zero _, whole, nothing => exact absurd nothing whole.ne_zero
  | .finite s m e positive, .finite s' m' e' positive', whole, whole' =>
    obtain ⟨k, places⟩ : ∃ k : Nat, (k : Int) = 1074 := ⟨1074, rfl⟩
    have legal := legal_of_unpack partsX
    have legal' := legal_of_unpack partsY
    obtain ⟨rfl, same⟩ := apply_injective (units_pos positive)
      ((whole.units legal.least places).symm.trans (whole'.units legal'.least places))
    obtain ⟨rfl, rfl⟩ := legal.units_injective legal' same
    exact compare_self positive positive'

theorem IsWhole.of_compare {n : Int} {u v : UnpackedFloat} (whole : IsWhole n v)
    (same : u.compare v = some .eq) : IsWhole n u := by
  match u, v, whole, same with
  | .zero _, .zero _, whole, _ => exact whole
  | .zero _, .finite .positive .., _, same => cases same
  | .zero _, .finite .negative .., _, same => cases same
  | .finite .positive .., .zero _, _, same => cases same
  | .finite .negative .., .zero _, _, same => cases same
  | .finite s m e positive, .finite s' m' e' positive', whole, same =>
    obtain ⟨rfl, rfl, rfl⟩ := parts_of_compare same
    exact whole

theorem whole?_of_beq {x y : Float} {n : Int} (same : (x == y) = true) (whole : whole? y = some n) :
    whole? x = some n := by
  rw [whole?_iff] at whole ⊢
  exact whole.of_compare (beq_iff.mp same)

end TickerWatch.Decimal
