import TickerWatch.Proofs.Decimal.Parts

namespace TickerWatch.Decimal

open Float.Model Float.Model.UnpackedFloat

theorem packComponents_toNat (s : Sign) (field : BitVec 11) (fraction : BitVec 52) :
    (packComponents .binary64 s field fraction).toNat =
      (if s == .negative then 2 ^ 63 else 0) + field.toNat * 2 ^ 52 + fraction.toNat := by
  have bound := fraction.isLt
  have small := field.isLt
  show ((s.toBitVec ++ field) ++ fraction).toNat = _
  rw [BitVec.toNat_append, BitVec.toNat_append, ← Nat.shiftLeft_add_eq_or_of_lt fraction.isLt,
    ← Nat.shiftLeft_add_eq_or_of_lt field.isLt, Nat.shiftLeft_eq, Nat.shiftLeft_eq]
  cases s
  · show (1 * 2 ^ 11 + field.toNat) * 2 ^ 52 + fraction.toNat = 2 ^ 63 + _ + _
    omega
  · show (0 * 2 ^ 11 + field.toNat) * 2 ^ 52 + fraction.toNat = 0 + _ + _
    omega

theorem ofUnpacked_finite {u : UnpackedFloat} {s : Sign} {m : Nat} {e : Int} (positive : 0 < m)
    (parts : Binary.ofUnpacked u = .finite (s == .negative) m e) : u = .finite s m e positive := by
  cases u with
  | notANumber => cases parts
  | infinity s => cases parts
  | zero s =>
    injection parts with _ zero
    omega
  | finite s' m' e' positive' =>
    injection parts with sign same exponent
    subst same exponent
    cases s <;> cases s' <;> first | rfl | cases sign

theorem ofBits_word (s : Sign) {field fraction : Nat} (partly : field < 2047)
    (small : fraction < 2 ^ 52) :
    Binary.ofBits ((if s == .negative then 2 ^ 63 else 0) + field * 2 ^ 52 + fraction) =
      if field = 0 then .finite (s == .negative) fraction (-1074)
      else .finite (s == .negative) (fraction + 2 ^ 52) (field - 1075) := by
  obtain ⟨top, split, bit, sign⟩ : ∃ top : Nat,
      (if s == .negative then 2 ^ 63 else 0) = top * 2 ^ 63 ∧ top < 2 ∧
        (s == .negative) = decide (top = 1) := by
    cases s
    · exact ⟨1, rfl, by decide, rfl⟩
    · exact ⟨0, rfl, by decide, rfl⟩
  have high : (top * 2 ^ 63 + field * 2 ^ 52 + fraction) / 2 ^ 52 % 2048 = field := by omega
  have low : (top * 2 ^ 63 + field * 2 ^ 52 + fraction) % 2 ^ 52 = fraction := by omega
  have first : decide (2 ^ 63 ≤ top * 2 ^ 63 + field * 2 ^ 52 + fraction) = decide (top = 1) :=
    decide_eq_decide.mpr (by omega)
  rw [split, sign]
  unfold Binary.ofBits
  simp only [Nat.pow_eq, high, low, first, Nat.ne_of_lt partly, if_false]

theorem log2_full {m : Nat} (full : 2 ^ 52 ≤ m) (bound : m < 2 ^ 53) : m.log2 = 52 := by
  have first := (Nat.le_log2 (by omega)).mpr full
  have last := (Nat.log2_lt (by omega)).mpr bound
  omega

theorem ofBits_pack {s : Sign} {m : Nat} {e : Int} (legal : Legal m e) (positive : 0 < m) :
    Binary.ofBits (UnpackedFloat.pack .binary64 (.finite s m e positive)).toNat =
      .finite (s == .negative) m e := by
  obtain ⟨bound, least, greatest, full⟩ := legal
  have bias : Format.binary64.exponentBias = 1023 := by decide
  have bits : Format.binary64.mantissaBits = 53 := rfl
  have inRange : ¬ 2 ^ 11 ≤ (e + (1023 : Nat) + (52 : Nat)).toNat + 1 := by omega
  unfold UnpackedFloat.pack
  simp only [bias, bits]
  rw [if_neg inRange]
  by_cases normal : 2 ^ 52 ≤ m
  · have top : m.log2 + 1 = 53 := congrArg (· + 1) (log2_full normal bound)
    rw [if_pos top, packComponents_toNat, BitVec.toNat_ofNat, BitVec.toNat_ofNat,
      ofBits_word s (by omega) (by omega), if_neg (by omega)]
    congr 1 <;> omega
  · have lower : ¬ m.log2 + 1 = 53 := by
      have last := (Nat.log2_lt (k := 52) (Nat.ne_of_gt positive)).mpr (by omega)
      omega
    rw [if_neg lower, packComponents_toNat, BitVec.toNat_ofNat, BitVec.toNat_ofNat,
      ofBits_word s (by decide) (by omega), if_pos rfl, full.resolve_left normal]
    congr 1
    omega

/-- Legal parts are what a float packed from them is taken apart into. -/
theorem parts_of_pack {s : Sign} {m : Nat} {e : Int} (legal : Legal m e) (positive : 0 < m) :
    Binary.ofFloat (.ofModel (.pack (.finite s m e positive))) = .finite (s == .negative) m e :=
  ofBits_pack legal positive

theorem unpack_of_parts {x : Float} {s : Sign} {m : Nat} {e : Int} (positive : 0 < m)
    (parts : Binary.ofFloat x = .finite (s == .negative) m e) :
    x.toModel.unpack = .finite s m e positive :=
  ofUnpacked_finite positive ((ofFloat_eq x).symm.trans parts)

theorem neg_parts {x : Float} {m : Nat} {e : Int} (legal : Legal m e) (positive : 0 < m)
    (parts : Binary.ofFloat x = .finite false m e) : Binary.ofFloat (-x) = .finite true m e := by
  have unpacked := unpack_of_parts (s := .positive) positive parts
  have packed : -x = .ofModel (.pack (.finite .negative m e positive)) :=
    congrArg (fun u => Float.ofModel (.pack (UnpackedFloat.neg u))) unpacked
  rw [packed, parts_of_pack legal positive]
  rfl

theorem ofBits_injective {a b m : Nat} {e : Int} {negative : Bool} (wordA : a < 2 ^ 64)
    (wordB : b < 2 ^ 64) (left : Binary.ofBits a = .finite negative m e)
    (right : Binary.ofBits b = .finite negative m e) : a = b := by
  have parts : ∀ w, w < 2 ^ 64 → Binary.ofBits w = .finite negative m e →
      negative = decide (2 ^ 63 ≤ w) ∧
        (w / 2 ^ 52 % 2048 = 0 ∧ m = w % 2 ^ 52 ∧ e = -1074 ∨
          m = w % 2 ^ 52 + 2 ^ 52 ∧ e = (w / 2 ^ 52 % 2048 : Nat) - 1075) := by
    intro w word parts
    unfold Binary.ofBits at parts
    simp only [Nat.pow_eq] at parts
    split at parts
    · split at parts <;> cases parts
    · split at parts <;> cases parts
      · exact ⟨rfl, .inl ⟨‹_›, rfl, rfl⟩⟩
      · exact ⟨rfl, .inr ⟨rfl, rfl⟩⟩
  obtain ⟨signA, partsA⟩ := parts a wordA left
  obtain ⟨signB, partsB⟩ := parts b wordB right
  have sign : 2 ^ 63 ≤ a ↔ 2 ^ 63 ≤ b := decide_eq_decide.mp (signA.symm.trans signB)
  -- The least exponent has two fields, but only one of them goes with a leading one.
  omega

theorem eq_of_parts {x y : Float} {negative : Bool} {m : Nat} {e : Int}
    (left : Binary.ofFloat x = .finite negative m e)
    (right : Binary.ofFloat y = .finite negative m e) : x = y := by
  have same : x.toBits.toNat = y.toBits.toNat :=
    ofBits_injective x.toBits.toNat_lt y.toBits.toNat_lt left right
  have bits : x.toModel.toBits = y.toModel.toBits := UInt64.toNat_inj.mp same
  obtain ⟨⟨xBits, xValid⟩⟩ := x
  obtain ⟨⟨yBits, yValid⟩⟩ := y
  obtain rfl : xBits = yBits := bits
  rfl

end TickerWatch.Decimal
