namespace TickerWatch.Decimal

open Float.Model Float.Model.UnpackedFloat

variable {x y z : Float}

theorem le_iff : x ≤ y ↔ x.toModel.unpack.le y.toModel.unpack = true := by
  show decide (x.toModel.unpack.le y.toModel.unpack = true) = true ↔ _
  exact decide_eq_true_iff

theorem beq_iff :
    (x == y) = true ↔ x.toModel.unpack.compare y.toModel.unpack = some .eq := by
  show (x.toModel.unpack.compare y.toModel.unpack == some .eq) = true ↔ _
  exact beq_iff_eq

section Parts

variable {s s' : Sign} {m m' : Nat} {e e' : Int} {positive : 0 < m} {positive' : 0 < m'}

theorem parts_eq_iff : (compare e e').then (compare m m') = .eq ↔ m = m' ∧ e = e' := by
  rw [Ordering.then_eq_eq, Int.compare_eq_eq, Nat.compare_eq_eq]
  exact and_comm

theorem compare_self (positive positive' : 0 < m) :
    (UnpackedFloat.finite s m e positive).compare (.finite s m e positive') = some .eq := by
  have same : (compare e e).then (compare m m) = .eq := parts_eq_iff.mpr ⟨rfl, rfl⟩
  cases s with
  | negative => exact congrArg (fun o : Ordering => some o.swap) same
  | positive => exact congrArg some same

theorem parts_of_compare
    (same : (UnpackedFloat.finite s m e positive).compare (.finite s' m' e' positive') = some .eq) :
    s = s' ∧ m = m' ∧ e = e' := by
  cases s with
  | negative =>
    cases s' with
    | negative => exact ⟨rfl, parts_eq_iff.mp (Ordering.swap_eq_eq.mp (Option.some.inj same))⟩
    | positive => cases same
  | positive =>
    cases s' with
    | negative => cases same
    | positive => exact ⟨rfl, parts_eq_iff.mp (Option.some.inj same)⟩

end Parts

theorem not_infinity_le {u : UnpackedFloat} (finite : u.isFinite = true) :
    (UnpackedFloat.infinity .positive).le u = false := by
  cases u with
  | zero s => rfl
  | finite s m e positive => cases s <;> rfl
  | _ => cases finite

theorem not_le_infinity {u : UnpackedFloat} (finite : u.isFinite = true) :
    u.le (.infinity .negative) = false := by
  cases u with
  | zero s => rfl
  | finite s m e positive => cases s <;> rfl
  | _ => cases finite

theorem finite_between (low : y.isFinite = true) (high : z.isFinite = true) (above : y ≤ x)
    (below : x ≤ z) : x.isFinite = true := by
  rw [le_iff] at above below
  show x.toModel.unpack.isFinite = true
  cases parts : x.toModel.unpack with
  | notANumber =>
    rw [parts] at below
    cases below
  | infinity s =>
    rw [parts] at above below
    cases s with
    | negative => cases (not_le_infinity low).symm.trans above
    | positive => cases (not_infinity_le high).symm.trans below
  | zero s => rfl
  | finite s m e positive => rfl

theorem finite_of_beq (same : (x == y) = true) (finite : y.isFinite = true) :
    x.isFinite = true := by
  rw [beq_iff] at same
  replace finite : y.toModel.unpack.isFinite = true := finite
  show x.toModel.unpack.isFinite = true
  cases parts : x.toModel.unpack with
  | notANumber =>
    rw [parts] at same
    cases same
  | infinity s =>
    rw [parts] at same
    cases other : y.toModel.unpack with
    | zero s' =>
      rw [other] at same
      cases s <;> cases same
    | finite s' m e positive =>
      rw [other] at same
      cases s <;> cases same
    | _ =>
      rw [other] at finite
      cases finite
  | zero s => rfl
  | finite s m e positive => rfl

end TickerWatch.Decimal
