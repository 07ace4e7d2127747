import Mathlib.Data.Prod.Lex
import TickerWatch.Proofs.Decimal.Order

namespace TickerWatch.Decimal

open Float.Model Float.Model.UnpackedFloat

section Parts

variable {u v : UnpackedFloat}

/-- Finite numbers of one sign go by their exponents first, then by their mantissas. -/
def rank : UnpackedFloat → Int ×ₗ Int ×ₗ Int
  | .notANumber | .zero _ => toLex (0, toLex (0, 0))
  | .infinity s => toLex (s.apply 2, toLex (0, 0))
  | .finite s m e _ => toLex (s.apply 1, toLex (s.apply e, s.apply m))

theorem compare_cast (m m' : Nat) : compare (m : Int) (m' : Int) = compare m m' := by
  rw [Int.compare_eq_ite_lt, Nat.compare_eq_ite_lt]
  simp only [Int.ofNat_lt]

theorem compare_neg (a b : Int) : compare (-a) (-b) = (compare a b).swap := by
  rw [Int.compare_swap, Int.compare_eq_ite_lt, Int.compare_eq_ite_lt]
  simp only [Int.neg_lt_neg_iff]

theorem compare_rank_finite {s : Sign} {m m' : Nat} {e e' : Int} {positive : 0 < m}
    {positive' : 0 < m'} :
    (UnpackedFloat.finite s m e positive).compare (.finite s m' e' positive') =
      some (compare (rank (.finite s m e positive)) (rank (.finite s m' e' positive'))) := by
  cases s with
  | negative =>
    show some ((compare e e').then (compare m m')).swap =
      some ((compare (-e) (-e')).then (compare (-(m : Int)) (-(m' : Int))))
    rw [compare_neg, compare_neg, compare_cast, Ordering.swap_then]
  | positive =>
    show some ((compare e e').then (compare m m')) =
      some ((compare e e').then (compare (m : Int) (m' : Int)))
    rw [compare_cast]

theorem compare_rank (left : u.isNaN = false) (right : v.isNaN = false) :
    u.compare v = some (compare (rank u) (rank v)) := by
  cases u with
  | notANumber => cases left
  | infinity s =>
    cases v with
    | notANumber => cases right
    | infinity s' => cases s <;> cases s' <;> rfl
    | zero s' => cases s <;> rfl
    | finite s' m e positive => cases s <;> cases s' <;> rfl
  | zero s =>
    cases v with
    | notANumber => cases right
    | infinity s' => cases s' <;> rfl
    | zero s' => rfl
    | finite s' m e positive => cases s' <;> rfl
  | finite s m e positive =>
    cases v with
    | notANumber => cases right
    | infinity s' => cases s <;> cases s' <;> rfl
    | zero s' => cases s <;> rfl
    | finite s' m' e' positive' =>
      -- Only finite numbers of one sign are told apart by more than their signs.
      cases s with
      | negative =>
        cases s' with
        | negative => exact compare_rank_finite
        | positive => rfl
      | positive =>
        cases s' with
        | negative => rfl
        | positive => exact compare_rank_finite

theorem numbers_of_compare {o : Ordering} (compared : u.compare v = some o) :
    u.isNaN = false ∧ v.isNaN = false := by
  cases u with
  | notANumber => cases compared
  | infinity s =>
    cases v with
    | notANumber => cases s <;> cases compared
    | _ => exact ⟨rfl, rfl⟩
  | zero s =>
    cases v with
    | notANumber => cases compared
    | _ => exact ⟨rfl, rfl⟩
  | finite s m e positive =>
    cases v with
    | notANumber => cases s <;> cases compared
    | _ => exact ⟨rfl, rfl⟩

end Parts

variable {x y z : Float}

def place (x : Float) : Int ×ₗ Int ×ₗ Int := rank x.toModel.unpack

theorem compare_eq_some {o : Ordering} :
    x.toModel.unpack.compare y.toModel.unpack = some o ↔
      x.isNaN = false ∧ y.isNaN = false ∧ compare (place x) (place y) = o := by
  constructor
  · intro compared
    obtain ⟨left, right⟩ := numbers_of_compare compared
    rw [compare_rank left right] at compared
    exact ⟨left, right, Option.some.inj compared⟩
  · rintro ⟨left, right, rfl⟩
    exact compare_rank left right

theorem lt_iff_place : x < y ↔ x.isNaN = false ∧ y.isNaN = false ∧ place x < place y := by
  have compared : x < y ↔ x.toModel.unpack.compare y.toModel.unpack = some .lt := by
    show decide ((x.toModel.unpack.compare y.toModel.unpack == some .lt) = true) = true ↔ _
    rw [decide_eq_true_iff, beq_iff_eq]
  rw [compared, compare_eq_some, compare_lt_iff_lt]

theorem le_iff_place : x ≤ y ↔ x.isNaN = false ∧ y.isNaN = false ∧ place x ≤ place y := by
  rw [le_iff, UnpackedFloat.le, Option.any_eq_true]
  simp only [compare_eq_some]
  constructor
  · rintro ⟨o, ⟨left, right, rfl⟩, below⟩
    exact ⟨left, right, compare_le_iff_le.mp (Ordering.isLE_iff_ne_gt.mp below)⟩
  · rintro ⟨left, right, below⟩
    exact ⟨_, ⟨left, right, rfl⟩, Ordering.isLE_iff_ne_gt.mpr (compare_le_iff_le.mpr below)⟩

theorem beq_iff_place :
    (x == y) = true ↔ x.isNaN = false ∧ y.isNaN = false ∧ place x = place y := by
  rw [beq_iff, compare_eq_some, compare_eq_iff_eq]

theorem le_self (number : x.isNaN = false) : x ≤ x :=
  le_iff_place.mpr ⟨number, number, le_refl _⟩

theorem le_of_not_lt (left : x.isNaN = false) (right : y.isNaN = false) (above : ¬ x < y) :
    y ≤ x := by
  refine le_iff_place.mpr ⟨right, left, not_lt.mp fun below => above ?_⟩
  exact lt_iff_place.mpr ⟨left, right, below⟩

theorem le_of_less (below : x < y) : x ≤ y := by
  obtain ⟨left, right, places⟩ := lt_iff_place.mp below
  exact le_iff_place.mpr ⟨left, right, places.le⟩

theorem le_chain (first : x ≤ y) (second : y ≤ z) : x ≤ z := by
  obtain ⟨left, -, lower⟩ := le_iff_place.mp first
  obtain ⟨-, right, upper⟩ := le_iff_place.mp second
  exact le_iff_place.mpr ⟨left, right, lower.trans upper⟩

theorem beq_of_le (first : x ≤ y) (second : y ≤ x) : (x == y) = true := by
  obtain ⟨left, right, lower⟩ := le_iff_place.mp first
  obtain ⟨-, -, upper⟩ := le_iff_place.mp second
  exact beq_iff_place.mpr ⟨left, right, le_antisymm lower upper⟩

theorem numbers_of_lt (below : x < y) : x.isNaN = false ∧ y.isNaN = false :=
  ⟨(lt_iff_place.mp below).1, (lt_iff_place.mp below).2.1⟩

end TickerWatch.Decimal
