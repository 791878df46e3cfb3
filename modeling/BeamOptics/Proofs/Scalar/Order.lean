import BeamOptics.Decimal.Double
import BeamOptics.Proofs.Exact.Real

/-!
# Order of scalars

Comparisons as binary floating point has them. A value that is no number fails every comparison, also the one with
itself, and so no bound can let it through. Numbers are in a total order, infinities included.
-/

namespace BeamOptics

namespace Scalar

/-- Whether a value is a number: only then is it equal to itself. -/
def isNumber {α : Type} [Scalar α] (a : α) : Bool := beq a a

/-- Scalars whose numbers are in a total order, and where nothing else is comparable. -/
class Ordered (α : Type) [Scalar α] : Prop where
  isNumber_of_le {a b : α} : le a b = true → isNumber a = true ∧ isNumber b = true
  lt_eq_not_le {a b : α} : isNumber a = true → isNumber b = true → lt a b = !le b a
  isNumber_of_isFinite {a : α} : isFinite a = true → isNumber a = true

instance : Ordered ℝ where
  isNumber_of_le _ := ⟨decide_eq_true rfl, decide_eq_true rfl⟩
  lt_eq_not_le {a b} _ _ := by
    rw [lt_real, le_real, ← decide_not]
    exact decide_eq_decide.mpr not_le.symm
  isNumber_of_isFinite _ := decide_eq_true rfl

end Scalar

/-! ### Doubles -/

namespace Double

open Float.Model

theorem swap_then_compare (e f : Int) (m n : Nat) :
    ((compare e f).then (compare m n)).swap = (compare f e).then (compare n m) := by
  rw [Ordering.swap_then, ← Std.OrientedCmp.eq_swap, ← Std.OrientedCmp.eq_swap]

theorem compare_swap (x y : UnpackedFloat) : (x.compare y).map Ordering.swap = y.compare x := by
  cases x with
  | notANumber => cases y <;> rfl
  | infinity s =>
    cases y with
    | infinity t => cases s <;> cases t <;> rfl
    | _ => cases s <;> rfl
  | zero s =>
    cases y with
    | infinity t => cases t <;> rfl
    | finite t m e h => cases t <;> rfl
    | _ => rfl
  | finite s m e h =>
    cases y with
    | infinity t => cases t <;> rfl
    | finite t n f h' =>
      have hswap := swap_then_compare e f m n
      cases s with
      | positive =>
        cases t with
        | positive => exact congrArg some hswap
        | negative => rfl
      | negative =>
        cases t with
        | positive => rfl
        | negative => exact congrArg (fun o => some o.swap) hswap
    | _ => cases s <;> rfl

theorem isSome_compare_iff (x y : UnpackedFloat) :
    (x.compare y).isSome ↔ x ≠ .notANumber ∧ y ≠ .notANumber := by
  have hnone : x.compare .notANumber = none := by cases x <;> rfl
  cases y with
  | notANumber => exact iff_of_false (by simp [hnone]) fun h => h.2 rfl
  | infinity t =>
    cases x with
    | notANumber => exact iff_of_false Bool.false_ne_true fun h => h.1 rfl
    | infinity s => exact iff_of_true rfl ⟨nofun, nofun⟩
    | _ => exact iff_of_true (by cases t <;> rfl) ⟨nofun, nofun⟩
  | zero t =>
    cases x with
    | notANumber => exact iff_of_false Bool.false_ne_true fun h => h.1 rfl
    | zero s => exact iff_of_true rfl ⟨nofun, nofun⟩
    | infinity s => exact iff_of_true (by cases s <;> rfl) ⟨nofun, nofun⟩
    | finite s m e h => exact iff_of_true (by cases s <;> rfl) ⟨nofun, nofun⟩
  | finite t n f h' =>
    cases x with
    | notANumber => exact iff_of_false Bool.false_ne_true fun h => h.1 rfl
    | infinity s => exact iff_of_true (by cases s <;> rfl) ⟨nofun, nofun⟩
    | zero s => exact iff_of_true (by cases t <;> rfl) ⟨nofun, nofun⟩
    | finite s m e h => exact iff_of_true (by cases s <;> cases t <;> rfl) ⟨nofun, nofun⟩

theorem compare_self_iff (x : UnpackedFloat) : x.compare x = some .eq ↔ x ≠ .notANumber := by
  constructor
  · intro h
    exact ((isSome_compare_iff x x).mp (by rw [h]; rfl)).1
  · intro h
    obtain ⟨o, ho⟩ := Option.isSome_iff_exists.mp ((isSome_compare_iff x x).mpr ⟨h, h⟩)
    have hswap := compare_swap x x
    rw [ho] at hswap ⊢
    cases o with
    | eq => rfl
    | lt => exact absurd hswap (by decide)
    | gt => exact absurd hswap (by decide)

theorem le_eq (a b : Float) : Scalar.le a b = a.toModel.unpack.le b.toModel.unpack := by
  change decide (decide (Float.Model.le a.toModel b.toModel = true) = true) = _
  rw [Bool.decide_eq_true, Bool.decide_eq_true]
  rfl

theorem lt_eq (a b : Float) : Scalar.lt a b = a.toModel.unpack.lt b.toModel.unpack := by
  change decide (decide (Float.Model.lt a.toModel b.toModel = true) = true) = _
  rw [Bool.decide_eq_true, Bool.decide_eq_true]
  rfl

theorem isNumber_iff (a : Float) : Scalar.isNumber a = true ↔ a.toModel.unpack ≠ .notANumber := by
  rw [← compare_self_iff]
  change ((a.toModel.unpack.compare a.toModel.unpack == some .eq) = true) ↔ _
  rw [beq_iff_eq]

end Double

instance : Scalar.Ordered Float where
  isNumber_of_le {a b} h := by
    rw [Double.le_eq, Float.Model.UnpackedFloat.le] at h
    rw [Double.isNumber_iff, Double.isNumber_iff, ← Double.isSome_compare_iff]
    cases ho : a.toModel.unpack.compare b.toModel.unpack with
    | none => exact absurd h (by rw [ho]; decide)
    | some o => rfl
  lt_eq_not_le {a b} ha hb := by
    rw [Double.isNumber_iff] at ha hb
    obtain ⟨o, ho⟩ := Option.isSome_iff_exists.mp ((Double.isSome_compare_iff _ _).mpr ⟨ha, hb⟩)
    have hswap := Double.compare_swap a.toModel.unpack b.toModel.unpack
    rw [Double.lt_eq, Double.le_eq, Float.Model.UnpackedFloat.lt, Float.Model.UnpackedFloat.le, ← hswap, ho]
    cases o <;> rfl
  isNumber_of_isFinite {a} h := by
    rw [Double.isNumber_iff]
    intro hnan
    change a.toModel.unpack.isFinite = true at h
    rw [hnan] at h
    exact absurd h (by decide)

end BeamOptics
