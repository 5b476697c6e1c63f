import DiagramEditor.Geometry
import Mathlib.Data.Prod.Lex
import Mathlib.Order.Compare

/-! The order of doubles on an axis, and what `contain` makes of a coordinate. Comparisons with what
is not a number are all false; the other doubles are ordered by their rank, in which both zeros have
the same place. -/
namespace DiagramEditor

open Float.Model (UnpackedFloat)

namespace Axis

/-- The place of a double in the order: its sign and whether it is infinite, then the exponent, then
the mantissa. -/
def rank : UnpackedFloat → ℤ ×ₗ ℤ ×ₗ ℤ
  | .infinity .negative => toLex (-2, toLex (0, 0))
  | .finite .negative m e _ => toLex (-1, toLex (-e, -(m : ℤ)))
  | .zero _ | .notANumber => toLex (0, toLex (0, 0))
  | .finite .positive m e _ => toLex (1, toLex (e, (m : ℤ)))
  | .infinity .positive => toLex (2, toLex (0, 0))

theorem compare_cast (m n : ℕ) : compare (m : ℤ) n = compare m n := by
  rcases lt_trichotomy m n with h | rfl | h
  · rw [compare_lt_iff_lt.mpr h, compare_lt_iff_lt.mpr (Int.ofNat_lt.mpr h)]
  · rw [compare_eq_iff_eq.mpr rfl, compare_eq_iff_eq.mpr rfl]
  · rw [compare_gt_iff_gt.mpr h, compare_gt_iff_gt.mpr (Int.ofNat_lt.mpr h)]

theorem compare_neg (a b : ℤ) : compare (-a) (-b) = (compare a b).swap := by
  rcases lt_trichotomy a b with h | rfl | h
  · rw [compare_lt_iff_lt.mpr h, compare_gt_iff_gt.mpr (Int.neg_lt_neg h)]
    rfl
  · rw [compare_eq_iff_eq.mpr rfl, compare_eq_iff_eq.mpr rfl]
    rfl
  · rw [compare_gt_iff_gt.mpr h, compare_lt_iff_lt.mpr (Int.neg_lt_neg h)]
    rfl

theorem compare_rank (a b : UnpackedFloat) :
    a.compare b = if a.isNaN || b.isNaN then none else some (compare (rank a) (rank b)) := by
  have hpositive : ∀ (m n : ℕ) (e f : ℤ), (compare e f).then (compare m n) =
      compare (toLex (1, toLex (e, (m : ℤ))) : ℤ ×ₗ ℤ ×ₗ ℤ) (toLex (1, toLex (f, (n : ℤ)))) := by
    intro m n e f
    rw [← compare_cast]
    rfl
  have hnegative : ∀ (m n : ℕ) (e f : ℤ), ((compare e f).then (compare m n)).swap =
      compare (toLex (-1, toLex (-e, -(m : ℤ))) : ℤ ×ₗ ℤ ×ₗ ℤ)
        (toLex (-1, toLex (-f, -(n : ℤ)))) := by
    intro m n e f
    rw [Ordering.swap_then, ← compare_cast, ← compare_neg, ← compare_neg]
    rfl
  -- only two finite doubles of one sign need more than a look at their kinds
  rcases a with ⟨_ | _⟩ | _ | _ | ⟨_ | _, m, e, _⟩ <;>
    rcases b with ⟨_ | _⟩ | _ | _ | ⟨_ | _, n, f, _⟩ <;>
    first
      | rfl
      | exact congrArg some (hpositive m n e f)
      | exact congrArg some (hnegative m n e f)

theorem compare_lt_iff {a b : UnpackedFloat} :
    a.compare b = some .lt ↔ a.isNaN = false ∧ b.isNaN = false ∧ rank a < rank b := by
  rw [compare_rank]
  cases a.isNaN <;> cases b.isNaN <;> simp [compare_lt_iff_lt]

theorem compare_eq_iff {a b : UnpackedFloat} :
    a.compare b = some .eq ↔ a.isNaN = false ∧ b.isNaN = false ∧ rank a = rank b := by
  rw [compare_rank]
  cases a.isNaN <;> cases b.isNaN <;> simp [compare_eq_iff_eq]

section Order
variable {x y z : Float}

theorem lt_iff : x < y ↔
    x.isNaN = false ∧ y.isNaN = false ∧ rank x.toModel.unpack < rank y.toModel.unpack := by
  have h : x < y ↔ x.toModel.unpack.compare y.toModel.unpack = some .lt := by
    change decide (_ = true) = true ↔ _
    rw [decide_eq_true_eq]
    exact beq_iff_eq
  rw [h, compare_lt_iff]
  rfl

theorem le_iff : x ≤ y ↔
    x.isNaN = false ∧ y.isNaN = false ∧ rank x.toModel.unpack ≤ rank y.toModel.unpack := by
  have h : x ≤ y ↔ x.toModel.unpack.compare y.toModel.unpack = some .lt ∨
      x.toModel.unpack.compare y.toModel.unpack = some .eq := by
    change decide ((x.toModel.unpack.compare y.toModel.unpack).any (·.isLE) = true) = true ↔ _
    rcases x.toModel.unpack.compare y.toModel.unpack with _ | ⟨_ | _ | _⟩ <;> simp
  rw [h, compare_lt_iff, compare_eq_iff, le_iff_lt_or_eq, ← and_or_left, ← and_or_left]
  rfl

theorem le_refl (h : x.isNaN = false) : x ≤ x :=
  le_iff.mpr ⟨h, h, le_rfl⟩

theorem le_trans (hxy : x ≤ y) (hyz : y ≤ z) : x ≤ z := by
  obtain ⟨hx, -, h⟩ := le_iff.mp hxy
  obtain ⟨-, hz, h'⟩ := le_iff.mp hyz
  exact le_iff.mpr ⟨hx, hz, h.trans h'⟩

theorem le_of_lt (h : x < y) : x ≤ y := by
  obtain ⟨hx, hy, h⟩ := lt_iff.mp h
  exact le_iff.mpr ⟨hx, hy, h.le⟩

theorem le_of_not_lt (hx : x.isNaN = false) (hy : y.isNaN = false) (h : ¬ x < y) : y ≤ x := by
  rw [lt_iff] at h
  exact le_iff.mpr ⟨hy, hx, not_lt.mp fun hr => h ⟨hx, hy, hr⟩⟩

theorem not_lt_of_isNaN_right (h : y.isNaN = true) : ¬ x < y := by
  rw [lt_iff, h]
  simp

theorem not_lt_of_isNaN_left (h : x.isNaN = true) : ¬ x < y := by
  rw [lt_iff, h]
  simp

end Order

theorem isNaN_zero : (0 : Float).isNaN = false := by decide

end Axis

theorem slack_nonneg (extent box : Float) : 0 ≤ slack extent box := by
  rw [slack]
  split
  · next h => exact Axis.le_of_lt h
  · exact Axis.le_refl Axis.isNaN_zero

theorem slack_le_max (extent box : Float) : slack extent box ≤ max 0 (extent - box) := by
  have hmax : max 0 (extent - box) = if 0 ≤ extent - box then extent - box else 0 := rfl
  rw [slack, hmax]
  split
  · next h =>
    rw [if_pos (Axis.le_of_lt h)]
    exact Axis.le_refl (Axis.lt_iff.mp h).2.1
  · split
    · next h => exact h
    · exact Axis.le_refl Axis.isNaN_zero

section Clamp
variable {high x : Float}

theorem clampTo_of_isNaN (h : x.isNaN = true) : clampTo high x = x := by
  rw [clampTo, if_neg (Axis.not_lt_of_isNaN_left h), if_neg (Axis.not_lt_of_isNaN_right h)]

theorem clampTo_nonneg (hh : 0 ≤ high) (hx : x.isNaN = false) : 0 ≤ clampTo high x := by
  rw [clampTo]
  split
  · exact Axis.le_refl Axis.isNaN_zero
  · next hlow =>
    split
    · exact hh
    · exact Axis.le_of_not_lt hx Axis.isNaN_zero hlow

theorem clampTo_le (hh : 0 ≤ high) (hx : x.isNaN = false) : clampTo high x ≤ high := by
  have hn : high.isNaN = false := (Axis.le_iff.mp hh).2.1
  rw [clampTo]
  split
  · exact hh
  · split
    · exact Axis.le_refl hn
    · next hhigh => exact Axis.le_of_not_lt hn hx hhigh

end Clamp

structure Fits (want extent box c : Float) : Prop where
  nan : want.isNaN = true → c.isNaN = true
  nonneg : want.isNaN = false → 0 ≤ c
  le : want.isNaN = false → c ≤ max 0 (extent - box)

theorem clampTo_fits (want extent box : Float) :
    Fits want extent box (clampTo (slack extent box) want) where
  nan h := by rw [clampTo_of_isNaN h]; exact h
  nonneg h := clampTo_nonneg (slack_nonneg extent box) h
  le h := Axis.le_trans (clampTo_le (slack_nonneg extent box) h) (slack_le_max extent box)

theorem contain_fits (corner : Point) (box container : Size) :
    Fits corner.x container.width box.width (contain corner box container).x ∧
      Fits corner.y container.height box.height (contain corner box container).y :=
  ⟨clampTo_fits _ _ _, clampTo_fits _ _ _⟩

end DiagramEditor
