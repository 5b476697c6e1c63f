import DiagramEditor.Proofs.Geometry.Differences

/-! `contain` projects every corner onto the places it allows. Its clamps never see bounds in the
wrong order, whatever the extents: an upper bound that is negative or not a number gives way to the
origin before it is used. -/
namespace DiagramEditor

namespace Axis
variable {x y : Float}

theorem beq_iff : (x == y) = true ↔
    x.isNaN = false ∧ y.isNaN = false ∧ rank x.toModel.unpack = rank y.toModel.unpack := by
  have h : (x == y) = true ↔ x.toModel.unpack.compare y.toModel.unpack = some .eq := by
    change (x.toModel.unpack.compare y.toModel.unpack == some .eq) = true ↔ _
    exact beq_iff_eq
  rw [h, compare_eq_iff]
  rfl

theorem beq_of_not_lt (hx : x.isNaN = false) (hy : y.isNaN = false) (hxy : ¬ x < y)
    (hyx : ¬ y < x) : (x == y) = true := by
  have hle := (le_iff.mp (le_of_not_lt hx hy hxy)).2.2
  have hge := (le_iff.mp (le_of_not_lt hy hx hyx)).2.2
  exact beq_iff.mpr ⟨hx, hy, le_antisymm hge hle⟩

theorem not_lt_of_le (h : x ≤ y) : ¬ y < x := by
  intro hlt
  exact absurd (lt_iff.mp hlt).2.2 (not_lt.mpr (le_iff.mp h).2.2)

theorem beq_iff_eq_of_pos (h : 0 < x) : (x == y) = true ↔ x = y := by
  constructor
  · intro heq
    rcases (Float.beq_iff_ne_nan_and_eq.mp heq).2.2 with rfl | ⟨rfl, -⟩ | ⟨rfl, -⟩
    · rfl
    · exact absurd h (by decide)
    · exact absurd h (by decide)
  · rintro rfl
    have hnumber := (lt_iff.mp h).2.1
    exact beq_iff.mpr ⟨hnumber, hnumber, rfl⟩

end Axis

theorem larger_zero (x : Float) : larger x 0 = if 0 < x then x else 0 := by
  rw [larger, Axis.isNaN_zero, Bool.or_false]
  simp only [decide_eq_true_eq]

theorem larger_sub_zero (extent box : Float) : larger (extent - box) 0 = slack extent box := by
  rw [larger_zero, slack]

theorem slack_of_le {extent box : Float} (h : extent ≤ box) : slack extent box = 0 := by
  apply if_neg
  intro hpos
  exact Axis.not_lt_of_le h (Axis.lt_of_sub_pos hpos)

structure InOrder (low high : Float) : Prop where
  low_number : low.isNaN = false
  high_number : high.isNaN = false
  le : low ≤ high

theorem clampBetween?_of_inOrder {low high : Float} (h : InOrder low high) (x : Float) :
    clampBetween? low high x = some (if x < low then low else if high < x then high else x) :=
  if_pos h.le

theorem larger_inOrder (extent box : Float) : InOrder 0 (larger (extent - box) 0) := by
  have hle : 0 ≤ larger (extent - box) 0 := by
    rw [larger_sub_zero]
    exact slack_nonneg extent box
  exact ⟨Axis.isNaN_zero, (Axis.le_iff.mp hle).2.1, hle⟩

theorem contain?_eq (corner : Point) (box container : Size) :
    contain? corner box container = some (contain corner box container) := by
  rw [contain?, clampBetween?_of_inOrder (larger_inOrder _ _),
    clampBetween?_of_inOrder (larger_inOrder _ _), larger_sub_zero, larger_sub_zero]
  rfl

/-- The place `c` of a coordinate `x` that may run from `0` to `high`. -/
structure Projects (high x c : Float) : Prop where
  below : x < 0 → c = 0
  above : high < x → c = high
  nan : x.isNaN = true → c.isNaN = true
  inside : ¬ x < 0 → ¬ high < x → c = x

section Clamp
variable {high x y : Float}

theorem clampTo_of_mem (hlow : ¬ x < 0) (hhigh : ¬ high < x) : clampTo high x = x := by
  rw [clampTo, if_neg hlow, if_neg hhigh]

theorem clampTo_projects (hh : 0 ≤ high) (x : Float) : Projects high x (clampTo high x) where
  below h := by rw [clampTo, if_pos h]
  above h := by
    have hlow : ¬ x < 0 := Axis.not_lt_of_le (Axis.le_trans hh (Axis.le_of_lt h))
    rw [clampTo, if_neg hlow, if_pos h]
  nan h := by rwa [clampTo_of_isNaN h]
  inside := clampTo_of_mem

theorem clampTo_clampTo (hh : 0 ≤ high) (x : Float) :
    clampTo high (clampTo high x) = clampTo high x := by
  by_cases hx : x.isNaN = true
  · rw [clampTo_of_isNaN hx, clampTo_of_isNaN hx]
  · have hnumber := Bool.eq_false_iff.mpr hx
    apply clampTo_of_mem
    · exact Axis.not_lt_of_le (clampTo_nonneg hh hnumber)
    · exact Axis.not_lt_of_le (clampTo_le hh hnumber)

/-- Only where the larger coordinate is inside does the order of the two matter. -/
theorem clampTo_le_clampTo (hh : 0 ≤ high) (h : x ≤ y) : clampTo high x ≤ clampTo high y := by
  obtain ⟨hx, hy, -⟩ := Axis.le_iff.mp h
  by_cases hlow : x < 0
  · rw [(clampTo_projects hh x).below hlow]
    exact clampTo_nonneg hh hy
  · by_cases hhigh : high < y
    · rw [(clampTo_projects hh y).above hhigh]
      exact clampTo_le hh hx
    · have hxhigh := Axis.le_trans h (Axis.le_of_not_lt (Axis.le_iff.mp hh).2.1 hy hhigh)
      have hylow := Axis.le_trans (Axis.le_of_not_lt hx Axis.isNaN_zero hlow) h
      rwa [clampTo_of_mem hlow (Axis.not_lt_of_le hxhigh),
        clampTo_of_mem (Axis.not_lt_of_le hylow) hhigh]

theorem clampTo_zero (hx : x.isNaN = false) : (clampTo 0 x == 0) = true := by
  have hzero : (0 : Float) ≤ 0 := Axis.le_refl Axis.isNaN_zero
  have hnumber := (Axis.le_iff.mp (clampTo_nonneg hzero hx)).2.1
  apply Axis.beq_of_not_lt hnumber Axis.isNaN_zero
  · exact Axis.not_lt_of_le (clampTo_nonneg hzero hx)
  · exact Axis.not_lt_of_le (clampTo_le hzero hx)

end Clamp

structure ProjectsAxis (extent box : Float) (place : Float → Float) : Prop where
  projects : ∀ x, Projects (slack extent box) x (place x)
  idempotent : ∀ x, place (place x) = place x
  inside : ∀ x, 0 ≤ x → x ≤ slack extent box → place x = x
  monotone : ∀ x y, x ≤ y → place x ≤ place y
  oversized : extent ≤ box → ∀ x, x.isNaN = false → (place x == 0) = true

theorem clampTo_projectsAxis (extent box : Float) :
    ProjectsAxis extent box (clampTo (slack extent box)) where
  projects := clampTo_projects (slack_nonneg extent box)
  idempotent := clampTo_clampTo (slack_nonneg extent box)
  inside x hlow hhigh := clampTo_of_mem (Axis.not_lt_of_le hlow) (Axis.not_lt_of_le hhigh)
  monotone x y := clampTo_le_clampTo (slack_nonneg extent box)
  oversized h x hx := by
    rw [slack_of_le h]
    exact clampTo_zero hx

/-- Whatever the extents, both clamps get bounds that they take, and each coordinate goes its own
way. -/
theorem contain_projects (box container : Size) :
    let right := slack container.width box.width
    let bottom := slack container.height box.height
    (InOrder 0 (larger (container.width - box.width) 0) ∧
      larger (container.width - box.width) 0 = right) ∧
    (InOrder 0 (larger (container.height - box.height) 0) ∧
      larger (container.height - box.height) 0 = bottom) ∧
    ProjectsAxis container.width box.width (clampTo right) ∧
    ProjectsAxis container.height box.height (clampTo bottom) ∧
    ∀ corner, ∃ place : Point,
      place = ⟨clampTo right corner.x, clampTo bottom corner.y⟩ ∧
      contain? corner box container = some place ∧
      contain? place box container = some place := by
  intro right bottom
  refine ⟨⟨larger_inOrder _ _, larger_sub_zero _ _⟩, ⟨larger_inOrder _ _, larger_sub_zero _ _⟩,
    clampTo_projectsAxis _ _, clampTo_projectsAxis _ _, fun corner => ?_⟩
  refine ⟨⟨clampTo right corner.x, clampTo bottom corner.y⟩, rfl, contain?_eq _ _ _, ?_⟩
  rw [contain?_eq, contain]
  have hx := (clampTo_projectsAxis container.width box.width).idempotent corner.x
  have hy := (clampTo_projectsAxis container.height box.height).idempotent corner.y
  rw [hx, hy]

end DiagramEditor
