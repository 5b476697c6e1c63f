import DiagramEditor.Settings

/-! The conditions on settings, field by field: what is checked of each, and that sizes which pass
are finite. -/
namespace DiagramEditor

def Shape.doubles : Shape → List Float
  | .dot r => [r]
  | .rectangle w h => [w, h]

namespace Settings

/-- Every field passes its own check. -/
structure Checked (s : Settings) : Prop where
  itemClass : Text.blank s.itemClass = false
  idPrefix : Text.blank s.idPrefix = false
  itemWidth : isPositive s.itemWidth = true
  itemHeight : isPositive s.itemHeight = true
  style : ∀ role, styleProblem? role (s.style role) = none
  logLevel : s.logLevel ∈ levels

theorem levelProblem?_eq_none_iff {s : Settings} :
    s.levelProblem? = none ↔ s.logLevel ∈ levels := by
  rw [levelProblem?]
  split
  · next h => exact iff_of_true rfl (List.contains_iff_mem.mp h)
  · next h => exact iff_of_false nofun fun hm => h (List.contains_iff_mem.mpr hm)

theorem problem?_eq_none_iff {s : Settings} : s.problem? = none ↔ s.Checked := by
  constructor
  · intro h
    simp only [problem?] at h
    split at h
    · cases h
    split at h
    · cases h
    split at h
    · cases h
    next hclass hprefix hsize =>
    simp only [Bool.not_eq_true', Bool.not_eq_false, Bool.and_eq_true] at hsize
    obtain ⟨hsource, hrest⟩ := Option.or_eq_none_iff.mp h
    obtain ⟨htarget, hlevel⟩ := Option.or_eq_none_iff.mp hrest
    refine ⟨by simpa using hclass, by simpa using hprefix, hsize.1, hsize.2, fun role => ?_,
      levelProblem?_eq_none_iff.mp hlevel⟩
    cases role with
    | source => exact hsource
    | target => exact htarget
  · intro h
    have hsource := h.style .source
    have htarget := h.style .target
    have hlevel := levelProblem?_eq_none_iff.mpr h.logLevel
    simp only [style] at hsource htarget
    simp [problem?, h.itemClass, h.idPrefix, h.itemWidth, h.itemHeight, hsource, htarget, hlevel]

theorem checked_default : Checked {} where
  itemClass := by decide
  idPrefix := by decide
  itemWidth := by decide +kernel
  itemHeight := by decide +kernel
  style role := by
    cases role with
    | source => rfl
    | target => rfl
  logLevel := by decide

def doubles (c : Settings) : List Float :=
  c.itemWidth :: c.itemHeight :: (c.sourceStyle.shape.doubles ++ c.targetStyle.shape.doubles)

theorem isFinite_of_isPositive {x : Float} (h : isPositive x = true) : x.isFinite = true :=
  (Bool.and_eq_true_iff.mp h).1

theorem isFinite_of_shapeIsPositive {s : Shape} (h : shapeIsPositive s = true) :
    ∀ x ∈ s.doubles, x.isFinite = true := by
  cases s with
  | dot r =>
    simp only [Shape.doubles, List.mem_singleton]
    rintro x rfl
    exact isFinite_of_isPositive h
  | rectangle w k =>
    obtain ⟨hw, hk⟩ := Bool.and_eq_true_iff.mp h
    simp only [Shape.doubles, List.mem_cons, List.not_mem_nil, or_false]
    rintro x (rfl | rfl)
    · exact isFinite_of_isPositive hw
    · exact isFinite_of_isPositive hk

theorem shapeIsPositive_of_styleProblem? {role : Role} {s : Style}
    (h : styleProblem? role s = none) : shapeIsPositive s.shape = true := by
  rw [styleProblem?] at h
  split at h
  · cases h
  split at h
  · cases h
  · next hshape => simpa using hshape

theorem Checked.isFinite {c : Settings} (h : c.Checked) : ∀ x ∈ c.doubles, x.isFinite = true := by
  have hshape : ∀ role, ∀ x ∈ (c.style role).shape.doubles, x.isFinite = true := fun role =>
    isFinite_of_shapeIsPositive (shapeIsPositive_of_styleProblem? (h.style role))
  intro x hx
  simp only [doubles, List.mem_cons, List.mem_append] at hx
  rcases hx with rfl | rfl | hs | ht
  · exact isFinite_of_isPositive h.itemWidth
  · exact isFinite_of_isPositive h.itemHeight
  · exact hshape .source x hs
  · exact hshape .target x ht

end Settings

end DiagramEditor
