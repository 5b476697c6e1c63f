import DiagramEditor.Text.Basic
import Mathlib.Data.List.DropRight

/-! What trimming leaves of a text: the part between the blank characters at its two ends. -/
namespace DiagramEditor.Text

/-- `text` is what `cs` holds between the blank characters at its ends. -/
structure Trims (cs text : List Char) : Prop where
  around : ∃ before after, cs = before ++ text ++ after ∧ (∀ c ∈ before, isBlank c = true) ∧
    ∀ c ∈ after, isBlank c = true
  first : ∀ h : text ≠ [], isBlank (text.head h) = false
  last : ∀ h : text ≠ [], isBlank (text.getLast h) = false

theorem dropEndWhile_eq (p : Char → Bool) (cs : List Char) : dropEndWhile p cs = cs.rdropWhile p :=
  rfl

theorem trims_trim (cs : List Char) : Trims cs (trim cs) := by
  have hrest : (cs.dropWhile isBlank).rdropWhile isBlank ++
      (cs.dropWhile isBlank).rtakeWhile isBlank = cs.dropWhile isBlank :=
    List.rdropWhile_append_rtakeWhile
  rw [trim, dropEndWhile_eq]
  refine ⟨⟨cs.takeWhile isBlank, (cs.dropWhile isBlank).rtakeWhile isBlank, ?_,
    fun c hc => List.mem_takeWhile_imp hc, fun c hc => List.mem_rtakeWhile_imp hc⟩, ?_, ?_⟩
  · rw [List.append_assoc, hrest, List.takeWhile_append_dropWhile]
  · intro h
    have hne : cs.dropWhile isBlank ≠ [] := by
      intro hnil
      rw [hnil] at h
      exact h rfl
    -- trimming the end leaves the first character where it is
    rw [(List.rdropWhile_prefix isBlank _).head h]
    exact List.head_dropWhile_not isBlank hne
  · intro h
    exact Bool.eq_false_iff.mpr (List.rdropWhile_last_not isBlank _ h)

theorem Trims.eq_trim {cs text : List Char} (h : Trims cs text) : text = trim cs := by
  obtain ⟨before, after, rfl, hb, ha⟩ := h.around
  rw [trim, dropEndWhile_eq, List.append_assoc, List.dropWhile_append_of_pos hb]
  cases text with
  | nil => rw [List.nil_append, List.dropWhile_eq_nil_iff.mpr ha, List.rdropWhile_nil]
  | cons c cs =>
    have hc : isBlank c = false := h.first (List.cons_ne_nil c cs)
    have hl := h.last (List.cons_ne_nil c cs)
    have hafter : ∀ d ∈ after.reverse, isBlank d = true := fun d hd => ha d (List.mem_reverse.mp hd)
    rw [List.cons_append, List.dropWhile_cons_of_neg (by simp [hc]), ← List.cons_append,
      List.rdropWhile, List.reverse_append, List.dropWhile_append_of_pos hafter]
    exact (List.rdropWhile_eq_self_iff.mpr fun _ => Bool.eq_false_iff.mp hl).symm

end DiagramEditor.Text
