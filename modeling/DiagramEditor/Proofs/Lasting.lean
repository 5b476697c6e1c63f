import Mathlib.Data.List.Induction

/-! Histories in which things are made and undone again: what is left of them in the end, in the
order in which it was made. -/
namespace DiagramEditor

section Lasting
variable {α β : Type} (made : α → Option β) (undone : β → α → Bool)

/-- What a history has made and not undone since. -/
def lasting : List α → List β
  | [] => []
  | a :: future =>
    match made a with
    | none => lasting future
    | some b => if future.any (undone b) then lasting future else b :: lasting future

variable {made undone}

theorem lasting_concat (l : List α) (a : α) :
    lasting made undone (l ++ [a]) =
      ((lasting made undone l).filter fun b => !undone b a) ++ (made a).toList := by
  induction l with
  | nil => cases h : made a <;> simp [lasting, h]
  | cons c l ih =>
    rw [List.cons_append, lasting, lasting]
    cases made c with
    | none => exact ih
    | some b =>
      by_cases hl : l.any (undone b) = true
      · simp [List.any_append, hl, ih]
      · by_cases ha : undone b a = true
        · simp [List.any_append, hl, ha, ih]
        · simp [List.any_append, hl, ha, ih]

theorem lasting_sublist (l : List α) : (lasting made undone l).Sublist (l.filterMap made) := by
  induction l with
  | nil => exact .slnil
  | cons a l ih =>
    rw [lasting, List.filterMap_cons]
    cases made a with
    | none => exact ih
    | some b =>
      by_cases hl : l.any (undone b) = true
      · simpa [hl] using ih.cons b
      · simpa [hl] using ih.cons_cons b

end Lasting

end DiagramEditor
