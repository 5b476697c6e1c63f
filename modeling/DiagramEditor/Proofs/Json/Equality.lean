import DiagramEditor.Json.Value
import Mathlib.Data.List.Forall2
import Mathlib.Data.List.Nodup

/-! Equality of JSON values as the documents that hold them have it: the order of an object's
members does not matter, and doubles compare as numbers. -/
namespace DiagramEditor.Json

/-- Equal values. Of the members of one name the first counts. -/
inductive Same : Json → Json → Prop
  | null : Same .null .null
  | bool (b : Bool) : Same (.bool b) (.bool b)
  | int (n : Int) : Same (.number (.int n)) (.number (.int n))
  | real {x y : Float} (h : (x == y) = true) : Same (.number (.real x)) (.number (.real y))
  | string (s : String) : Same (.ofString s) (.ofString s)
  | array {js ks : List Json} (h : List.Forall₂ Same js ks) : Same (.array js) (.array ks)
  | object {ms ns : List (Str × Json)}
      (h : ∀ name, Option.Rel Same ((object ms).get? name) ((object ns).get? name)) :
      Same (.object ms) (.object ns)

theorem get?_record_cons (name : String) (j : Json) (members : List (String × Json))
    (wanted : String) : (record ((name, j) :: members)).get? wanted =
      if name = wanted then some j else (record members).get? wanted := by
  by_cases h : name = wanted <;> simp [record, get?, h]

theorem get?_record_eq_none {members : List (String × Json)} {name : String}
    (h : name ∉ members.map Prod.fst) : (record members).get? name = none := by
  induction members with
  | nil => rfl
  | cons m members ih =>
    rw [List.map_cons, List.mem_cons, not_or] at h
    rw [get?_record_cons, if_neg (Ne.symm h.1)]
    exact ih h.2

section Same
variable {js ks : List Json} {ms ns : List (String × Json)}

@[simp] theorem same_bool {b c : Bool} : Same (.bool b) (.bool c) ↔ b = c := by
  constructor
  · rintro ⟨⟩
    rfl
  · rintro rfl
    exact .bool b

@[simp] theorem same_ofInt {m n : Int} : Same (.ofInt m) (.ofInt n) ↔ m = n := by
  constructor
  · rintro ⟨⟩
    rfl
  · rintro rfl
    exact .int m

@[simp] theorem same_ofString {s t : String} : Same (.ofString s) (.ofString t) ↔ s = t := by
  constructor
  · rintro ⟨⟩
    rfl
  · rintro rfl
    exact .string s

@[simp] theorem same_array : Same (.array js) (.array ks) ↔ List.Forall₂ Same js ks := by
  constructor
  · rintro ⟨⟩
    assumption
  · exact .array

theorem same_ofFloat {x y : Float} (hx : x.isFinite = true) (hy : y.isFinite = true) :
    Same (.ofFloat x) (.ofFloat y) ↔ (x == y) = true := by
  rw [ofFloat, if_pos hx, ofFloat, if_pos hy]
  constructor
  · rintro ⟨⟩
    assumption
  · exact .real

theorem lookups_of_forall₂ (hnames : ms.map Prod.fst = ns.map Prod.fst)
    (h : List.Forall₂ (fun m n => Same m.2 n.2) ms ns) (name : String) :
    Option.Rel Same ((record ms).get? name) ((record ns).get? name) := by
  induction h with
  | nil => exact .none
  | @cons m n ms ns hj _ ih =>
    obtain ⟨hname, htail⟩ := List.cons.inj hnames
    rw [get?_record_cons, get?_record_cons, hname]
    split
    · exact .some hj
    · exact ih htail

theorem forall₂_of_lookups (hnames : ms.map Prod.fst = ns.map Prod.fst)
    (hnodup : (ms.map Prod.fst).Nodup)
    (h : ∀ name, Option.Rel Same ((record ms).get? name) ((record ns).get? name)) :
    List.Forall₂ (fun m n => Same m.2 n.2) ms ns := by
  induction ms generalizing ns with
  | nil =>
    obtain rfl := List.map_eq_nil_iff.mp hnames.symm
    exact .nil
  | cons m ms ih =>
    have hne : ns ≠ [] := by
      rintro rfl
      cases hnames
    obtain ⟨n, ns, rfl⟩ := List.exists_cons_of_ne_nil hne
    obtain ⟨hname, htail⟩ := List.cons.inj hnames
    obtain ⟨hfresh, hdistinct⟩ := List.nodup_cons.mp hnodup
    obtain ⟨name₁, j⟩ := m
    obtain ⟨name₂, k⟩ := n
    obtain rfl : name₁ = name₂ := hname
    simp only [get?_record_cons] at h
    refine .cons ?_ (ih htail hdistinct fun name => ?_)
    · have hfirst := h name₁
      rw [if_pos rfl, if_pos rfl] at hfirst
      cases hfirst
      assumption
    · by_cases hn : name₁ = name
      · subst hn
        have hfresh' : name₁ ∉ ns.map Prod.fst := htail ▸ hfresh
        rw [get?_record_eq_none hfresh, get?_record_eq_none hfresh']
        exact .none
      · have hrest := h name
        rwa [if_neg hn, if_neg hn] at hrest

theorem same_record (hnames : ms.map Prod.fst = ns.map Prod.fst)
    (hnodup : (ms.map Prod.fst).Nodup) :
    Same (.record ms) (.record ns) ↔ List.Forall₂ (fun m n => Same m.2 n.2) ms ns := by
  constructor
  · intro h
    cases h with
    | object h => exact forall₂_of_lookups hnames hnodup h
  · intro h
    exact .object (lookups_of_forall₂ hnames h)

end Same

end DiagramEditor.Json
