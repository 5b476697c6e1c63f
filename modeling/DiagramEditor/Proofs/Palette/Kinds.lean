import DiagramEditor.Element
import Mathlib.Data.List.Forall2

/-! Kinds of the elements that a palette is read from: the templates they give, and which of them a
template is found for when its kind is asked for. -/
namespace DiagramEditor

namespace Element

/-- The kind of an element is the first of its kind attribute, its id and its text that is there and
not empty. -/
inductive Kind (kindAttribute : String) (e : Element) : String → Prop
  | ofAttribute {kind : String} : e.attribute? kindAttribute = some kind → kind ≠ "" →
      Kind kindAttribute e kind
  | ofId {kind : String} : (e.attribute? kindAttribute).getD "" = "" → e.id = some kind →
      kind ≠ "" → Kind kindAttribute e kind
  | ofText : (e.attribute? kindAttribute).getD "" = "" → e.id.getD "" = "" → e.text ≠ "" →
      Kind kindAttribute e e.text

def isKindless (kindAttribute : String) (e : Element) : Bool :=
  (e.attribute? kindAttribute).getD "" == "" && e.id.getD "" == "" && e.text == ""

/-- The first of the elements that have a kind. -/
def FirstOf (kindAttribute kind : String) (elements : List Element) (e : Element) : Prop :=
  ∃ before after, elements = before ++ e :: after ∧ e.Kind kindAttribute kind ∧
    ∀ x ∈ before, ¬ x.Kind kindAttribute kind

def naming (kindAttribute : String) (e : Element) : String :=
  let fromAttribute := (e.attribute? kindAttribute).getD ""
  let fromId := e.id.getD ""
  if fromAttribute ≠ "" then fromAttribute else if fromId ≠ "" then fromId else e.text

variable {kindAttribute : String} {e : Element}

theorem Kind.ne_empty {kind : String} (h : e.Kind kindAttribute kind) : kind ≠ "" := by
  cases h with
  | ofAttribute _ hne => exact hne
  | ofId _ _ hne => exact hne
  | ofText _ _ hne => exact hne

theorem eq_some_of_getD {o : Option String} (h : o.getD "" ≠ "") : o = some (o.getD "") := by
  cases o with
  | none => exact absurd rfl h
  | some text => rfl

theorem kind_iff {kind : String} :
    e.Kind kindAttribute kind ↔ e.naming kindAttribute = kind ∧ kind ≠ "" := by
  constructor
  · intro h
    refine ⟨?_, h.ne_empty⟩
    cases h with
    | ofAttribute ha hne => simp [naming, ha, hne]
    | ofId ha hi hne => simp [naming, ha, hi, hne]
    | ofText ha hi _ => simp [naming, ha, hi]
  · rintro ⟨rfl, hne⟩
    simp only [naming] at hne ⊢
    split at hne
    · next ha => exact if_pos ha ▸ .ofAttribute (eq_some_of_getD ha) ha
    · next ha =>
      rw [if_neg ha]
      split at hne
      · next hi => exact if_pos hi ▸ .ofId (not_not.mp ha) (eq_some_of_getD hi) hi
      · next hi => exact if_neg hi ▸ .ofText (not_not.mp ha) (not_not.mp hi) hne

theorem isKindless_iff :
    e.isKindless kindAttribute = true ↔ ∀ kind, ¬ e.Kind kindAttribute kind := by
  have hnaming : (∀ kind, ¬ e.Kind kindAttribute kind) ↔ e.naming kindAttribute = "" := by
    simp only [kind_iff, not_and, not_not]
    exact ⟨fun h => h _ rfl, fun h kind hk => hk ▸ h⟩
  rw [hnaming, naming, isKindless]
  by_cases ha : (e.attribute? kindAttribute).getD "" = ""
  · by_cases hi : e.id.getD "" = "" <;> simp [ha, hi]
  · simp [ha]

end Element

open Element (Kind FirstOf)

namespace Template

variable {kindAttribute : String} {e : Element}

theorem ofElement?_eq : ofElement? kindAttribute e =
    if e.naming kindAttribute = "" then none
    else some ⟨e.naming kindAttribute, e.text⟩ := by
  have hfirst : ∀ (o : Option String) (rest : List String),
      (o.toList ++ rest).find? (· != "") =
        if o.getD "" ≠ "" then some (o.getD "") else rest.find? (· != "") := by
    intro o rest
    cases o with
    | none => rfl
    | some text => by_cases h : text = "" <;> simp [h]
  rw [ofElement?, List.append_assoc, hfirst, hfirst, Element.naming]
  by_cases ha : (e.attribute? kindAttribute).getD "" = ""
  · by_cases hi : e.id.getD "" = ""
    · by_cases ht : e.text = "" <;> simp [ha, hi, ht]
    · simp [ha, hi]
  · simp [ha]

theorem ofElement?_eq_some_iff {t : Template} :
    ofElement? kindAttribute e = some t ↔ e.Kind kindAttribute t.kind ∧ t.label = e.text := by
  obtain ⟨kind, label⟩ := t
  rw [ofElement?_eq, Element.kind_iff]
  split
  · next h => simp [h]
  · next h =>
    simp only [Option.some.injEq, mk.injEq]
    exact ⟨fun ⟨hk, hl⟩ => ⟨⟨hk, hk ▸ h⟩, hl.symm⟩, fun ⟨⟨hk, _⟩, hl⟩ => ⟨hk, hl.symm⟩⟩

theorem isSome_ofElement? :
    (ofElement? kindAttribute e).isSome = !e.isKindless kindAttribute := by
  rw [Bool.eq_iff_iff, Bool.not_eq_true', ← Bool.not_eq_true, Element.isKindless_iff,
    Option.isSome_iff_exists, not_forall_not]
  constructor
  · rintro ⟨t, ht⟩
    exact ⟨t.kind, (ofElement?_eq_some_iff.mp ht).1⟩
  · rintro ⟨kind, h⟩
    exact ⟨⟨kind, e.text⟩, ofElement?_eq_some_iff.mpr ⟨h, rfl⟩⟩

end Template

namespace Palette

variable (kindAttribute : String) (elements : List Element)

theorem templates_forall₂ :
    List.Forall₂ (fun e t => e.Kind kindAttribute t.kind ∧ t.label = e.text)
      (elements.filter fun e => !e.isKindless kindAttribute)
      (elements.filterMap (Template.ofElement? kindAttribute)) := by
  induction elements with
  | nil => exact .nil
  | cons e rest ih =>
    rw [List.filterMap_cons, List.filter_cons, ← Template.isSome_ofElement?]
    cases ht : Template.ofElement? kindAttribute e with
    | none => exact ih
    | some t => exact .cons (Template.ofElement?_eq_some_iff.mp ht) ih

variable {kindAttribute elements} {p : Palette} {kind : String}

theorem template?_eq (h : p.templates = elements.filterMap (Template.ofElement? kindAttribute)) :
    p.template? kind = (elements.find? fun e => (Template.ofElement? kindAttribute e).any
      fun t => t.kind == kind).bind (Template.ofElement? kindAttribute) := by
  rw [template?, h, List.find?_filterMap]

theorem any_kind {e : Element} :
    ((Template.ofElement? kindAttribute e).any fun t => t.kind == kind) = true ↔
      e.Kind kindAttribute kind := by
  simp only [Option.any_eq_true, Template.ofElement?_eq_some_iff, beq_iff_eq]
  constructor
  · rintro ⟨t, ⟨hk, -⟩, rfl⟩
    exact hk
  · intro hk
    exact ⟨⟨kind, e.text⟩, ⟨hk, rfl⟩, rfl⟩

theorem template?_first (h : p.templates = elements.filterMap (Template.ofElement? kindAttribute))
    {e : Element} (he : e ∈ elements) (hk : e.Kind kindAttribute kind) :
    ∃ first, FirstOf kindAttribute kind elements first ∧
      p.template? kind = some ⟨kind, first.text⟩ := by
  have hfound : (elements.find? fun e => (Template.ofElement? kindAttribute e).any
      fun t => t.kind == kind).isSome = true :=
    List.find?_isSome.mpr ⟨e, he, any_kind.mpr hk⟩
  obtain ⟨first, hfirst⟩ := Option.isSome_iff_exists.mp hfound
  obtain ⟨hp, before, after, hsplit, hbefore⟩ := List.find?_eq_some_iff_append.mp hfirst
  have hfk : first.Kind kindAttribute kind := any_kind.mp hp
  refine ⟨first, ⟨before, after, hsplit, hfk, fun x hx hxk => ?_⟩, ?_⟩
  · have hnot := hbefore x hx
    rw [any_kind.mpr hxk] at hnot
    cases hnot
  · rw [template?_eq h, hfirst]
    exact Template.ofElement?_eq_some_iff.mpr ⟨hfk, rfl⟩

theorem template?_none (h : p.templates = elements.filterMap (Template.ofElement? kindAttribute))
    (hk : ∀ e ∈ elements, ¬ e.Kind kindAttribute kind) : p.template? kind = none := by
  rw [template?_eq h, List.find?_eq_none.mpr fun e he => any_kind.not.mpr (hk e he)]
  rfl

end Palette

end DiagramEditor
