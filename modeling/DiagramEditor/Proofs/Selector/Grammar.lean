import DiagramEditor.Selector
import DiagramEditor.Proofs.Text.Trim
import Mathlib.Data.List.Forall2

/-! The grammar of selectors: an alternative is a tag, `*` or neither, followed by parts, each a
marker with a name. The scan accepts exactly the texts of this form. -/
namespace DiagramEditor

namespace Compound

/-- A non-empty run of ASCII letters, digits, `-` and `_`. -/
def IsName (cs : List Char) : Prop :=
  cs ≠ [] ∧ ∀ c ∈ cs, ('a' ≤ c ∧ c ≤ 'z') ∨ ('A' ≤ c ∧ c ≤ 'Z') ∨ ('0' ≤ c ∧ c ≤ '9') ∨
    c = '-' ∨ c = '_'

inductive Part
  | id (name : List Char)
  | className (name : List Char)

namespace Part

def marker : Part → Char
  | .id _ => '#'
  | .className _ => '.'

def name : Part → List Char
  | .id name | .className name => name

def spelling (p : Part) : List Char := p.marker :: p.name

def id? : Part → Option String
  | .id name => some (String.ofList name)
  | .className _ => none

def className? : Part → Option String
  | .id _ => none
  | .className name => some (String.ofList name)

end Part

/-- The text of a tag and parts, of which one at most is an id, and what it stands for. -/
structure Wording (cs : List Char) (c : Compound) (tag : List Char) (parts : List Part) : Prop where
  text : cs = tag ++ parts.flatMap Part.spelling
  nonempty : cs ≠ []
  tag_form : tag = [] ∨ tag = ['*'] ∨ IsName tag
  names : ∀ p ∈ parts, IsName p.name
  one_id : (parts.filterMap Part.id?).length ≤ 1
  tag_eq : c.tag =
    if tag = [] ∨ tag = ['*'] then none else some (Text.asciiLower (String.ofList tag))
  id_eq : c.id = (parts.filterMap Part.id?).head?
  classes_eq : c.classes = parts.filterMap Part.className?

def Spells (cs : List Char) (c : Compound) : Prop := ∃ tag parts, Wording cs c tag parts

def plain (c : Char) : Bool := !isMarker c

theorem isNameChar_iff {c : Char} : isNameChar c = true ↔
    ('a' ≤ c ∧ c ≤ 'z') ∨ ('A' ≤ c ∧ c ≤ 'Z') ∨ ('0' ≤ c ∧ c ≤ '9') ∨ c = '-' ∨ c = '_' := by
  have hranges : isNameChar c =
      (decide ('A' ≤ c ∧ c ≤ 'Z') || (decide ('a' ≤ c) && decide (c ≤ 'z')) ||
        (decide ('0' ≤ c) && decide (c ≤ '9')) || c == '-' || c == '_') := rfl
  rw [hranges]
  simp only [Bool.or_eq_true, Bool.and_eq_true, decide_eq_true_eq, beq_iff_eq]
  tauto

theorem isName_iff {cs : List Char} : isName cs = true ↔ IsName cs := by
  simp only [isName, IsName, Bool.and_eq_true, Bool.not_eq_true', List.isEmpty_eq_false_iff,
    List.all_eq_true, isNameChar_iff]

theorem isMarker_iff {m : Char} : isMarker m = true ↔ m = '#' ∨ m = '.' := by
  simp [isMarker]

theorem IsName.plain {cs : List Char} (h : IsName cs) : ∀ c ∈ cs, plain c = true := by
  intro c hc
  have hname := isNameChar_iff.mpr (h.2 c hc)
  simp only [Compound.plain, Bool.not_eq_true', ← Bool.not_eq_true, isMarker_iff]
  rintro (rfl | rfl)
  · exact Bool.false_ne_true hname
  · exact Bool.false_ne_true hname

theorem Part.isMarker_marker (p : Part) : isMarker p.marker = true := by
  cases p <;> rfl

theorem exists_part {m : Char} (h : isMarker m = true) (name : List Char) :
    ∃ p : Part, p.marker = m ∧ p.name = name := by
  rcases isMarker_iff.mp h with rfl | rfl
  · exact ⟨.id name, rfl, rfl⟩
  · exact ⟨.className name, rfl, rfl⟩

theorem head?_dropWhile (cs : List Char) :
    ∀ m ∈ (cs.dropWhile plain).head?, isMarker m = true := by
  intro m hm
  have h := List.head?_dropWhile_not plain cs
  rw [hm] at h
  simpa [plain] using h

theorem takeWhile_spellings {cs : List Char} (h : ∀ c ∈ cs, plain c = true) (parts : List Part) :
    (cs ++ parts.flatMap Part.spelling).takeWhile plain = cs ∧
      (cs ++ parts.flatMap Part.spelling).dropWhile plain = parts.flatMap Part.spelling := by
  rw [List.takeWhile_append_of_pos h, List.dropWhile_append_of_pos h]
  cases parts with
  | nil => simp
  | cons p ps =>
    have hm : ¬ plain p.marker = true := by simp [plain, p.isMarker_marker]
    simp [Part.spelling, hm]

def adds (c : Compound) (parts : List Part) : Compound :=
  { c with
    id := (c.id.toList ++ parts.filterMap Part.id?).head?
    classes := c.classes ++ parts.filterMap Part.className? }

def Room (c : Compound) (parts : List Part) : Prop :=
  (c.id.toList ++ parts.filterMap Part.id?).length ≤ 1

theorem adds_nil (c : Compound) : c.adds [] = c := by
  simp [adds]

theorem room_nil (c : Compound) : c.Room [] := by
  cases h : c.id <;> simp [Room, h]

theorem toList_head? {α : Type} {l : List α} (h : l.length ≤ 1) : l.head?.toList = l := by
  cases l with
  | nil => rfl
  | cons a rest =>
    cases rest with
    | nil => rfl
    | cons b rest => simp at h

theorem filterMap_cons {α : Type} (f : Part → Option α) (p : Part) (ps : List Part) :
    (p :: ps).filterMap f = [p].filterMap f ++ ps.filterMap f := by
  rw [← List.filterMap_append, List.singleton_append]

theorem adds_cons {c : Compound} {p : Part} (h : c.Room [p]) (ps : List Part) :
    (c.adds [p]).adds ps = c.adds (p :: ps) := by
  simp only [adds, toList_head? h, filterMap_cons _ p ps, List.append_assoc]

theorem room_cons {c : Compound} {p : Part} {ps : List Part} :
    c.Room (p :: ps) ↔ c.Room [p] ∧ (c.adds [p]).Room ps := by
  have happ : c.id.toList ++ (p :: ps).filterMap Part.id? =
      (c.id.toList ++ [p].filterMap Part.id?) ++ ps.filterMap Part.id? := by
    rw [filterMap_cons, List.append_assoc]
  constructor
  · intro h
    rw [Room, happ] at h
    have hp : c.Room [p] := by
      rw [List.length_append] at h
      exact Nat.le_trans (Nat.le_add_right _ _) h
    exact ⟨hp, by rwa [Room, adds, toList_head? hp]⟩
  · rintro ⟨hp, h⟩
    rw [Room, happ]
    rwa [Room, adds, toList_head? hp] at h

theorem withPart?_eq_some_iff {c d : Compound} {p : Part} :
    c.withPart? (p.marker, p.name) = some d ↔ IsName p.name ∧ c.Room [p] ∧ d = c.adds [p] := by
  rw [withPart?, ← isName_iff, @eq_comm _ d]
  by_cases hn : isName p.name = true
  · cases p with
    | id name =>
      cases hc : c.id with
      | none =>
        simp [Part.marker, Part.name, Part.id?, Part.className?, List.filterMap, Room, adds, hc]
      | some other => simp [Part.marker, hn, hc, Room, Part.id?]
    | className name =>
      have hroom : c.Room [.className name] := room_nil c
      simp [Part.marker, Part.name, Part.id?, Part.className?, adds, hroom]
  · simp [hn]

theorem cut_offset (cs : List Char) :
    cut (Text.offset isMarker cs) cs = .ok (cs.takeWhile plain, cs.dropWhile plain) := by
  rw [cut, Text.cut?_offset]
  rfl

theorem scanPart_eq {marker : Char} (h : isMarker marker = true) (c : Compound) (cs : List Char) :
    scanPart c marker (marker :: cs) =
      match c.withPart? (marker, cs.takeWhile plain) with
      | none => .error .malformed
      | some d => .ok (d, cs.dropWhile plain) := by
  have hone : Text.byteLength [marker] = 1 := by
    rcases isMarker_iff.mp h with rfl | rfl <;> rfl
  have hcut : cut 1 (marker :: cs) = .ok ([marker], cs) := by
    have h := Text.cut?_byteLength [marker] cs
    rw [hone] at h
    rw [cut, ← List.singleton_append, h]
  cases hpart : c.withPart? (marker, cs.takeWhile plain) with
  | none => simp only [scanPart, hcut, cut_offset, hpart]
  | some d => simp only [scanPart, hcut, cut_offset, hpart]

theorem scanParts_spellings (c : Compound) {parts : List Part} (hn : ∀ p ∈ parts, IsName p.name)
    (hr : c.Room parts) : scanParts c (parts.flatMap Part.spelling) = .ok (c.adds parts) := by
  induction parts generalizing c with
  | nil => rw [List.flatMap_nil, scanParts, adds_nil]
  | cons p ps ih =>
    obtain ⟨hp, hps⟩ := room_cons.mp hr
    have hname := hn p List.mem_cons_self
    obtain ⟨htake, hdrop⟩ := takeWhile_spellings hname.plain ps
    have hpart : scanPart c p.marker (p.marker :: (p.name ++ ps.flatMap Part.spelling)) =
        .ok (c.adds [p], ps.flatMap Part.spelling) := by
      rw [scanPart_eq p.isMarker_marker, htake, hdrop,
        withPart?_eq_some_iff.mpr ⟨hname, hp, rfl⟩]
    rw [List.flatMap_cons, Part.spelling, List.cons_append, scanParts]
    split
    · next he => cases he.symm.trans hpart
    · next d rest he =>
      obtain ⟨rfl, rfl⟩ := Prod.mk.inj (Except.ok.inj (he.symm.trans hpart))
      rw [ih _ (fun q hq => hn q (List.mem_cons_of_mem p hq)) hps, adds_cons hp]

theorem scanParts_cases (c : Compound) {cs : List Char} (h : ∀ m ∈ cs.head?, isMarker m = true) :
    (∃ parts, cs = parts.flatMap Part.spelling ∧ (∀ p ∈ parts, IsName p.name) ∧ c.Room parts ∧
      scanParts c cs = .ok (c.adds parts)) ∨ scanParts c cs = .error .malformed := by
  fun_induction scanParts c cs with
  | case1 c => exact Or.inl ⟨[], rfl, by simp, room_nil c, by rw [adds_nil]⟩
  | case2 c marker more e he =>
    rw [scanPart_eq (h marker rfl)] at he
    split at he
    · exact Or.inr (congrArg _ (Except.error.inj he).symm)
    · cases he
  | case3 c marker more d rest he ih =>
    rw [scanPart_eq (h marker rfl)] at he
    split at he
    · cases he
    · next hd =>
      obtain ⟨rfl, rfl⟩ := Prod.mk.inj (Except.ok.inj he)
      obtain ⟨p, rfl, hname⟩ := exists_part (h marker rfl) (more.takeWhile plain)
      obtain ⟨hn, hp, rfl⟩ := withPart?_eq_some_iff.mp (hname ▸ hd)
      refine (ih (head?_dropWhile more)).imp_left ?_
      rintro ⟨ps, hps, hns, hr, hscan⟩
      refine ⟨p :: ps, ?_, ?_, room_cons.mpr ⟨hp, hr⟩, ?_⟩
      · rw [List.flatMap_cons, ← hps, Part.spelling, hname, List.cons_append,
          List.takeWhile_append_dropWhile]
      · exact List.forall_mem_cons.mpr ⟨hn, hns⟩
      · rw [hscan, adds_cons hp]

def ofTag (tag : List Char) : Compound :=
  { tag := if tag = [] ∨ tag = ['*'] then none else some (Text.asciiLower (String.ofList tag)) }

theorem ofTag?_eq_some_iff {tag : List Char} {c : Compound} :
    ofTag? tag = some c ↔ (tag = [] ∨ tag = ['*'] ∨ IsName tag) ∧ c = ofTag tag := by
  rw [ofTag?, ofTag, ← isName_iff, @eq_comm _ c]
  by_cases h : tag = [] ∨ tag = ['*']
  · rcases h with rfl | rfl <;> simp
  · obtain ⟨hnil, hstar⟩ := not_or.mp h
    by_cases hn : isName tag = true
    · simp [hnil, hstar, hn]
    · simp [hnil, hstar, hn]

theorem wording_iff {cs tag : List Char} {c : Compound} {parts : List Part} :
    Wording cs c tag parts ↔ cs = tag ++ parts.flatMap Part.spelling ∧ cs ≠ [] ∧
      (tag = [] ∨ tag = ['*'] ∨ IsName tag) ∧ (∀ p ∈ parts, IsName p.name) ∧
      (ofTag tag).Room parts ∧ c = (ofTag tag).adds parts := by
  constructor
  · intro h
    refine ⟨h.text, h.nonempty, h.tag_form, h.names, h.one_id, ?_⟩
    obtain ⟨t, i, classes⟩ := c
    obtain rfl : t = _ := h.tag_eq
    obtain rfl : i = _ := h.id_eq
    obtain rfl : classes = _ := h.classes_eq
    rfl
  · rintro ⟨ht, hne, hform, hnames, hr, rfl⟩
    exact ⟨ht, hne, hform, hnames, hr, rfl, rfl, rfl⟩

theorem scanTag_eq (cs : List Char) :
    scanTag cs =
      match ofTag? (cs.takeWhile plain) with
      | none => .error .malformed
      | some c => .ok (c, cs.dropWhile plain) := by
  cases htag : ofTag? (cs.takeWhile plain) with
  | none => simp only [scanTag, cut_offset, htag]
  | some c => simp only [scanTag, cut_offset, htag]

theorem scan_of_spells {cs : List Char} {c : Compound} (h : Spells cs c) : scan cs = .ok c := by
  obtain ⟨tag, parts, h⟩ := h
  obtain ⟨rfl, hne, hform, hnames, hr, rfl⟩ := wording_iff.mp h
  have hplain : ∀ ch ∈ tag, plain ch = true := by
    rcases hform with rfl | rfl | hname
    · simp
    · simp [plain, isMarker]
    · exact hname.plain
  obtain ⟨htake, hdrop⟩ := takeWhile_spellings hplain parts
  rw [scan, if_neg (by simpa using hne), scanTag_eq, htake, hdrop,
    ofTag?_eq_some_iff.mpr ⟨hform, rfl⟩]
  exact scanParts_spellings _ hnames hr

theorem scan_cases (cs : List Char) :
    (∃ c, Spells cs c ∧ scan cs = .ok c) ∨ scan cs = .error .malformed := by
  rw [scan]
  split
  · exact Or.inr rfl
  · next hne =>
    rw [scanTag_eq]
    cases ht : ofTag? (cs.takeWhile plain) with
    | none => exact Or.inr rfl
    | some c =>
      obtain ⟨hform, rfl⟩ := ofTag?_eq_some_iff.mp ht
      refine (scanParts_cases _ (head?_dropWhile cs)).imp_left ?_
      rintro ⟨parts, hparts, hnames, hr, hscan⟩
      refine ⟨_, ⟨cs.takeWhile plain, parts, wording_iff.mpr ?_⟩, hscan⟩
      refine ⟨?_, ?_, hform, hnames, hr, rfl⟩
      · rw [← hparts, List.takeWhile_append_dropWhile]
      · simpa using hne

theorem scan_eq_ok_iff {cs : List Char} {c : Compound} : scan cs = .ok c ↔ Spells cs c := by
  refine ⟨fun h => ?_, scan_of_spells⟩
  rcases scan_cases cs with ⟨d, hd, hok⟩ | herror
  · obtain rfl := Except.ok.inj (h.symm.trans hok)
    exact hd
  · cases h.symm.trans herror

/-- The loop over the parts of an alternative goes on from one state to the other. -/
def Turn (now next : Compound × List Char) : Prop :=
  ∃ marker more, now.2 = marker :: more ∧ scanPart now.1 marker now.2 = .ok next

theorem turn_wellFounded : WellFounded fun next now => Turn now next := by
  have hwf := InvImage.wf (fun s : Compound × List Char => s.2.length) Nat.lt_wfRel.wf
  refine Subrelation.wf ?_ hwf
  rintro next now ⟨marker, more, -, h⟩
  exact length_of_scanPart h

end Compound

section MapM
variable {α β ε : Type} (f : α → Except ε β)

theorem mapM_cases (l : List α) :
    (∃ bs, l.mapM f = .ok bs ∧ List.Forall₂ (fun a b => f a = .ok b) l bs) ∨
      ∃ e, l.mapM f = .error e ∧ ∃ a ∈ l, f a = .error e := by
  induction l with
  | nil => exact Or.inl ⟨[], rfl, .nil⟩
  | cons a l ih =>
    rw [List.mapM_cons]
    cases ha : f a with
    | error e => exact Or.inr ⟨e, rfl, a, List.mem_cons_self, ha⟩
    | ok b =>
      rcases ih with ⟨bs, hbs, hall⟩ | ⟨e, he, c, hc, hfc⟩
      · rw [hbs]
        exact Or.inl ⟨b :: bs, rfl, .cons ha hall⟩
      · rw [he]
        exact Or.inr ⟨e, rfl, c, List.mem_cons_of_mem a hc, hfc⟩

end MapM

namespace Selector

open Compound (Spells)

/-- Without the blank characters around it, a piece of a selector stands for the compound. -/
def Reads (piece : List Char) (c : Compound) : Prop :=
  ∃ text, Text.Trims piece text ∧ Spells text c

theorem reads_iff {piece : List Char} {c : Compound} :
    Reads piece c ↔ Compound.scan (Text.trim piece) = .ok c := by
  rw [Compound.scan_eq_ok_iff]
  constructor
  · rintro ⟨text, ht, hc⟩
    exact ht.eq_trim ▸ hc
  · intro hc
    exact ⟨_, Text.trims_trim piece, hc⟩

theorem reads_rightUnique : Relator.RightUnique Reads := by
  intro piece c d hc hd
  exact Except.ok.inj ((reads_iff.mp hc).symm.trans (reads_iff.mp hd))

theorem exists_reads {pieces : List (List Char)} {cs : List Compound}
    (h : List.Forall₂ Reads pieces cs) : ∀ piece ∈ pieces, ∃ c, Reads piece c :=
  ((List.forall₂_and_left pieces cs).mp (h.imp fun _ c hc => ⟨⟨c, hc⟩, hc⟩)).1

theorem scan_cases (cs : List Char) :
    (∃ s, scan cs = .ok s ∧ List.Forall₂ Reads (cs.splitOn ',') s.alternatives) ∨
      scan cs = .error .malformed ∧ ∃ piece ∈ cs.splitOn ',', ∀ c, ¬ Reads piece c := by
  rw [scan]
  rcases mapM_cases (fun piece => Compound.scan (Text.trim piece)) (cs.splitOn ',') with
    ⟨bs, hbs, hall⟩ | ⟨e, he, piece, hp, hfail⟩
  · rw [hbs]
    exact Or.inl ⟨⟨bs⟩, rfl, hall.imp fun _ _ h => reads_iff.mpr h⟩
  · have hmalformed : e = .malformed := by
      rcases Compound.scan_cases (Text.trim piece) with ⟨c, -, hok⟩ | herror
      · cases hok.symm.trans hfail
      · exact Except.error.inj (hfail.symm.trans herror)
    rw [he, hmalformed]
    refine Or.inr ⟨rfl, piece, hp, fun c hc => ?_⟩
    cases (reads_iff.mp hc).symm.trans hfail

/-- A selector is read if and only if each piece of the text between commas, without the blank
characters around it, is in the grammar; what the pieces stand for are its alternatives, in their
order. Any other text is turned down as it stands. No scan goes on for ever, for its loop has no
endless chain of turns, and none cuts a text inside a character. -/
theorem parse_reads_grammar (raw : String) :
    (∀ s, parse raw = .ok s ↔ List.Forall₂ Reads (raw.toList.splitOn ',') s.alternatives) ∧
    (∀ f, parse raw = .error f ↔ f = .invalidSelector raw ∧
      ¬ ∀ piece ∈ raw.toList.splitOn ',', ∃ c, Reads piece c) ∧
    (WellFounded fun next now => Compound.Turn now next) ∧ scan raw.toList ≠ .error .torn := by
  rcases scan_cases raw.toList with ⟨s, hs, hall⟩ | ⟨hs, piece, hp, hnone⟩
  · have hparse : parse raw = .ok s := by
      rw [parse, parse?, hs]
      rfl
    refine ⟨fun t => ⟨fun ht => ?_, fun ht => ?_⟩, fun f => ⟨fun hf => ?_, fun hf => ?_⟩,
      Compound.turn_wellFounded, ?_⟩
    · obtain rfl := Except.ok.inj (hparse.symm.trans ht)
      exact hall
    · obtain ⟨alternatives⟩ := s
      obtain ⟨others⟩ := t
      obtain rfl : alternatives = others := reads_rightUnique.forall₂ hall ht
      exact hparse
    · cases hparse.symm.trans hf
    · exact absurd (exists_reads hall) hf.2
    · rw [hs]
      nofun
  · have hparse : parse raw = .error (.invalidSelector raw) := by
      rw [parse, parse?, hs]
      rfl
    have hnot : ¬ ∀ piece ∈ raw.toList.splitOn ',', ∃ c, Reads piece c := by
      intro hevery
      obtain ⟨c, hc⟩ := hevery piece hp
      exact hnone c hc
    refine ⟨fun t => ⟨fun ht => ?_, fun ht => ?_⟩, fun f => ⟨fun hf => ?_, fun hf => ?_⟩,
      Compound.turn_wellFounded, ?_⟩
    · cases hparse.symm.trans ht
    · exact absurd (exists_reads ht) hnot
    · exact ⟨(Except.error.inj (hparse.symm.trans hf)).symm, hnot⟩
    · rw [hparse, hf.1]
    · rw [hs]
      decide

end Selector

end DiagramEditor
