import DiagramEditor.Proofs.Selector.Grammar
import Mathlib

/-! What a selector matches. A text matches what one of its alternatives matches, whatever the order
of the alternatives, the blanks around them, the order and number of their parts and the case of
their tags. -/
namespace DiagramEditor

namespace Compound

theorem toLower_cases (c : Char) :
    ('A' ≤ c ∧ c ≤ 'Z' ∧ 'a' ≤ c.toLower ∧ c.toLower ≤ 'z') ∨ c.toLower = c := by
  by_cases h : 'A'.val ≤ c.val ∧ c.val ≤ 'Z'.val
  · left
    have hlow : c.toLower.val = c.val + 32 := congrArg Char.val (dif_pos h)
    obtain ⟨hA, hZ⟩ := h
    have hrange : 'a'.val ≤ c.toLower.val ∧ c.toLower.val ≤ 'z'.val := by
      simp only [hlow, UInt32.le_iff_toNat_le, UInt32.toNat_add] at hA hZ ⊢
      simp at hA hZ ⊢
      omega
    exact ⟨hA, hZ, hrange⟩
  · exact Or.inr (dif_neg h)

theorem isNameChar_toLower (c : Char) : isNameChar c.toLower = isNameChar c := by
  rcases toLower_cases c with ⟨hA, hZ, ha, hz⟩ | h
  · rw [isNameChar_iff.mpr (Or.inl ⟨ha, hz⟩), isNameChar_iff.mpr (Or.inr (Or.inl ⟨hA, hZ⟩))]
  · rw [h]

theorem toLower_eq_star_iff {c : Char} : c.toLower = '*' ↔ c = '*' := by
  rcases toLower_cases c with ⟨hA, -, ha, -⟩ | h
  · constructor
    · intro h
      exact absurd (h ▸ ha) (by decide)
    · rintro rfl
      exact absurd hA (by decide)
  · rw [h]

theorem isName_toLower {tag : List Char} : IsName (tag.map Char.toLower) ↔ IsName tag := by
  rw [← isName_iff, ← isName_iff]
  simp [isName, Function.comp_def, isNameChar_toLower]

theorem toLower_eq_nil_or_star {tag : List Char} :
    tag.map Char.toLower = [] ∨ tag.map Char.toLower = ['*'] ↔ tag = [] ∨ tag = ['*'] := by
  refine or_congr List.map_eq_nil_iff ?_
  constructor
  · intro h
    obtain ⟨c, rfl, hc⟩ := List.map_eq_singleton_iff.mp h
    rw [toLower_eq_star_iff.mp hc]
  · rintro rfl
    rfl

theorem Part.id?_eq_some_iff {p : Part} {name : String} :
    p.id? = some name ↔ p = .id name.toList := by
  cases p <;> simp [Part.id?, ← String.toList_inj]

theorem Part.className?_eq_some_iff {p : Part} {name : String} :
    p.className? = some name ↔ p = .className name.toList := by
  cases p <;> simp [Part.className?, ← String.toList_inj]

def spelled (tag : List Char) (parts : List Part) : List Char :=
  tag ++ parts.flatMap Part.spelling

/-- Neither the tag nor a name of a part holds a marker. -/
structure Unmarked (tag : List Char) (parts : List Part) : Prop where
  tag : ∀ c ∈ tag, plain c = true
  names : ∀ p ∈ parts, ∀ c ∈ p.name, plain c = true

theorem Unmarked.of_all {tag : List Char} {parts : List Part} (ht : tag.all plain = true)
    (hp : parts.all (fun p => p.name.all plain) = true) : Unmarked tag parts where
  tag := List.all_eq_true.mp ht
  names := fun p hmem => List.all_eq_true.mp (List.all_eq_true.mp hp p hmem)

/-- What an element has to be for a tag and parts to match it: of this tag, up to the case of ASCII
letters, if one is named, and with every id and every class. -/
structure Meets (tag : List Char) (parts : List Part) (t : String) (id : Option String)
    (classes : List String) : Prop where
  tag : tag = [] ∨ tag = ['*'] ∨ Text.asciiLower (String.ofList tag) = Text.asciiLower t
  ids : ∀ name, .id name ∈ parts → id = some (String.ofList name)
  classes : ∀ name, .className name ∈ parts → String.ofList name ∈ classes

/-- The same tag but for the case of ASCII letters, the same ids, and the same classes, each of them
any number of times. -/
structure Alike (tag : List Char) (parts : List Part) (tag' : List Char) (parts' : List Part) :
    Prop where
  tag : tag.map Char.toLower = tag'.map Char.toLower
  ids : (parts.filterMap Part.id?).Perm (parts'.filterMap Part.id?)
  classes : ∀ name, .className name ∈ parts ↔ .className name ∈ parts'

/-- Two pieces of a selector that hold, between the blank characters around them, tags and parts
that are alike. -/
def Reworded (piece other : List Char) : Prop :=
  ∃ tag parts tag' parts', Text.Trims piece (spelled tag parts) ∧
    Text.Trims other (spelled tag' parts') ∧ Unmarked tag parts ∧ Unmarked tag' parts' ∧
    Alike tag parts tag' parts'

theorem Reworded.symm {piece other : List Char} (h : Reworded piece other) :
    Reworded other piece := by
  obtain ⟨tag, parts, tag', parts', ht, ht', hu, hu', ha⟩ := h
  exact ⟨tag', parts', tag, parts, ht', ht, hu', hu, ha.tag.symm, ha.ids.symm,
    fun name => (ha.classes name).symm⟩

section Spelled
variable {tag tag' : List Char} {parts parts' : List Part}

theorem Wording.unmarked {cs : List Char} {c : Compound} (h : Wording cs c tag parts) :
    Unmarked tag parts where
  tag := by
    rcases h.tag_form with rfl | rfl | hname
    · simp
    · simp [plain, isMarker]
    · exact hname.plain
  names := fun p hp => (h.names p hp).plain

theorem spelled_inj (hu : Unmarked tag parts) (hu' : Unmarked tag' parts')
    (h : spelled tag parts = spelled tag' parts') : tag = tag' ∧ parts = parts' := by
  obtain ⟨htake, hdrop⟩ := takeWhile_spellings hu.tag parts
  obtain ⟨htake', hdrop'⟩ := takeWhile_spellings hu'.tag parts'
  rw [spelled, spelled] at h
  refine ⟨htake.symm.trans (h ▸ htake'), ?_⟩
  have hrest : parts.flatMap Part.spelling = parts'.flatMap Part.spelling :=
    hdrop.symm.trans (h ▸ hdrop')
  have hn := hu.names
  have hn' := hu'.names
  clear h htake hdrop htake' hdrop' hu hu'
  induction parts generalizing parts' with
  | nil =>
    cases parts' with
    | nil => rfl
    | cons q qs => simp [Part.spelling] at hrest
  | cons p ps ih =>
    cases parts' with
    | nil => simp [Part.spelling] at hrest
    | cons q qs =>
      obtain ⟨hp, hps⟩ := List.forall_mem_cons.mp hn
      obtain ⟨hq, hqs⟩ := List.forall_mem_cons.mp hn'
      simp only [List.flatMap_cons, Part.spelling, List.cons_append] at hrest
      obtain ⟨hmarker, hrest⟩ := List.cons.inj hrest
      obtain ⟨htake, hdrop⟩ := takeWhile_spellings hp ps
      obtain ⟨htake', hdrop'⟩ := takeWhile_spellings hq qs
      have hname : p.name = q.name := htake.symm.trans (hrest ▸ htake')
      have hpq : p = q := by
        cases p <;> cases q <;> simp_all [Part.marker, Part.name]
      rw [hpq, ih (hdrop.symm.trans (hrest ▸ hdrop')) hps hqs]

theorem spells_iff (hu : Unmarked tag parts) {c : Compound} :
    Spells (spelled tag parts) c ↔ Wording (spelled tag parts) c tag parts := by
  constructor
  · rintro ⟨tag', parts', h⟩
    obtain ⟨rfl, rfl⟩ := spelled_inj hu h.unmarked h.text
    exact h
  · exact fun h => ⟨tag, parts, h⟩

theorem exists_unmarked (cs : List Char) :
    ∃ tag parts, cs = spelled tag parts ∧ Unmarked tag parts := by
  -- on the length, for each part is taken off as a whole
  have hparts : ∀ n (cs : List Char), cs.length ≤ n → (∀ m ∈ cs.head?, isMarker m = true) →
      ∃ parts, cs = spelled [] parts ∧ Unmarked [] parts := by
    intro n
    induction n with
    | zero =>
      intro cs hn _
      obtain rfl := List.eq_nil_of_length_eq_zero (Nat.le_zero.mp hn)
      exact ⟨[], rfl, by simp, by simp⟩
    | succ n ih =>
      intro cs hn hm
      cases cs with
      | nil => exact ⟨[], rfl, by simp, by simp⟩
      | cons m more =>
        have hrest : (more.dropWhile plain).length ≤ n :=
          (List.length_dropWhile_le plain more).trans (Nat.le_of_succ_le_succ hn)
        obtain ⟨ps, hps, hu⟩ := ih _ hrest (head?_dropWhile more)
        obtain ⟨p, rfl, hname⟩ := exists_part (hm m rfl) (more.takeWhile plain)
        refine ⟨p :: ps, ?_, by simp, List.forall_mem_cons.mpr ⟨?_, hu.names⟩⟩
        · rw [spelled, List.nil_append] at hps ⊢
          rw [List.flatMap_cons, ← hps, Part.spelling, hname, List.cons_append,
            List.takeWhile_append_dropWhile]
        · exact fun c hc => List.mem_takeWhile_imp (hname ▸ hc)
  obtain ⟨parts, hrest, hu⟩ := hparts _ _ le_rfl (head?_dropWhile cs)
  refine ⟨cs.takeWhile plain, parts, ?_, fun c hc => List.mem_takeWhile_imp hc, hu.names⟩
  rw [spelled, List.nil_append] at hrest
  rw [spelled, ← hrest, List.takeWhile_append_dropWhile]

theorem reworded_of_trim_eq {piece other : List Char} (h : Text.trim piece = Text.trim other) :
    Reworded piece other := by
  obtain ⟨tag, parts, htext, hu⟩ := exists_unmarked (Text.trim piece)
  have hother : Text.Trims other (spelled tag parts) := htext ▸ h ▸ Text.trims_trim other
  exact ⟨tag, parts, tag, parts, htext ▸ Text.trims_trim piece, hother, hu, hu, rfl, .rfl,
    fun _ => .rfl⟩

theorem mem_ids_iff {name : String} :
    name ∈ parts.filterMap Part.id? ↔ .id name.toList ∈ parts := by
  simp [List.mem_filterMap, Part.id?_eq_some_iff]

theorem mem_classes_iff {name : String} :
    name ∈ parts.filterMap Part.className? ↔ .className name.toList ∈ parts := by
  simp [List.mem_filterMap, Part.className?_eq_some_iff]

section Meets
variable {cs : List Char} {c : Compound} {t : String} {id : Option String} {classes : List String}

theorem Wording.tag_holds (h : Wording cs c tag parts) :
    c.tag.all (fun own => Text.asciiLower own == Text.asciiLower t) = true ↔
      tag = [] ∨ tag = ['*'] ∨ Text.asciiLower (String.ofList tag) = Text.asciiLower t := by
  rw [h.tag_eq, ← or_assoc]
  split
  · next hany => simp [hany]
  · next hown =>
    have hlower : Text.asciiLower (Text.asciiLower (String.ofList tag)) =
        Text.asciiLower (String.ofList tag) := by
      simp [Text.asciiLower, Function.comp_def]
    simp [hown, hlower]

theorem Wording.id_holds (h : Wording cs c tag parts) :
    c.id.all (fun want => id == some want) = true ↔
      ∀ name, .id name ∈ parts → id = some (String.ofList name) := by
  have hmem : ∀ name, .id name ∈ parts ↔ String.ofList name ∈ parts.filterMap Part.id? := by
    intro name
    rw [mem_ids_iff, String.toList_ofList]
  have hone := h.one_id
  simp only [h.id_eq, hmem]
  rcases hids : parts.filterMap Part.id? with _ | ⟨own, rest⟩
  · simp
  · rw [hids] at hone
    obtain rfl : rest = [] := by simpa using hone
    constructor
    · intro hid name hname
      rw [List.mem_singleton.mp hname]
      simpa using hid
    · intro hall
      simpa using hall own.toList (by simp)

theorem Wording.classes_holds (h : Wording cs c tag parts) :
    c.classes.all classes.contains = true ↔
      ∀ name, .className name ∈ parts → String.ofList name ∈ classes := by
  rw [h.classes_eq, List.all_eq_true]
  constructor
  · intro hall name hname
    have hin := hall (String.ofList name) (mem_classes_iff.mpr (by rwa [String.toList_ofList]))
    exact List.contains_iff_mem.mp hin
  · intro hall name hname
    have hin := hall name.toList (mem_classes_iff.mp hname)
    rw [String.ofList_toList] at hin
    exact List.contains_iff_mem.mpr hin

theorem Wording.holds_iff (h : Wording cs c tag parts) :
    c.holds t id classes = true ↔ Meets tag parts t id classes := by
  rw [holds, Bool.and_eq_true, Bool.and_eq_true, h.tag_holds, h.id_holds, h.classes_holds]
  exact ⟨fun ⟨⟨ht, hi⟩, hc⟩ => ⟨ht, hi, hc⟩, fun hm => ⟨⟨hm.tag, hm.ids⟩, hm.classes⟩⟩

end Meets

section Alike
variable (h : Alike tag parts tag' parts')
include h

theorem Alike.mem_iff {p : Part} : p ∈ parts ↔ p ∈ parts' := by
  cases p with
  | id name =>
    have hids := h.ids.mem_iff (a := String.ofList name)
    rwa [mem_ids_iff, mem_ids_iff, String.toList_ofList] at hids
  | className name => exact h.classes name

theorem Alike.classes_iff {name : String} :
    name ∈ parts.filterMap Part.className? ↔ name ∈ parts'.filterMap Part.className? := by
  rw [mem_classes_iff, mem_classes_iff, h.classes]

theorem Alike.ids_eq (hone : (parts.filterMap Part.id?).length ≤ 1) :
    parts'.filterMap Part.id? = parts.filterMap Part.id? := by
  have hperm := h.ids.symm
  generalize parts.filterMap Part.id? = ids at hone hperm ⊢
  cases ids with
  | nil => exact List.perm_nil.mp hperm
  | cons name rest =>
    obtain rfl : rest = [] :=
      List.eq_nil_of_length_eq_zero (Nat.le_zero.mp (Nat.le_of_succ_le_succ hone))
    exact List.perm_singleton.mp hperm

theorem Alike.star_iff : tag' = [] ∨ tag' = ['*'] ↔ tag = [] ∨ tag = ['*'] := by
  rw [← toLower_eq_nil_or_star, ← h.tag, toLower_eq_nil_or_star]

theorem Alike.isName_iff : IsName tag' ↔ IsName tag := by
  rw [← isName_toLower, ← h.tag, isName_toLower]

theorem Alike.spelled_ne_nil (hne : spelled tag parts ≠ []) : spelled tag' parts' ≠ [] := by
  intro hnil
  obtain ⟨htag, hparts⟩ := List.append_eq_nil_iff.mp hnil
  have hnone : ∀ p, p ∉ parts := by
    intro p hp
    exact absurd (List.flatMap_eq_nil_iff.mp hparts p (h.mem_iff.mp hp)) (List.cons_ne_nil _ _)
  obtain rfl := List.eq_nil_iff_forall_not_mem.mpr hnone
  have hlower : tag.map Char.toLower = [] := by rw [h.tag, htag, List.map_nil]
  obtain rfl := List.map_eq_nil_iff.mp hlower
  exact hne rfl

theorem Alike.wording {c : Compound} (hw : Wording (spelled tag parts) c tag parts) :
    ∃ d, Wording (spelled tag' parts') d tag' parts' ∧
      ∀ t i classes, c.holds t i classes = d.holds t i classes := by
  obtain ⟨-, hne, hform, hnames, hroom, rfl⟩ := wording_iff.mp hw
  have hids := h.ids_eq hw.one_id
  refine ⟨(ofTag tag').adds parts',
    wording_iff.mpr ⟨rfl, h.spelled_ne_nil hne, ?_, ?_, ?_, rfl⟩, ?_⟩
  · rw [← or_assoc, h.star_iff, h.isName_iff, or_assoc]
    exact hform
  · exact fun p hp => hnames p (h.mem_iff.mpr hp)
  · rw [Room, hids]
    exact hroom
  · intro t i classes
    have htag : ofTag tag' = ofTag tag := by
      simp only [ofTag, h.star_iff, Text.asciiLower, String.toList_ofList, h.tag]
    have hclasses : (parts.filterMap Part.className?).all classes.contains =
        (parts'.filterMap Part.className?).all classes.contains := by
      rw [Bool.eq_iff_iff, List.all_eq_true, List.all_eq_true]
      exact forall_congr' fun name => imp_congr_left h.classes_iff
    simp only [adds, hids, htag]
    simp only [holds, ofTag, List.nil_append, hclasses]

end Alike

end Spelled

theorem holds_asciiLower {tag other : String} (h : Text.asciiLower tag = Text.asciiLower other)
    (c : Compound) (id : Option String) (classes : List String) :
    c.holds tag id classes = c.holds other id classes := by
  simp only [holds, h]

end Compound

namespace Selector

open Compound (Reworded Meets Unmarked spelled)

def pieces (raw : String) : List (List Char) := raw.toList.splitOn ','

theorem pieces_append (a b : String) : pieces (a ++ "," ++ b) = pieces a ++ pieces b := by
  rw [pieces, String.toList_append, String.toList_append, List.append_assoc]
  exact List.splitOn_append_cons_self a.toList b.toList

theorem parse_eq_ok_iff {raw : String} {s : Selector} :
    parse raw = .ok s ↔ List.Forall₂ Reads (pieces raw) s.alternatives := by
  rw [parse, parse?]
  rcases scan_cases raw.toList with ⟨t, ht, hall⟩ | ⟨herror, piece, hp, hnone⟩
  · rw [ht]
    constructor
    · intro h
      obtain rfl := Except.ok.inj h
      exact hall
    · intro h
      obtain ⟨alternatives⟩ := s
      obtain ⟨others⟩ := t
      obtain rfl : alternatives = others := reads_rightUnique.forall₂ h hall
      rfl
  · rw [herror]
    constructor
    · intro h
      cases h
    · intro h
      obtain ⟨c, hc⟩ := exists_reads h piece hp
      exact absurd hc (hnone c)

theorem parses_iff {raw : String} :
    (∃ s, parse raw = .ok s) ↔ ∀ piece ∈ pieces raw, ∃ c, Reads piece c := by
  constructor
  · rintro ⟨s, hs⟩
    exact exists_reads (parse_eq_ok_iff.mp hs)
  · intro h
    rcases scan_cases raw.toList with ⟨s, -, hall⟩ | ⟨-, piece, hp, hnone⟩
    · exact ⟨s, parse_eq_ok_iff.mpr hall⟩
    · obtain ⟨c, hc⟩ := h piece hp
      exact absurd hc (hnone c)

theorem holds_iff {raw : String} {s : Selector} (h : parse raw = .ok s) {tag : String}
    {id : Option String} {classes : List String} :
    s.holds tag id classes = true ↔
      ∃ piece ∈ pieces raw, ∃ c, Reads piece c ∧ c.holds tag id classes = true := by
  have hall := parse_eq_ok_iff.mp h
  rw [holds, List.any_eq_true]
  generalize pieces raw = ps at hall
  generalize s.alternatives = cs at hall
  induction hall with
  | nil => simp
  | @cons p c ps cs hpc hall ih =>
    have hread : (∃ d, Reads p d ∧ d.holds tag id classes = true) ↔
        c.holds tag id classes = true := by
      constructor
      · rintro ⟨d, hd, hm⟩
        exact reads_rightUnique hpc hd ▸ hm
      · exact fun hm => ⟨c, hpc, hm⟩
    simp only [List.exists_mem_cons_iff, hread, ih]

theorem holds_iff_meets {raw : String} {s : Selector} (h : parse raw = .ok s) {t : String}
    {id : Option String} {classes : List String} :
    s.holds t id classes = true ↔
      ∃ piece ∈ pieces raw, ∃ tag parts, Text.Trims piece (spelled tag parts) ∧
        Unmarked tag parts ∧ Meets tag parts t id classes := by
  rw [holds_iff h]
  constructor
  · rintro ⟨piece, hp, c, ⟨text, htext, tag, parts, hw⟩, hc⟩
    obtain rfl : text = spelled tag parts := hw.text
    exact ⟨piece, hp, tag, parts, htext, hw.unmarked, hw.holds_iff.mp hc⟩
  · rintro ⟨piece, hp, tag, parts, htext, hu, hm⟩
    obtain ⟨c, hc⟩ := exists_reads (parse_eq_ok_iff.mp h) piece hp
    obtain ⟨text, htext', hspells⟩ := hc
    obtain rfl : text = _ := htext'.eq_trim.trans htext.eq_trim.symm
    have hw := (Compound.spells_iff hu).mp hspells
    exact ⟨piece, hp, c, ⟨_, htext, tag, parts, hw⟩, hw.holds_iff.mpr hm⟩

/-- Both texts are selectors and match the same, or neither is a selector. -/
structure Equivalent (raw other : String) : Prop where
  parses : (∃ s, parse raw = .ok s) ↔ ∃ t, parse other = .ok t
  holds : ∀ s t, parse raw = .ok s → parse other = .ok t →
    ∀ tag id classes, s.holds tag id classes = t.holds tag id classes

/-- A text with the alternatives of another one, in any order and each of them reworded. -/
def Rephrases (raw other : String) : Prop :=
  ∃ ps, (pieces raw).Perm ps ∧ List.Forall₂ Reworded ps (pieces other)

theorem Reworded.reads {piece other : List Char} (h : Reworded piece other) {c : Compound}
    (hc : Reads piece c) :
    ∃ d, Reads other d ∧ ∀ tag id classes, c.holds tag id classes = d.holds tag id classes := by
  obtain ⟨tag, parts, tag', parts', ht, ht', hu, hu', ha⟩ := h
  obtain ⟨text, htext, hspells⟩ := hc
  obtain rfl : text = _ := htext.eq_trim.trans ht.eq_trim.symm
  obtain ⟨d, hd, hsame⟩ := ha.wording ((Compound.spells_iff hu).mp hspells)
  exact ⟨d, ⟨_, ht', tag', parts', hd⟩, hsame⟩

theorem mem_of_forall₂ {α β : Type} {R : α → β → Prop} {as : List α} {bs : List β}
    (h : List.Forall₂ R as bs) : ∀ a ∈ as, ∃ b ∈ bs, R a b := by
  induction h with
  | nil => exact fun a ha => absurd ha List.not_mem_nil
  | cons hab _ ih =>
    refine List.forall_mem_cons.mpr ⟨⟨_, List.mem_cons_self, hab⟩, fun a ha => ?_⟩
    obtain ⟨b, hb, hr⟩ := ih a ha
    exact ⟨b, List.mem_cons_of_mem _ hb, hr⟩

section Rephrases
variable {raw other : String} (h : Rephrases raw other)
include h

theorem Rephrases.mem : ∀ p ∈ pieces raw, ∃ q ∈ pieces other, Reworded p q := by
  obtain ⟨ps, hperm, hall⟩ := h
  exact fun p hp => mem_of_forall₂ hall p (hperm.mem_iff.mp hp)

theorem Rephrases.mem_symm : ∀ q ∈ pieces other, ∃ p ∈ pieces raw, Reworded q p := by
  obtain ⟨ps, hperm, hall⟩ := h
  intro q hq
  obtain ⟨p, hp, hr⟩ := mem_of_forall₂ hall.flip q hq
  exact ⟨p, hperm.mem_iff.mpr hp, Compound.Reworded.symm hr⟩

theorem Rephrases.equivalent : Equivalent raw other where
  parses := by
    have hread : ∀ {a b : String}, (∀ q ∈ pieces b, ∃ p ∈ pieces a, Reworded q p) →
        (∃ s, parse a = .ok s) → ∃ t, parse b = .ok t := by
      intro a b hmem ha
      refine parses_iff.mpr fun q hq => ?_
      obtain ⟨p, hp, hr⟩ := hmem q hq
      obtain ⟨c, hc⟩ := parses_iff.mp ha p hp
      obtain ⟨d, hd, -⟩ := Reworded.reads (Compound.Reworded.symm hr) hc
      exact ⟨d, hd⟩
    exact ⟨hread h.mem_symm, hread h.mem⟩
  holds := by
    have hmatch : ∀ {a b : String} {s t : Selector} {tag id classes},
        (∀ p ∈ pieces a, ∃ q ∈ pieces b, Reworded p q) → parse a = .ok s → parse b = .ok t →
        s.holds tag id classes = true → t.holds tag id classes = true := by
      intro a b s t tag id classes hmem hs ht hm
      obtain ⟨p, hp, c, hc, hm⟩ := (holds_iff hs).mp hm
      obtain ⟨q, hq, hr⟩ := hmem p hp
      obtain ⟨d, hd, hsame⟩ := Reworded.reads hr hc
      exact (holds_iff ht).mpr ⟨q, hq, d, hd, hsame tag id classes ▸ hm⟩
    intro s t hs ht tag id classes
    exact Bool.eq_iff_iff.mpr ⟨hmatch h.mem hs ht, hmatch h.mem_symm ht hs⟩

end Rephrases

theorem parses_append {a b : String} :
    (∃ u, parse (a ++ "," ++ b) = .ok u) ↔ (∃ s, parse a = .ok s) ∧ ∃ t, parse b = .ok t := by
  simp only [parses_iff, pieces_append, List.forall_mem_append]

theorem holds_append {a b : String} {s t u : Selector} (hs : parse a = .ok s)
    (ht : parse b = .ok t) (hu : parse (a ++ "," ++ b) = .ok u) (tag : String) (id : Option String)
    (classes : List String) :
    u.holds tag id classes = (s.holds tag id classes || t.holds tag id classes) := by
  rw [Bool.eq_iff_iff, Bool.or_eq_true, holds_iff hs, holds_iff ht, holds_iff hu, pieces_append]
  simp only [List.mem_append, or_and_right, exists_or]

theorem holds_asciiLower {tag other : String} (h : Text.asciiLower tag = Text.asciiLower other)
    (s : Selector) (id : Option String) (classes : List String) :
    s.holds tag id classes = s.holds other id classes := by
  simp only [holds, Compound.holds_asciiLower h]

theorem filter_eq_places {α : Type} (p : α → Bool) (l : List α) :
    ∃ places : List Nat, places.Pairwise (· < ·) ∧
      (∀ i, i ∈ places ↔ ∃ a, l[i]? = some a ∧ p a = true) ∧
      l.filter p = places.filterMap fun i => l[i]? := by
  induction l with
  | nil => exact ⟨[], .nil, by simp, rfl⟩
  | cons a l ih =>
    obtain ⟨places, hsorted, hmem, hfilter⟩ := ih
    have hlater : (places.map (· + 1)).filterMap (fun i => (a :: l)[i]?) = l.filter p := by
      rw [List.filterMap_map, hfilter]
      rfl
    have hshift : (places.map (· + 1)).Pairwise (· < ·) :=
      hsorted.map _ fun _ _ => Nat.succ_lt_succ
    by_cases ha : p a = true
    · refine ⟨0 :: places.map (· + 1), List.pairwise_cons.mpr ⟨by simp, hshift⟩, ?_, ?_⟩
      · intro i
        cases i with
        | zero => simp [ha]
        | succ i => simpa using hmem i
      · simp only [List.filter_cons_of_pos ha, List.filterMap_cons, List.getElem?_cons_zero, hlater]
    · refine ⟨places.map (· + 1), hshift, ?_, ?_⟩
      · intro i
        cases i with
        | zero => simp [ha]
        | succ i => simpa using hmem i
      · rw [List.filter_cons_of_neg ha, hlater]

theorem ofElements_eq {raw : String} {s : Selector} (h : parse raw = .ok s)
    (elements : List Element) :
    Page.ofElements elements raw = .ok (elements.filter s.matchesElement) := by
  rw [Page.ofElements, h]
  rfl

/-- A list of two texts is a selector if and only if both are, and matches what one of them matches.
A selector matches the elements that have the tag, the id and all classes of one of its
alternatives. Alternatives in another order, reworded and with other blanks around them match the
same, and so does the tag of an element in another case. Of a page, exactly the elements that match
are selected, each once and in their order, and more elements add what matches of them at the
end. -/
theorem matching_unites_alternatives :
    (∀ a b, ((∃ u, parse (a ++ "," ++ b) = .ok u) ↔
        (∃ s, parse a = .ok s) ∧ ∃ t, parse b = .ok t) ∧
      ∀ s t u, parse a = .ok s → parse b = .ok t → parse (a ++ "," ++ b) = .ok u →
        ∀ tag id classes,
          u.holds tag id classes = (s.holds tag id classes || t.holds tag id classes)) ∧
    (∀ raw s, parse raw = .ok s → ∀ t id classes, s.holds t id classes = true ↔
      ∃ piece ∈ pieces raw, ∃ tag parts, Text.Trims piece (spelled tag parts) ∧
        Unmarked tag parts ∧ Meets tag parts t id classes) ∧
    (∀ raw other, Rephrases raw other → Equivalent raw other) ∧
    (∀ piece other, Text.trim piece = Text.trim other → Reworded piece other) ∧
    (∀ (s : Selector) tag other id classes, Text.asciiLower tag = Text.asciiLower other →
      s.holds tag id classes = s.holds other id classes) ∧
    ∀ raw, (∀ f elements, parse raw = .error f → Page.ofElements elements raw = .error f) ∧
      ∀ s, parse raw = .ok s → ∀ elements,
        (∃ places : List Nat, places.Pairwise (· < ·) ∧
          (∀ i, i ∈ places ↔ ∃ e, elements[i]? = some e ∧ s.holds e.tag e.id e.classes = true) ∧
          Page.ofElements elements raw = .ok (places.filterMap fun i => elements[i]?)) ∧
        ∀ more, ∃ found others, Page.ofElements elements raw = .ok found ∧
          Page.ofElements more raw = .ok others ∧
          Page.ofElements (elements ++ more) raw = .ok (found ++ others) := by
  refine ⟨fun a b => ⟨parses_append, fun s t u hs ht hu => holds_append hs ht hu⟩,
    fun raw s h t id classes => holds_iff_meets h, fun raw other h => h.equivalent,
    fun piece other h => Compound.reworded_of_trim_eq h,
    fun s tag other id classes h => holds_asciiLower h s id classes,
    fun raw => ⟨fun f elements h => ?_, fun s h elements => ⟨?_, fun more => ?_⟩⟩⟩
  · rw [Page.ofElements, h]
    rfl
  · obtain ⟨places, hsorted, hmem, hfilter⟩ := filter_eq_places s.matchesElement elements
    exact ⟨places, hsorted, hmem, by rw [ofElements_eq h, hfilter]⟩
  · refine ⟨_, _, ofElements_eq h elements, ofElements_eq h more, ?_⟩
    rw [ofElements_eq h, List.filter_append]

theorem swapped_rephrases : Rephrases "li.b#k.a,DIV" "div,\u00a0Li#k.a.a.b" := by
  have hdiv : Reworded "DIV".toList "div".toList :=
    ⟨"DIV".toList, [], "div".toList, [], Text.trims_trim "DIV".toList, Text.trims_trim "div".toList,
      .of_all rfl rfl, .of_all rfl rfl, by decide, by decide, fun _ => .rfl⟩
  have hli : Reworded "li.b#k.a".toList "\u00a0Li#k.a.a.b".toList :=
    ⟨"li".toList, [.className ['b'], .id ['k'], .className ['a']],
      "Li".toList, [.id ['k'], .className ['a'], .className ['a'], .className ['b']],
      Text.trims_trim "li.b#k.a".toList, Text.trims_trim "\u00a0Li#k.a.a.b".toList,
      .of_all rfl rfl, .of_all rfl rfl, by decide, by decide, fun name => by simp [or_comm]⟩
  refine ⟨["DIV".toList, "li.b#k.a".toList], by decide +kernel, ?_⟩
  exact .cons hdiv (.cons hli .nil)

theorem matching_unites_swapped :
    let elements : List Element :=
      [{ tag := "p" }, { tag := "LI", id := some "k", classes := ["a", "c", "b"] },
        { tag := "li", id := some "k", classes := ["a"] }]
    ∃ s t u v, parse "li.b#k.a" = .ok s ∧ parse "DIV" = .ok t ∧ parse "li.b#k.a,DIV" = .ok u ∧
      parse "div,\u00a0Li#k.a.a.b" = .ok v ∧
      (∀ tag id classes,
        u.holds tag id classes = (s.holds tag id classes || t.holds tag id classes)) ∧
      (u.holds "LI" (some "k") ["a", "c", "b"] = true ∧ u.holds "li" (some "k") ["a"] = false) ∧
      (∀ tag id classes, u.holds tag id classes = v.holds tag id classes) ∧
      (∀ id classes, u.holds "DIV" id classes = u.holds "div" id classes) ∧
      ∃ places : List Nat, places.Pairwise (· < ·) ∧
        (∀ i, i ∈ places ↔ ∃ e, elements[i]? = some e ∧ u.holds e.tag e.id e.classes = true) := by
  intro elements
  obtain ⟨hunion, hmeets, hrephrased, -, hcase, hpage⟩ := matching_unites_alternatives
  have hs : parse "li.b#k.a" = .ok ⟨[⟨some "li", some "k", ["b", "a"]⟩]⟩ := by
    with_unfolding_all rfl
  have ht : parse "DIV" = .ok ⟨[⟨some "div", none, []⟩]⟩ := by with_unfolding_all rfl
  obtain ⟨u, hu⟩ := (hunion "li.b#k.a" "DIV").1.mpr ⟨⟨_, hs⟩, _, ht⟩
  have hunited := (hunion _ _).2 _ _ u hs ht hu
  have hli : u.holds "LI" (some "k") ["a", "c", "b"] = true := by
    refine (hmeets _ u hu _ _ _).mpr ⟨"li.b#k.a".toList, by decide +kernel,
      ['l', 'i'], [.className ['b'], .id ['k'], .className ['a']], Text.trims_trim _,
      .of_all rfl rfl, Or.inr (Or.inr (by decide)), by simp, by simp⟩
  have hsame := hrephrased _ _ swapped_rephrases
  obtain ⟨v, hv⟩ := hsame.parses.mp ⟨u, hu⟩
  obtain ⟨places, hsorted, hplaces, -⟩ := ((hpage _).2 u hu elements).1
  exact ⟨_, _, u, v, hs, ht, hu, hv, hunited, ⟨hli, hunited .. ▸ rfl⟩, hsame.holds u v hu hv,
    fun id classes => hcase u "DIV" "div" id classes (by decide), places, hsorted, hplaces⟩

end Selector

end DiagramEditor
