import DiagramEditor.Document
import DiagramEditor.Proofs.Document.Order
import Mathlib.Data.List.InsertIdx

/-! Lookups in a document of distinct ids. The item under an id, the item at its index and the item
that is changed under it are one; an insertion or a removal shifts the places behind it by one and
keeps all other items; an edit that is refused or that names no item changes nothing. -/
namespace DiagramEditor

namespace Document

section Lookups
variable {d : Document} {id : ItemId}

theorem find?_eq_none_iff : d.find? id = none ↔ id ∉ d.ids := by
  rw [mem_ids, ← Option.ne_none_iff_exists', not_not]

theorem indexOf?_eq_none_iff : d.indexOf? id = none ↔ id ∉ d.ids := by
  rw [← find?_eq_none_iff, find?_eq_none, indexOf?, List.findIdx?_eq_none_iff]
  simp

theorem bind_indexOf? (d : Document) (id : ItemId) :
    (d.indexOf? id).bind (fun k => d.items[k]?) = d.find? id := by
  obtain ⟨items, _, _⟩ := d
  simp only [indexOf?, find?]
  induction items with
  | nil => rfl
  | cons i rest ih =>
    by_cases hi : i.id = id
    · simp [List.findIdx?_cons, hi]
    · simp only [List.findIdx?_cons, List.find?_cons, beq_eq_false_iff_ne.mpr hi, ← ih]
      cases rest.findIdx? (·.id == id) <;> rfl

theorem update_of_not_mem (h : id ∉ d.ids) (f : Item → Item) : d.update id f = d := by
  have hitems : updateFirst id f d.items = d.items := updateFirst_eq_self fun i hi => by
    have hnone : d.find? id = none := find?_eq_none_iff.mpr h
    cases hi.symm.trans hnone
  rw [update, hitems]

theorem updateFirst_eq_set {items : List Item} {k : Nat} {i : Item} {f : Item → Item}
    (hk : items.findIdx? (fun i => i.id == id) = some k) (hi : items[k]? = some i) :
    updateFirst id f items = items.set k (f i) := by
  induction items generalizing k with
  | nil => cases hk
  | cons j rest ih =>
    rw [List.findIdx?_cons] at hk
    rw [updateFirst]
    by_cases hj : j.id = id
    · simp only [hj, beq_self_eq_true, if_true, Option.some.injEq] at hk
      subst hk
      obtain rfl := Option.some.inj hi
      rw [if_pos hj, List.set_cons_zero]
    · simp only [beq_eq_false_iff_ne.mpr hj, Bool.false_eq_true, if_false] at hk
      obtain ⟨k, hrest, rfl⟩ := Option.map_eq_some_iff.mp hk
      rw [if_neg hj, List.set_cons_succ, ih hrest hi]

/-- Every lookup under the id names the item at this place. -/
structure Names (d : Document) (id : ItemId) (k : Nat) (i : Item) : Prop where
  place : d.items[k]? = some i
  id_eq : i.id = id
  get : d.find? id = some i
  index : d.indexOf? id = some k
  change : ∀ f, d.update id f = { d with items := d.items.set k (f i) }

theorem names_of_indexOf? {k : Nat} (h : d.indexOf? id = some k) : ∃ i, d.Names id k i := by
  have hbind := bind_indexOf? d id
  rw [h, Option.bind_some] at hbind
  have hne : d.find? id ≠ none := by
    rw [ne_eq, find?_eq_none_iff, ← indexOf?_eq_none_iff, h]
    exact nofun
  obtain ⟨i, hi⟩ := Option.ne_none_iff_exists'.mp hne
  have hplace := hbind.trans hi
  exact ⟨i, hplace, find?_id hi, hi, h, fun f =>
    congrArg (fun items => { d with items := items }) (updateFirst_eq_set h hplace)⟩

section Distinct
variable (hn : d.ids.Nodup)
include hn

theorem indexOf?_eq_some_iff {k : Nat} : d.indexOf? id = some k ↔ d.ids[k]? = some id := by
  have hindex : d.ids[k]? = some id → d.ids.idxOf id = k := fun h => by
    obtain ⟨hk, rfl⟩ := List.getElem?_eq_some_iff.mp h
    exact hn.idxOf_getElem k hk
  constructor
  · intro h
    have hm : id ∈ d.ids := by
      by_contra hm
      rw [indexOf?_eq_none_iff.mpr hm] at h
      cases h
    rw [indexOf?_eq hm] at h
    rw [← Option.some.inj h]
    exact List.getElem?_idxOf hm
  · intro h
    rw [indexOf?_eq (List.mem_of_getElem? h), hindex h]

theorem names_of_getElem? {k : Nat} {i : Item} (h : d.items[k]? = some i) : d.Names i.id k i := by
  have hid : d.ids[k]? = some i.id := by rw [ids, List.getElem?_map, h, Option.map_some]
  obtain ⟨j, hj⟩ := names_of_indexOf? ((indexOf?_eq_some_iff hn).mpr hid)
  obtain rfl : j = i := Option.some.inj (hj.place.symm.trans h)
  exact hj

end Distinct

end Lookups

/-- All items but the one under an id are found as before, at indices that are shifted. -/
def KeepsOthers (d e : Document) (id : ItemId) (shift : Nat → Nat) : Prop :=
  ∀ other, other ≠ id →
    e.find? other = d.find? other ∧ e.indexOf? other = (d.indexOf? other).map shift

def shiftUp (index k : Nat) : Nat := if index ≤ k then k + 1 else k

def shiftDown (index k : Nat) : Nat := if index < k then k - 1 else k

theorem map_indexOf? {d e : Document} (hd : d.ids.Nodup) (he : e.ids.Nodup) {id : ItemId}
    {shift : Nat → Nat}
    (h : ∀ k, e.ids[k]? = some id ↔ ∃ j, d.ids[j]? = some id ∧ shift j = k) :
    e.indexOf? id = (d.indexOf? id).map shift := by
  ext k
  rw [indexOf?_eq_some_iff he, h, Option.map_eq_some_iff]
  simp only [indexOf?_eq_some_iff hd]

section Insert
variable {d e : Document} (hn : d.ids.Nodup) {index : Nat} {i : Item} (hnew : i.id ∉ d.ids)
  (h : d.insert index i = .ok e)
include hn hnew h

theorem nodup_insert : e.ids.Nodup := by
  have hl : index ≤ d.ids.length := by
    rw [ids, List.length_map]
    exact (insert_ok h).1
  rw [ids_insert d h]
  exact (List.perm_insertIdx i.id d.ids hl).nodup_iff.mpr (List.nodup_cons.mpr ⟨hnew, hn⟩)

theorem names_insert : e.Names i.id index i := by
  have hplace : e.items[index]? = some i := by
    obtain ⟨hl, rfl⟩ := insert_ok h
    rw [List.getElem?_insertIdx_self, if_pos hl]
  exact names_of_getElem? (nodup_insert hn hnew h) hplace

theorem keepsOthers_insert : d.KeepsOthers e i.id (shiftUp index) := by
  intro other ho
  constructor
  · rw [find?_insert h (find?_eq_none_iff.mpr hnew), if_neg ho]
  · refine map_indexOf? hn (nodup_insert hn hnew h) fun k => ?_
    have hne : ¬ some i.id = some other := by simpa using Ne.symm ho
    rw [ids_insert d h, List.getElem?_insertIdx]
    simp only [shiftUp]
    constructor
    · intro hk
      split at hk
      · next hlt => exact ⟨k, hk, if_neg (by omega)⟩
      · next hge =>
        -- the new item stands at `index`, and its id is not the one looked up
        split at hk
        · split at hk
          · exact absurd hk hne
          · cases hk
        · next hgt => exact ⟨k - 1, hk, by rw [if_pos (by omega)]; omega⟩
    · rintro ⟨j, hj, rfl⟩
      by_cases hle : index ≤ j
      · rw [if_pos hle, if_neg (by omega), if_neg (by omega)]
        exact hj
      · rw [if_neg hle, if_pos (by omega)]
        exact hj

end Insert

theorem remove_eq_eraseIdx {d : Document} {id : ItemId} {k : Nat} (h : d.indexOf? id = some k) :
    d.remove id = { d with items := d.items.eraseIdx k } := by
  rw [indexOf?] at h
  rw [remove, List.eraseP_eq_eraseIdx, h]

theorem remove_insert {d e : Document} {index : Nat} {i : Item} (h : d.insert index i = .ok e)
    (hi : e.Names i.id index i) : e.remove i.id = d := by
  rw [remove_eq_eraseIdx hi.index]
  obtain ⟨-, rfl⟩ := insert_ok h
  exact congrArg (fun items => { d with items := items }) (List.eraseIdx_insertIdx_self i)

section Remove
variable {d : Document} (hn : d.ids.Nodup) {id : ItemId}
include hn

theorem nodup_remove (id : ItemId) : (d.remove id).ids.Nodup := by
  rw [ids_remove]
  exact hn.erase id

theorem keepsOthers_remove {k : Nat} (h : d.indexOf? id = some k) :
    d.KeepsOthers (d.remove id) id (shiftDown k) := by
  intro other ho
  have hid := (indexOf?_eq_some_iff hn).mp h
  refine ⟨find?_remove_of_ne ho d, map_indexOf? hn (nodup_remove hn id) fun j => ?_⟩
  have hids : (d.remove id).ids = d.ids.eraseIdx k := by
    rw [remove_eq_eraseIdx h, ids, ← List.eraseIdx_map]
    rfl
  rw [hids, List.getElem?_eraseIdx]
  simp only [shiftDown]
  constructor
  · intro hj
    split at hj
    · next hlt => exact ⟨j, hj, if_neg (by omega)⟩
    · next hge => exact ⟨j + 1, hj, by rw [if_pos (by omega)]; omega⟩
  · rintro ⟨m, hm, rfl⟩
    have hne : m ≠ k := by
      rintro rfl
      exact ho (Option.some.inj (hm.symm.trans hid))
    by_cases hlt : k < m
    · rw [if_pos hlt, if_neg (by omega), Nat.sub_add_cancel (by omega)]
      exact hm
    · rw [if_neg hlt, if_pos (by omega)]
      exact hm

end Remove

end Document

namespace Edit

open Document

section Apply
variable {d : Document}

theorem apply_insert {e : Document} {index : Nat} {i : Item} (h : d.insert index i = .ok e) :
    (Edit.insert index i).apply d = (.done, e) := by
  rw [apply, h]

theorem apply_insert_past {index : Nat} (hl : d.items.length < index) (i : Item) :
    (Edit.insert index i).apply d = (.refused (.indexOutOfRange index d.items.length), d) := by
  rw [apply, Document.insert, if_pos hl]

theorem apply_push (d : Document) (i : Item) :
    (Edit.push i).apply d = (Edit.insert d.items.length i).apply d := by
  rw [apply, apply, push_eq_insert]

theorem apply_remove (d : Document) (id : ItemId) :
    (Edit.remove id).apply d = (.item (d.find? id), d.remove id) := by
  rw [apply, ← bind_indexOf?]
  cases h : d.indexOf? id with
  | none =>
    have hself : d.remove id = d := by
      rw [indexOf?] at h
      rw [Document.remove, List.eraseP_eq_eraseIdx, h]
    rw [hself]
    rfl
  | some k =>
    rw [remove_eq_eraseIdx h]
    rfl

theorem apply_setPosition (hn : d.ids.Nodup) (id : ItemId) (p : Point) :
    (Edit.setPosition id p).apply d = (.found (d.find? id).isSome,
      { d with items := d.items.map fun i => if i.id = id then i.moved p else i }) := by
  rw [apply, Document.setPosition, update_eq_map hn]

theorem apply_of_not_mem {id : ItemId} (h : id ∉ d.ids) (p : Point) (f : Item → Item) :
    (Edit.remove id).apply d = (.item none, d) ∧
      (Edit.setPosition id p).apply d = (.found false, d) ∧
      (Edit.change id f).apply d = (.item none, d) := by
  have hnone := find?_eq_none_iff.mpr h
  have hindex := indexOf?_eq_none_iff.mpr h
  refine ⟨?_, ?_, ?_⟩
  · rw [apply, hindex]
  · rw [apply, Document.setPosition, update_of_not_mem h, hnone]
    rfl
  · rw [apply, update_of_not_mem h, hnone]

/-- What comes in has a new id, and what is changed keeps its own. -/
def Fresh (d : Document) : Edit → Prop
  | .insert _ i | .push i => i.id ∉ d.ids
  | .change _ f => ∀ i, (f i).id = i.id
  | .remove _ | .setPosition .. => True

theorem Fresh.nodup {e : Edit} (he : e.Fresh d) (hn : d.ids.Nodup) : (e.apply d).2.ids.Nodup := by
  cases e with
  | insert index i =>
    cases h : d.insert index i with
    | error f => rwa [apply, h]
    | ok e =>
      rw [apply_insert h]
      exact nodup_insert hn he h
  | push i =>
    have h := push_eq_insert d i
    rw [apply_push, apply_insert h]
    exact nodup_insert hn he h
  | remove id =>
    rw [apply_remove]
    exact nodup_remove hn id
  | setPosition id p =>
    change (d.update id fun i => i.moved p).ids.Nodup
    rwa [ids_update d id (f := fun i => i.moved p) fun _ => rfl]
  | change id f =>
    change (d.update id f).ids.Nodup
    rwa [ids_update d id he]

end Apply

def AllFresh : List Edit → Document → Prop
  | [], _ => True
  | e :: rest, d => e.Fresh d ∧ AllFresh rest (e.apply d).2

theorem AllFresh.nodup {edits : List Edit} {d : Document} (h : AllFresh edits d)
    (hn : d.ids.Nodup) : (applyAll edits d).ids.Nodup := by
  induction edits generalizing d with
  | nil => exact hn
  | cons e rest ih => exact ih h.2 (h.1.nodup hn)

/-- In a document of distinct ids all lookups under an id name one item. An insertion gives its item
the index asked for and a removal hands back the item found; both keep the others, at indices moved
by one behind the place, and the removal undoes the insertion. -/
theorem lookups_follow_edits {d : Document} (hn : d.ids.Nodup) :
    (∀ k i, d.items[k]? = some i → d.Names i.id k i) ∧
    (∀ id, (∃ k i, d.Names id k i) ∨ (d.find? id = none ∧ d.indexOf? id = none ∧ ∀ p f,
      (Edit.remove id).apply d = (.item none, d) ∧
      (Edit.setPosition id p).apply d = (.found false, d) ∧
      (Edit.change id f).apply d = (.item none, d))) ∧
    (∀ index i, d.items.length < index →
      (Edit.insert index i).apply d = (.refused (.indexOutOfRange index d.items.length), d)) ∧
    (∀ index i, i.id ∉ d.ids → index ≤ d.items.length → ∃ e,
      (Edit.insert index i).apply d = (.done, e) ∧ e.Names i.id index i ∧
      d.KeepsOthers e i.id (shiftUp index) ∧ (Edit.remove i.id).apply e = (.item (some i), d)) ∧
    (∀ i, (Edit.push i).apply d = (Edit.insert d.items.length i).apply d) ∧
    (∀ id k i, d.Names id k i → ∃ e, (Edit.remove id).apply d = (.item (some i), e) ∧
      e.find? id = none ∧ e.indexOf? id = none ∧ d.KeepsOthers e id (shiftDown k)) ∧
    (∀ id p, (Edit.setPosition id p).apply d = (.found (d.find? id).isSome,
      { d with
        items := d.items.map fun i => if i.id = id then { i with x := p.x, y := p.y } else i })) ∧
    ∀ edits, AllFresh edits d → (applyAll edits d).ids.Nodup := by
  refine ⟨fun k i => names_of_getElem? hn, fun id => ?_, fun index i hl => apply_insert_past hl i,
    fun index i hnew hl => ?_, apply_push d, fun id k i hi => ?_, apply_setPosition hn,
    fun edits h => h.nodup hn⟩
  · cases h : d.indexOf? id with
    | none =>
      have habsent := indexOf?_eq_none_iff.mp h
      exact Or.inr ⟨find?_eq_none_iff.mpr habsent, rfl, apply_of_not_mem habsent⟩
    | some k => exact Or.inl ⟨k, names_of_indexOf? h⟩
  · obtain ⟨e, h⟩ : ∃ e, d.insert index i = .ok e := ⟨_, if_neg (Nat.not_lt.mpr hl)⟩
    have hi := names_insert hn hnew h
    refine ⟨e, apply_insert h, hi, keepsOthers_insert hn hnew h, ?_⟩
    rw [apply_remove, hi.get, remove_insert h hi]
  · have hgone : id ∉ (d.remove id).ids := by
      rw [ids_remove]
      exact hn.not_mem_erase
    exact ⟨d.remove id, by rw [apply_remove, hi.get], find?_eq_none_iff.mpr hgone,
      indexOf?_eq_none_iff.mpr hgone, keepsOthers_remove hn hi.index⟩

def plainItem (id : String) (x : Float) : Item :=
  ⟨⟨id⟩, "Step", x, 0, 120, 50, [], false, []⟩

def trio : Document := ⟨[plainItem "a" 0, plainItem "b" 10, plainItem "c" 20], "part", 3⟩

theorem lookups_follow_edits_amid_trio :
    trio.ids.Nodup ∧ (plainItem "d" 5).id ∉ trio.ids ∧
      (∃ e, (Edit.insert 1 (plainItem "d" 5)).apply trio = (.done, e) ∧
        e.indexOf? ⟨"a"⟩ = some 0 ∧ e.indexOf? ⟨"d"⟩ = some 1 ∧ e.indexOf? ⟨"c"⟩ = some 3 ∧
        e.find? ⟨"c"⟩ = trio.find? ⟨"c"⟩ ∧
        (Edit.remove ⟨"d"⟩).apply e = (.item (some (plainItem "d" 5)), trio)) ∧
      (∃ e, (Edit.remove ⟨"b"⟩).apply trio = (.item (some (plainItem "b" 10)), e) ∧
        e.indexOf? ⟨"a"⟩ = some 0 ∧ e.indexOf? ⟨"c"⟩ = some 1) ∧
      (Edit.remove ⟨"e"⟩).apply trio = (.item none, trio) ∧
      (Edit.insert 4 (plainItem "d" 5)).apply trio = (.refused (.indexOutOfRange 4 3), trio) ∧
      (applyAll [.remove ⟨"b"⟩, .push (plainItem "b" 7), .setPosition ⟨"c"⟩ ⟨1, 2⟩]
        trio).ids.Nodup := by
  have hn : trio.ids.Nodup := by decide
  have hnew : (plainItem "d" 5).id ∉ trio.ids := by decide
  obtain ⟨hnames, hlookups, hpast, hinsert, -, hremove, -, hdistinct⟩ := lookups_follow_edits hn
  obtain ⟨e, happly, hd, hothers, hback⟩ := hinsert 1 (plainItem "d" 5) hnew (by decide)
  obtain ⟨e', happly', -, -, hothers'⟩ := hremove ⟨"b"⟩ 1 _ (hnames 1 _ rfl)
  have habsent : trio.find? ⟨"e"⟩ = none := by decide
  have hagain : (Edit.push (plainItem "b" 7)).Fresh ((Edit.remove ⟨"b"⟩).apply trio).2 := by
    rw [Fresh]
    decide
  refine ⟨hn, hnew, ⟨e, happly, (hothers _ (by decide)).2, hd.index, (hothers _ (by decide)).2,
    (hothers _ (by decide)).1, hback⟩,
    ⟨e', happly', (hothers' _ (by decide)).2, (hothers' _ (by decide)).2⟩, ?_,
    hpast 4 _ (by decide), hdistinct _ ⟨trivial, hagain, trivial, trivial⟩⟩
  rcases hlookups ⟨"e"⟩ with ⟨k, i, hi⟩ | ⟨-, -, hsame⟩
  · cases hi.get.symm.trans habsent
  · exact (hsame ⟨0, 0⟩ id).1

end Edit

end DiagramEditor
