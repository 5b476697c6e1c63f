import DiagramEditor.Document
import Mathlib.Data.List.Flatten
import Mathlib.Data.List.InsertIdx
import Mathlib.Data.List.Nodup
import Mathlib.Data.List.Perm.Basic

/-! What lookups in a document find after each of its edits: the item under an id, and the
endpoints that are attached to items. -/
namespace DiagramEditor

def Item.attach (e : Endpoint) (i : Item) : Item :=
  { i with endpoints := i.endpoints ++ [e] }

def Item.enable (i : Item) : Item := { i with draggable := true }

namespace Document

theorem find?_id {d : Document} {id : ItemId} {i : Item} (h : d.find? id = some i) : i.id = id := by
  simpa using List.find?_some h

theorem mem_of_find? {d : Document} {id : ItemId} {i : Item} (h : d.find? id = some i) :
    i ∈ d.items :=
  List.mem_of_find?_eq_some h

theorem find?_eq_none {d : Document} {id : ItemId} :
    d.find? id = none ↔ ∀ i ∈ d.items, i.id ≠ id := by
  simp [find?, List.find?_eq_none]

theorem exists_find? {d : Document} {i : Item} (hi : i ∈ d.items) : ∃ j, d.find? i.id = some j :=
  Option.ne_none_iff_exists'.mp fun h => find?_eq_none.mp h i hi rfl

theorem eq_of_nodup {d : Document} (hn : (d.items.map (·.id)).Nodup) {i j : Item}
    (hi : i ∈ d.items) (hj : j ∈ d.items) (h : i.id = j.id) : i = j :=
  List.inj_on_of_nodup_map hn hi hj h

theorem find?_of_mem {d : Document} (hn : (d.items.map (·.id)).Nodup) {i : Item}
    (hi : i ∈ d.items) : d.find? i.id = some i := by
  obtain ⟨j, hj⟩ := exists_find? hi
  rw [hj, eq_of_nodup hn (mem_of_find? hj) hi (find?_id hj)]

section Update
variable {f : Item → Item} {id : ItemId}

theorem mem_updateFirst {items : List Item} {j : Item} (h : j ∈ updateFirst id f items) :
    j ∈ items ∨ ∃ i ∈ items, i.id = id ∧ j = f i := by
  induction items with
  | nil => simp [updateFirst] at h
  | cons i rest ih =>
    rw [updateFirst] at h
    split at h
    · next hi =>
      rcases List.mem_cons.mp h with rfl | h
      · exact Or.inr ⟨i, List.mem_cons_self, hi, rfl⟩
      · exact Or.inl (List.mem_cons_of_mem _ h)
    · rcases List.mem_cons.mp h with rfl | h
      · exact Or.inl List.mem_cons_self
      · rcases ih h with h | ⟨k, hk, hid, rfl⟩
        · exact Or.inl (List.mem_cons_of_mem _ h)
        · exact Or.inr ⟨k, List.mem_cons_of_mem _ hk, hid, rfl⟩

theorem map_updateFirst {α : Type} {g : Item → α} (hg : ∀ i, g (f i) = g i) (items : List Item) :
    (updateFirst id f items).map g = items.map g := by
  induction items with
  | nil => rfl
  | cons i rest ih =>
    rw [updateFirst]
    split
    · simp only [List.map_cons, hg]
    · simp only [List.map_cons, ih]

theorem forall₂_updateFirst {R : Item → Item → Prop} (hsame : ∀ i, R i i)
    (hf : ∀ i, i.id = id → R i (f i)) (items : List Item) :
    List.Forall₂ R items (updateFirst id f items) := by
  induction items with
  | nil => exact .nil
  | cons i rest ih =>
    rw [updateFirst]
    split
    · next hi => exact .cons (hf i hi) (List.forall₂_same.mpr fun j _ => hsame j)
    · exact .cons (hsame i) ih

theorem updateFirst_updateFirst {g : Item → Item} (hf : ∀ i, (f i).id = i.id)
    (items : List Item) :
    updateFirst id g (updateFirst id f items) = updateFirst id (fun i => g (f i)) items := by
  induction items with
  | nil => rfl
  | cons i rest ih =>
    by_cases hi : i.id = id
    · simp [updateFirst, hi, hf]
    · simp [updateFirst, hi, ih]

theorem updateFirst_eq_self {items : List Item}
    (h : ∀ i, items.find? (fun i => i.id == id) = some i → f i = i) :
    updateFirst id f items = items := by
  induction items with
  | nil => rfl
  | cons i rest ih =>
    by_cases hi : i.id = id
    · have hself : f i = i := h i (by simp [hi])
      simp [updateFirst, hi, hself]
    · have hrest : updateFirst id f rest = rest := ih fun j hj => h j (by simp [hi, hj])
      simp [updateFirst, hi, hrest]

theorem find?_update (hf : ∀ i, (f i).id = i.id) (d : Document) (other : ItemId) :
    (d.update id f).find? other =
      if other = id then (d.find? other).map f else d.find? other := by
  obtain ⟨items, _, _⟩ := d
  simp only [find?, update]
  induction items with
  | nil => simp [updateFirst]
  | cons i rest ih =>
    rw [updateFirst]
    by_cases hi : i.id = id
    · by_cases ho : i.id = other
      · simp [hi, hf, ho ▸ hi]
      · have hne : other ≠ id := fun h => ho (hi.trans h.symm)
        simp [hi, hf, hne, Ne.symm hne]
    · by_cases ho : i.id = other
      · have hne : other ≠ id := fun h => hi (ho.trans h)
        simp [ho, hne]
      · simpa [hi, ho] using ih

theorem isSome_find?_update (hf : ∀ i, (f i).id = i.id) (d : Document) (other : ItemId) :
    ((d.update id f).find? other).isSome = (d.find? other).isSome := by
  rw [find?_update hf]
  split <;> simp

/-- Where ids are not shared, a change of the first item with an id changes each item with it. -/
theorem update_eq_map {d : Document} (hn : (d.items.map (·.id)).Nodup) (id : ItemId)
    (f : Item → Item) :
    d.update id f = { d with items := d.items.map fun i => if i.id = id then f i else i } := by
  obtain ⟨items, _, _⟩ := d
  simp only [update, mk.injEq, and_true]
  induction items with
  | nil => rfl
  | cons i rest ih =>
    obtain ⟨hi, hr⟩ := List.nodup_cons.mp hn
    rw [updateFirst, List.map_cons]
    split
    · next he =>
      have hrest : rest.map (fun j => if j.id = id then f j else j) = rest.map fun j => j :=
        List.map_congr_left fun j hj => if_neg fun hj' =>
          hi (List.mem_map.mpr ⟨j, hj, hj'.trans he.symm⟩)
      rw [hrest, List.map_id']
    · rw [ih hr]

end Update

theorem insert_ok {d e : Document} {index : Nat} {i : Item} (h : d.insert index i = .ok e) :
    index ≤ d.items.length ∧ e = { d with items := d.items.insertIdx index i } := by
  rw [insert] at h
  split at h
  · cases h
  · next hl => exact ⟨Nat.le_of_not_lt hl, (Except.ok.inj h).symm⟩

theorem push_eq_insert (d : Document) (i : Item) : d.insert d.items.length i = .ok (d.push i) := by
  simp [insert, push, List.insertIdx_length_self]

theorem find?_insertIdx_of_not {p : Item → Bool} {i : Item} (hp : p i = false) (items : List Item)
    (index : Nat) : (items.insertIdx index i).find? p = items.find? p := by
  induction items generalizing index with
  | nil => cases index <;> simp [hp]
  | cons j rest ih =>
    cases index with
    | zero => simp [hp]
    | succ n => simp [List.find?_cons, ih]

theorem find?_insertIdx_of {p : Item → Bool} {i : Item} (hp : p i = true) {items : List Item}
    (hn : items.find? p = none) {index : Nat} (hl : index ≤ items.length) :
    (items.insertIdx index i).find? p = some i := by
  induction items generalizing index with
  | nil =>
    obtain rfl : index = 0 := Nat.le_zero.mp hl
    simp [hp]
  | cons j rest ih =>
    cases index with
    | zero => simp [hp]
    | succ n =>
      have hj : p j = false := by simpa using List.find?_eq_none.mp hn j List.mem_cons_self
      rw [List.find?_cons_of_neg (by simpa using hj)] at hn
      rw [List.insertIdx_succ_cons, List.find?_cons_of_neg (by simpa using hj)]
      exact ih hn (by simpa using hl)

theorem find?_insert {d e : Document} {index : Nat} {i : Item} (h : d.insert index i = .ok e)
    (hn : d.find? i.id = none) (id : ItemId) :
    e.find? id = if id = i.id then some i else d.find? id := by
  obtain ⟨hl, rfl⟩ := insert_ok h
  split
  · next hid =>
    subst hid
    exact find?_insertIdx_of (by simp) hn hl
  · next hid => exact find?_insertIdx_of_not (by simpa using Ne.symm hid) _ _

theorem find?_remove_of_ne {id other : ItemId} (h : other ≠ id) (d : Document) :
    (d.remove id).find? other = d.find? other := by
  obtain ⟨items, _, _⟩ := d
  simp only [find?, remove]
  induction items with
  | nil => rfl
  | cons i rest ih =>
    by_cases hi : i.id = id
    · simp [hi, Ne.symm h]
    · rw [List.eraseP_cons_of_neg (by simpa using hi)]
      simp only [List.find?_cons, ih]

theorem find?_remove_self {d : Document} (hn : (d.items.map (·.id)).Nodup) (id : ItemId) :
    (d.remove id).find? id = none := by
  rw [find?_eq_none]
  intro j hj hid
  obtain ⟨items, _, _⟩ := d
  simp only [remove] at hj
  induction items with
  | nil => simp at hj
  | cons i rest ih =>
    obtain ⟨hi, hr⟩ := List.nodup_cons.mp hn
    by_cases he : i.id = id
    · rw [List.eraseP_cons_of_pos (by simpa using he)] at hj
      exact hi (List.mem_map.mpr ⟨j, hj, hid.trans he.symm⟩)
    · rw [List.eraseP_cons_of_neg (by simpa using he)] at hj
      rcases List.mem_cons.mp hj with rfl | hj
      · exact he hid
      · exact ih hr hj

def endpoints (d : Document) : List Endpoint :=
  d.items.flatMap (·.endpoints)

theorem mem_endpoints {d : Document} {e : Endpoint} :
    e ∈ d.endpoints ↔ ∃ i ∈ d.items, e ∈ i.endpoints :=
  List.mem_flatMap

theorem endpoint?_some {d : Document} {id : EndpointId} {e : Endpoint}
    (h : d.endpoint? id = some e) : e ∈ d.endpoints ∧ e.id = id :=
  ⟨List.mem_of_find?_eq_some h, by simpa using List.find?_some h⟩

theorem endpoint?_of_mem {d : Document} (hn : (d.endpoints.map (·.id)).Nodup) {e : Endpoint}
    (he : e ∈ d.endpoints) : d.endpoint? e.id = some e := by
  cases h : d.endpoint? e.id with
  | none =>
    exact absurd (List.find?_eq_none.mp h e he) (by simp)
  | some f =>
    obtain ⟨hf, hid⟩ := endpoint?_some h
    rw [List.inj_on_of_nodup_map hn hf he hid]

theorem endpoints_update {f : Item → Item} (hf : ∀ i, (f i).endpoints = i.endpoints)
    (d : Document) (id : ItemId) : (d.update id f).endpoints = d.endpoints := by
  simp only [endpoints, update, List.flatMap_def, map_updateFirst hf]

theorem endpoints_setPosition (d : Document) (id : ItemId) (p : Point) :
    (d.setPosition id p).endpoints = d.endpoints :=
  endpoints_update (f := fun i => i.moved p) (fun _ => rfl) d id

theorem endpoints_enable (d : Document) (id : ItemId) :
    (d.update id Item.enable).endpoints = d.endpoints :=
  endpoints_update (f := Item.enable) (fun _ => rfl) d id

theorem flatMap_insertIdx {i : Item} (hi : i.endpoints = []) (items : List Item) (index : Nat) :
    (items.insertIdx index i).flatMap (·.endpoints) = items.flatMap (·.endpoints) := by
  induction items generalizing index with
  | nil => cases index <;> simp [hi]
  | cons j rest ih =>
    cases index with
    | zero => simp [hi]
    | succ n => simp only [List.insertIdx_succ_cons, List.flatMap_cons, ih]

theorem endpoints_insert {d e : Document} {index : Nat} {i : Item} (h : d.insert index i = .ok e)
    (hi : i.endpoints = []) : e.endpoints = d.endpoints := by
  obtain ⟨-, rfl⟩ := insert_ok h
  exact flatMap_insertIdx hi d.items index

theorem endpoints_remove (d : Document) (id : ItemId) :
    (d.remove id).endpoints.Sublist d.endpoints :=
  List.Sublist.flatMap (List.eraseP_sublist) _

section Attach
variable {e : Endpoint} {item : ItemId}

theorem endpoints_attach {d : Document} (h : ∃ i, d.find? item = some i) :
    (d.update item (Item.attach e)).endpoints.Perm (e :: d.endpoints) := by
  obtain ⟨items, _, _⟩ := d
  obtain ⟨i, hi⟩ := h
  simp only [find?, endpoints, update] at hi ⊢
  induction items with
  | nil => simp at hi
  | cons j rest ih =>
    rw [updateFirst]
    split
    · simp [Item.attach]
    · next hj =>
      rw [List.find?_cons_of_neg (by simpa using hj)] at hi
      simp only [List.flatMap_cons]
      exact ((ih hi).append_left _).trans List.perm_middle

theorem mem_endpoints_attach {d : Document} (h : ∃ i, d.find? item = some i) {f : Endpoint} :
    f ∈ (d.update item (Item.attach e)).endpoints ↔ f = e ∨ f ∈ d.endpoints := by
  rw [(endpoints_attach h).mem_iff, List.mem_cons]

end Attach

end Document

end DiagramEditor
