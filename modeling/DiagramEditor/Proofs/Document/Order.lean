import DiagramEditor.Proofs.Document.Sound

/-! The order of a document as a list of ids: what each edit makes of it, and the index of an item
in it. -/
namespace DiagramEditor.Document

def ids (d : Document) : List ItemId := d.items.map (·.id)

theorem mem_ids {d : Document} {id : ItemId} : id ∈ d.ids ↔ ∃ i, d.find? id = some i := by
  constructor
  · intro h
    obtain ⟨i, hi, rfl⟩ := List.mem_map.mp h
    exact exists_find? hi
  · intro h
    obtain ⟨i, hi⟩ := h
    exact List.mem_map.mpr ⟨i, mem_of_find? hi, find?_id hi⟩

theorem Sound.nodup_ids {d : Document} (hs : d.Sound) : d.ids.Nodup := hs.ids_nodup

theorem indexOf?_eq {d : Document} {id : ItemId} (h : id ∈ d.ids) :
    d.indexOf? id = some (d.ids.idxOf id) := by
  have hmap : d.ids.findIdx? (· == id) = d.indexOf? id := List.findIdx?_map
  rw [← hmap, List.findIdx?_eq_some_iff_findIdx_eq]
  exact ⟨List.idxOf_lt_length_iff.mpr h, rfl⟩

section Edits
variable (d : Document) (id : ItemId)

@[simp] theorem ids_update {f : Item → Item} (hf : ∀ i, (f i).id = i.id) :
    (d.update id f).ids = d.ids :=
  map_updateFirst hf d.items

@[simp] theorem ids_push (i : Item) : (d.push i).ids = d.ids ++ [i.id] :=
  List.map_append

/-- What is read off a document does not change when an item changes that keeps its id. -/
def Lasts {α : Type} (g : Document → α) : Prop :=
  ∀ d id f, (∀ i, (f i).id = i.id) → g (d.update id f) = g d

theorem ids_lasts : Lasts ids := fun d id _ hf => ids_update d id hf

theorem Lasts.setPosition {α : Type} {g : Document → α} (hg : Lasts g) (p : Point) :
    g (d.setPosition id p) = g d :=
  hg d id (fun i => i.moved p) fun _ => rfl

theorem find?_setPosition {d : Document} {id : ItemId} {i : Item} (h : d.find? id = some i)
    (p : Point) : (d.setPosition id p).find? id = some (i.moved p) := by
  rw [setPosition, find?_update (f := fun i => i.moved p) fun _ => rfl, if_pos rfl, h]
  rfl

theorem setPosition_setPosition (p q : Point) :
    (d.setPosition id p).setPosition id q = d.setPosition id q :=
  congrArg (fun items => { d with items := items })
    (updateFirst_updateFirst (f := fun i => i.moved p) (fun _ => rfl) d.items)

theorem setPosition_eq_self {d : Document} {id : ItemId} {p : Point}
    (h : ∀ i, d.find? id = some i → i.position = p) : d.setPosition id p = d := by
  have hitems : updateFirst id (fun i => i.moved p) d.items = d.items :=
    updateFirst_eq_self fun i hi => by rw [← h i hi]; rfl
  rw [setPosition, update, hitems]

theorem ids_insert {e : Document} {index : Nat} {i : Item} (h : d.insert index i = .ok e) :
    e.ids = d.ids.insertIdx index i.id := by
  obtain ⟨-, rfl⟩ := insert_ok h
  exact List.map_insertIdx _ _ _ _

@[simp] theorem ids_remove : (d.remove id).ids = d.ids.erase id := by
  rw [ids, ids, remove, List.erase_eq_eraseP', List.eraseP_map]
  rfl

end Edits

end DiagramEditor.Document
