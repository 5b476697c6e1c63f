import DiagramEditor.Proofs.Document.Lookup

/-! Sound documents: no two items share an id, the document minted every id itself, and an attached
endpoint names its item. Each edit of a document keeps it sound, and an id that has left a sound
document does not come back. -/
namespace DiagramEditor.Document

theorem idOf_injective (idPrefix : String) : Function.Injective (idOf idPrefix) := by
  intro m n h
  have ht : toString m = toString n := (String.append_right_inj idPrefix).mp (ItemId.mk.inj h)
  have hd : Nat.toDigits 10 m = Nat.toDigits 10 n := by
    rw [← Nat.toList_repr, ← Nat.toList_repr]
    exact congrArg String.toList ht
  rw [← Nat.ofDigitChars_ten_toDigits (n := m), hd, Nat.ofDigitChars_ten_toDigits]

/-- The id was given to an item of this document, which may be gone. -/
def Minted (d : Document) (id : ItemId) : Prop :=
  ∃ n < d.created, id = idOf d.idPrefix n

theorem mint_not_minted (d : Document) : ¬ d.Minted d.mint.1 := by
  intro hm
  obtain ⟨n, hn, h⟩ := hm
  exact absurd (idOf_injective _ h) (Nat.ne_of_gt hn)

structure Sound (d : Document) : Prop where
  ids_nodup : (d.items.map (·.id)).Nodup
  minted : ∀ i ∈ d.items, d.Minted i.id
  owned : ∀ i ∈ d.items, ∀ e ∈ i.endpoints, e.item = i.id

def Distinct (d : Document) : Prop := (d.endpoints.map (·.id)).Nodup

theorem sound_empty (idPrefix : String) : (empty idPrefix).Sound :=
  ⟨List.nodup_nil, fun _ h => absurd h List.not_mem_nil, fun _ h => absurd h List.not_mem_nil⟩

theorem Sound.find?_of_mem {d : Document} (hs : d.Sound) {i : Item} (hi : i ∈ d.items) :
    d.find? i.id = some i :=
  Document.find?_of_mem hs.ids_nodup hi

theorem Sound.holder {d : Document} (hs : d.Sound) {e : Endpoint} (he : e ∈ d.endpoints) :
    ∃ i, d.find? e.item = some i ∧ e ∈ i.endpoints := by
  obtain ⟨i, hi, hei⟩ := mem_endpoints.mp he
  exact ⟨i, hs.owned i hi e hei ▸ hs.find?_of_mem hi, hei⟩

theorem Sound.find?_mint {d : Document} (hs : d.Sound) : d.find? d.mint.1 = none :=
  find?_eq_none.mpr fun i hi h => mint_not_minted d (h ▸ hs.minted i hi)

section Update
variable {d : Document} {id : ItemId} {f : Item → Item}

theorem Sound.update (hs : d.Sound) (hid : ∀ i, (f i).id = i.id)
    (hown : ∀ i ∈ d.items, i.id = id → ∀ e ∈ (f i).endpoints, e.item = i.id) :
    (d.update id f).Sound where
  ids_nodup := by
    have hm : (updateFirst id f d.items).map (·.id) = d.items.map (·.id) := map_updateFirst hid _
    exact hm ▸ hs.ids_nodup
  minted := by
    intro j hj
    rcases mem_updateFirst hj with hj | ⟨i, hi, -, rfl⟩
    · exact hs.minted j hj
    · exact hid i ▸ hs.minted i hi
  owned := by
    intro j hj e he
    rcases mem_updateFirst hj with hj | ⟨i, hi, hii, rfl⟩
    · exact hs.owned j hj e he
    · exact hid i ▸ hown i hi hii e he

theorem Sound.adjust (hs : d.Sound) (hid : ∀ i, (f i).id = i.id)
    (hend : ∀ i, (f i).endpoints = i.endpoints) : (d.update id f).Sound :=
  hs.update hid fun i hi _ e he => hs.owned i hi e (hend i ▸ he)

theorem Sound.attach (hs : d.Sound) (e : Endpoint) : (d.update e.item (Item.attach e)).Sound := by
  refine hs.update (fun _ => rfl) fun i hi hid f hf => ?_
  rcases List.mem_append.mp hf with hf | hf
  · exact hs.owned i hi f hf
  · rw [List.mem_singleton.mp hf, hid]

end Update

section Insert
variable {d e : Document} {index : Nat} {i : Item}

theorem Sound.find?_insert (hs : d.Sound) (h : d.mint.2.insert index i = .ok e)
    (hid : i.id = d.mint.1) (id : ItemId) :
    e.find? id = if id = d.mint.1 then some i else d.find? id := by
  have hn : d.mint.2.find? i.id = none := hid ▸ hs.find?_mint
  have hf := Document.find?_insert h hn id
  rw [hid] at hf
  exact hf

theorem Sound.insert (hs : d.Sound) (h : d.mint.2.insert index i = .ok e)
    (hid : i.id = d.mint.1) (hend : i.endpoints = []) : e.Sound := by
  obtain ⟨hl, rfl⟩ := insert_ok h
  have hp : (d.items.insertIdx index i).Perm (i :: d.items) := List.perm_insertIdx i d.items hl
  refine ⟨?_, ?_, ?_⟩
  · have hn : i.id ∉ d.items.map (·.id) := by
      intro hm
      obtain ⟨j, hj, hji⟩ := List.mem_map.mp hm
      exact find?_eq_none.mp hs.find?_mint j hj (hji.trans hid)
    exact (hp.map (·.id)).nodup_iff.mpr (List.nodup_cons.mpr ⟨hn, hs.ids_nodup⟩)
  · intro j hj
    rcases List.mem_cons.mp (hp.mem_iff.mp hj) with rfl | hj
    · exact ⟨d.created, Nat.lt_succ_self _, hid⟩
    · obtain ⟨n, hn, hjn⟩ := hs.minted j hj
      exact ⟨n, Nat.lt_succ_of_lt hn, hjn⟩
  · intro j hj f hf
    rcases List.mem_cons.mp (hp.mem_iff.mp hj) with rfl | hj
    · rw [hend] at hf
      exact absurd hf List.not_mem_nil
    · exact hs.owned j hj f hf

end Insert

theorem Sound.remove {d : Document} (hs : d.Sound) (id : ItemId) : (d.remove id).Sound where
  ids_nodup := hs.ids_nodup.sublist ((List.eraseP_sublist).map _)
  minted := fun i hi => hs.minted i (List.mem_of_mem_eraseP hi)
  owned := fun i hi => hs.owned i (List.mem_of_mem_eraseP hi)

theorem Sound.find?_remove {d : Document} (hs : d.Sound) (id other : ItemId) :
    (d.remove id).find? other = if other = id then none else d.find? other := by
  split
  · next h => exact h ▸ find?_remove_self hs.ids_nodup other
  · next h => exact find?_remove_of_ne h d

theorem Distinct.sublist {d d' : Document} (hn : d.Distinct)
    (hs : d'.endpoints.Sublist d.endpoints) : d'.Distinct :=
  List.Nodup.sublist (hs.map _) hn

theorem Distinct.perm_cons {d d' : Document} (hn : d.Distinct) {e : Endpoint}
    (hf : ∀ f ∈ d.endpoints, f.id ≠ e.id) (hp : d'.endpoints.Perm (e :: d.endpoints)) :
    d'.Distinct := by
  have hm : e.id ∉ d.endpoints.map (·.id) := by
    intro hm
    obtain ⟨f, hfm, hid⟩ := List.mem_map.mp hm
    exact hf f hfm hid
  have hc : ((e :: d.endpoints).map (·.id)).Nodup := List.nodup_cons.mpr ⟨hm, hn⟩
  exact (hp.map (·.id)).nodup_iff.mpr hc

def Draggable (d : Document) (id : ItemId) : Prop :=
  ∃ i, d.find? id = some i ∧ i.draggable = true

theorem Sound.draggable_of_mem {d : Document} (hs : d.Sound) {i : Item} (hi : i ∈ d.items)
    (h : i.draggable = true) : d.Draggable i.id :=
  ⟨i, hs.find?_of_mem hi, h⟩

section Draggable
variable {d e : Document} {id : ItemId} {f : Item → Item}

theorem draggable_update (hid : ∀ i, (f i).id = i.id) (hf : ∀ i, (f i).draggable = i.draggable)
    (other : ItemId) : (d.update id f).Draggable other ↔ d.Draggable other := by
  rw [Draggable, Draggable, find?_update hid]
  split
  · simp [hf]
  · rfl

theorem draggable_attach (e : Endpoint) (other : ItemId) :
    (d.update e.item (Item.attach e)).Draggable other ↔ d.Draggable other :=
  draggable_update (f := Item.attach e) (fun _ => rfl) (fun _ => rfl) other

theorem draggable_setPosition (id : ItemId) (p : Point) (other : ItemId) :
    (d.setPosition id p).Draggable other ↔ d.Draggable other :=
  draggable_update (f := fun i => i.moved p) (fun _ => rfl) (fun _ => rfl) other

theorem draggable_enable (h : ∃ i, d.find? id = some i) (other : ItemId) :
    (d.update id Item.enable).Draggable other ↔ other = id ∨ d.Draggable other := by
  obtain ⟨i, hi⟩ := h
  rw [Draggable, Draggable, find?_update (f := Item.enable) fun _ => rfl]
  by_cases ho : other = id
  · subst ho
    simp [hi, Item.enable]
  · simp [ho]

theorem Sound.draggable_insert (hs : d.Sound) {index : Nat} {i : Item}
    (h : d.mint.2.insert index i = .ok e) (hid : i.id = d.mint.1) (hi : i.draggable = false)
    (other : ItemId) : e.Draggable other ↔ d.Draggable other := by
  rw [Draggable, Draggable, hs.find?_insert h hid]
  split
  · next ho => simp [hi, ho, hs.find?_mint]
  · rfl

theorem Sound.draggable_remove (hs : d.Sound) (id other : ItemId) :
    (d.remove id).Draggable other ↔ other ≠ id ∧ d.Draggable other := by
  rw [Draggable, Draggable, hs.find?_remove]
  split
  · next ho => simp [ho]
  · next ho => simp [ho]

end Draggable

/-- The id was given to an item that has been removed. -/
structure Gone (d : Document) (id : ItemId) : Prop where
  minted : d.Minted id
  absent : d.find? id = none

theorem Sound.gone_remove {d : Document} (hs : d.Sound) {id : ItemId} {i : Item}
    (h : d.find? id = some i) : (d.remove id).Gone id where
  minted := find?_id h ▸ hs.minted i (mem_of_find? h)
  absent := find?_remove_self hs.ids_nodup id

section Gone
variable {d e : Document} {id other : ItemId}

theorem Gone.update {f : Item → Item} (hg : d.Gone id) (hid : ∀ i, (f i).id = i.id) :
    (d.update other f).Gone id where
  minted := hg.minted
  absent := by rw [find?_update hid, hg.absent]; simp

theorem Gone.insert {index : Nat} {i : Item} (hg : d.Gone id) (hs : d.Sound)
    (h : d.mint.2.insert index i = .ok e) (hid : i.id = d.mint.1) : e.Gone id where
  minted := by
    obtain ⟨-, rfl⟩ := insert_ok h
    obtain ⟨n, hn, hin⟩ := hg.minted
    exact ⟨n, Nat.lt_succ_of_lt hn, hin⟩
  absent := by
    have hne : id ≠ d.mint.1 := fun h => mint_not_minted d (h ▸ hg.minted)
    rw [hs.find?_insert h hid, if_neg hne, hg.absent]

theorem Gone.remove (hg : d.Gone id) (hs : d.Sound) : (d.remove other).Gone id where
  minted := hg.minted
  absent := by rw [hs.find?_remove, hg.absent]; simp

end Gone

end DiagramEditor.Document
