import DiagramEditor.Proofs.Document.Order

/-! Items over time. From one document to a later one an item is removed, or it is still there under
its id: it may still be dragged if it could be before, and endpoints are only added to it, at the
end. -/
namespace DiagramEditor

/-- The second item may be a later state of the first. -/
structure Item.Grows (i j : Item) : Prop where
  draggable : i.draggable = true → j.draggable = true
  endpoints : i.endpoints <+: j.endpoints

namespace Item

theorem Grows.trans {i j k : Item} (h : i.Grows j) (h' : j.Grows k) : i.Grows k :=
  ⟨fun hd => h'.draggable (h.draggable hd), h.endpoints.trans h'.endpoints⟩

theorem grows_of_eq {i j : Item} (hd : j.draggable = i.draggable)
    (he : j.endpoints = i.endpoints) : i.Grows j :=
  ⟨fun h => hd.trans h, he ▸ List.prefix_rfl⟩

theorem grows_enable (i : Item) : i.Grows i.enable :=
  ⟨fun _ => rfl, List.prefix_rfl⟩

theorem grows_attach (e : Endpoint) (i : Item) : i.Grows (i.attach e) :=
  ⟨fun h => h, List.prefix_append _ _⟩

end Item

namespace Document

structure Follows (d e : Document) : Prop where
  gone : ∀ id, d.Gone id → e.Gone id
  item : ∀ id i, d.find? id = some i → e.Gone id ∨ ∃ j, e.find? id = some j ∧ i.Grows j

theorem Follows.refl (d : Document) : d.Follows d where
  gone := fun _ h => h
  item := fun _ i hi => Or.inr ⟨i, hi, Item.grows_of_eq rfl rfl⟩

theorem Follows.trans {d e f : Document} (h : d.Follows e) (h' : e.Follows f) : d.Follows f where
  gone := fun id hg => h'.gone id (h.gone id hg)
  item := by
    intro id i hi
    rcases h.item id i hi with hg | ⟨j, hj, hij⟩
    · exact Or.inl (h'.gone id hg)
    · rcases h'.item id j hj with hg | ⟨k, hk, hjk⟩
      · exact Or.inl hg
      · exact Or.inr ⟨k, hk, hij.trans hjk⟩

theorem follows_update {f : Item → Item} (hid : ∀ i, (f i).id = i.id)
    (hf : ∀ i : Item, i.Grows (f i)) (d : Document) (id : ItemId) : d.Follows (d.update id f) where
  gone := fun _ hg => hg.update hid
  item := by
    intro other i hi
    right
    rw [find?_update hid, hi]
    by_cases ho : other = id
    · exact ⟨f i, by simp [ho], hf i⟩
    · exact ⟨i, by simp [ho], Item.grows_of_eq rfl rfl⟩

theorem follows_setPosition (d : Document) (id : ItemId) (p : Point) :
    d.Follows (d.setPosition id p) :=
  follows_update (f := fun i => i.moved p) (fun _ => rfl) (fun _ => Item.grows_of_eq rfl rfl) d id

theorem gone_lasts (id : ItemId) : Lasts fun d => d.Gone id := by
  intro d other f hf
  refine propext ⟨fun hg => ⟨hg.minted, ?_⟩, fun hg => hg.update hf⟩
  have habsent : ((d.update other f).find? id).isSome = (d.find? id).isSome :=
    isSome_find?_update hf d id
  rwa [hg.absent, Option.isSome_none, eq_comm, Option.isSome_eq_false_iff,
    Option.isNone_iff_eq_none] at habsent

section Sound
variable {d e : Document} (hs : d.Sound)
include hs

theorem Sound.follows_insert {index : Nat} {i : Item} (h : d.mint.2.insert index i = .ok e)
    (hid : i.id = d.mint.1) : d.Follows e where
  gone := fun _ hg => hg.insert hs h hid
  item := by
    intro id j hj
    have hne : id ≠ d.mint.1 := by
      intro he
      rw [he, hs.find?_mint] at hj
      cases hj
    refine Or.inr ⟨j, ?_, Item.grows_of_eq rfl rfl⟩
    rw [hs.find?_insert h hid, if_neg hne, hj]

theorem Sound.gone_insert {index : Nat} {i : Item} (h : d.mint.2.insert index i = .ok e)
    (hid : i.id = d.mint.1) {id : ItemId} (hg : e.Gone id) : d.Gone id := by
  have habsent := hg.absent
  rw [hs.find?_insert h hid] at habsent
  split at habsent
  · cases habsent
  · next hne =>
    refine ⟨?_, habsent⟩
    obtain ⟨-, rfl⟩ := insert_ok h
    obtain ⟨n, hn, rfl⟩ := hg.minted
    refine ⟨n, Nat.lt_of_le_of_ne (Nat.le_of_lt_succ hn) fun he => ?_, rfl⟩
    exact hne (he ▸ rfl)

theorem Sound.follows_remove (id : ItemId) : d.Follows (d.remove id) where
  gone := fun _ hg => hg.remove hs
  item := by
    intro other i hi
    by_cases ho : other = id
    · subst ho
      exact Or.inl (hs.gone_remove hi)
    · refine Or.inr ⟨i, ?_, Item.grows_of_eq rfl rfl⟩
      rw [find?_remove_of_ne ho, hi]

end Sound

section Follows
variable {d e : Document} (h : d.Follows e)
include h

theorem Follows.grows (hd : d.Sound) (he : e.Sound) {i j : Item} (hi : i ∈ d.items)
    (hj : j ∈ e.items) (hid : j.id = i.id) : i.Grows j := by
  have hfound : e.find? i.id = some j := hid ▸ he.find?_of_mem hj
  rcases h.item i.id i (hd.find?_of_mem hi) with hg | ⟨k, hk, hik⟩
  · cases hg.absent.symm.trans hfound
  · rw [hfound] at hk
    exact Option.some.inj hk ▸ hik

theorem Follows.draggable {id : ItemId} (hd : d.Draggable id ∨ d.Gone id) :
    e.Draggable id ∨ e.Gone id := by
  rcases hd with ⟨i, hi, hd⟩ | hg
  · rcases h.item id i hi with hg | ⟨j, hj, hij⟩
    · exact Or.inr hg
    · exact Or.inl ⟨j, hj, hij.draggable hd⟩
  · exact Or.inr (h.gone id hg)

end Follows

end Document

end DiagramEditor
