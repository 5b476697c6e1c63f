import DiagramEditor.Proofs.Board.Upheld

/-! Agreement of the library in memory with the document: that it holds nothing else, that it holds
everything, and that it holds items with the size of the canvas. -/
namespace DiagramEditor

open Wiring (Call Memory Fallible)

namespace Wiring.Memory

theorem connect_ok {m m' : Memory} {id : ConnectionId} {source target : EndpointId}
    (h : m.connect id source target = .ok m') :
    ∃ s t, m.endpoints.get? source = some s ∧ m.endpoints.get? target = some t ∧
      s.role = .source ∧ t.role = .target ∧ m.isFull s = false ∧ m.isFull t = false ∧
      m' = { m with connections := m.connections ++ [⟨id, s.id, t.id⟩] } := by
  rw [connect] at h
  cases hs : m.endpoints.get? source with
  | none => simp [hs] at h
  | some s =>
    cases ht : m.endpoints.get? target with
    | none => simp [hs, ht] at h
    | some t =>
      simp only [hs, ht] at h
      split at h
      · cases h
      · next hr =>
        split at h
        · cases h
        · next hfs =>
          split at h
          · cases h
          · next hft =>
            obtain ⟨hrs, hrt⟩ := not_or.mp hr
            exact ⟨s, t, rfl, rfl, not_not.mp hrs, not_not.mp hrt, by simpa using hfs,
              by simpa using hft, (Except.ok.inj h).symm⟩

theorem call_connect {m m' : Memory} {id : ConnectionId} {s t : Endpoint}
    (h : call (.connect id s t) m = (.ok (), m')) : m.connect id s.id t.id = .ok m' := by
  simp only [call] at h
  split at h
  · cases h
  · next n hn => rw [hn, (Prod.mk.inj h).2]

theorem call_connect_eq {m m' : Memory} {id : ConnectionId} {s t : Endpoint}
    (h : call (.connect id s t) m = (.ok (), m')) :
    ∃ c, m' = { m with connections := m.connections ++ [c] } := by
  obtain ⟨_, _, -, -, -, -, -, -, rfl⟩ := connect_ok (call_connect h)
  exact ⟨_, rfl⟩

structure Within (m : Memory) (d : Document) : Prop where
  endpoints : ∀ {k e}, (k, e) ∈ m.endpoints → k = e.id ∧ e ∈ d.endpoints
  draggables : ∀ {id box}, (id, box) ∈ m.draggables → d.Draggable id

structure Covers (m : Memory) (d : Document) : Prop where
  endpoints : ∀ e ∈ d.endpoints, m.endpoints.get? e.id = some e
  draggables : ∀ id, d.Draggable id → m.draggables.has id = true

/-- Items that may be dragged are held with the size of the canvas. -/
def Boxed (m : Memory) (d : Document) (surface : Option Surface) : Prop :=
  ∀ id, d.Draggable id → ∃ v, surface = some v ∧ m.draggables.get? id = some v.bounds.size

section Within
variable {m m' : Memory} {d d' : Document}

theorem within_empty (d : Document) : empty.Within d :=
  ⟨fun h => absurd h List.not_mem_nil, fun h => absurd h List.not_mem_nil⟩

theorem Within.of_eq (h : m.Within d) (hd : m'.draggables = m.draggables)
    (he : m'.endpoints = m.endpoints) : m'.Within d :=
  ⟨fun hm => h.endpoints (he ▸ hm), fun hm => h.draggables (hd ▸ hm)⟩

theorem Within.mono (h : m.Within d) (he : d.endpoints ⊆ d'.endpoints)
    (hd : ∀ id, d.Draggable id → d'.Draggable id) : m.Within d' :=
  ⟨fun hm => ⟨(h.endpoints hm).1, he (h.endpoints hm).2⟩, fun hm => hd _ (h.draggables hm)⟩

theorem Within.call {c : Call} (h : m.Within d) (hs : d.Sound) (hd : d.Warrants c)
    (hc : Memory.call c m = (.ok (), m')) : m'.Within d := by
  cases c with
  | setContainer container =>
    obtain ⟨-, rfl⟩ := Prod.mk.inj hc
    exact (within_empty d).of_eq rfl rfl
  | makeDraggable id box =>
    obtain ⟨-, rfl⟩ := Prod.mk.inj hc
    refine ⟨h.endpoints, fun hm => ?_⟩
    rcases Table.mem_set.mp hm with ⟨hm, -⟩ | he
    · exact h.draggables hm
    · obtain ⟨i, hi, hid, hdi⟩ := hd
      obtain ⟨rfl, -⟩ := Prod.mk.inj he
      exact hid ▸ hs.draggable_of_mem hi hdi
  | moveItem id p =>
    obtain ⟨-, rfl⟩ := Prod.mk.inj hc
    exact h.of_eq rfl rfl
  | addEndpoint e =>
    obtain ⟨-, rfl⟩ := Prod.mk.inj hc
    refine ⟨fun hm => ?_, h.draggables⟩
    rcases Table.mem_set.mp hm with ⟨hm, -⟩ | he
    · exact h.endpoints hm
    · obtain ⟨rfl, rfl⟩ := Prod.mk.inj he
      exact ⟨rfl, hd⟩
  | connect id s t =>
    obtain ⟨_, rfl⟩ := call_connect_eq hc
    exact h.of_eq rfl rfl
  | removeElement id => exact hd.elim

theorem Within.enable (h : m.Within d) {id : ItemId} {box : Size} (hi : ∃ i, d.find? id = some i) :
    Within { m with draggables := m.draggables.set id box } (d.update id Item.enable) where
  endpoints := by
    intro k e hm
    obtain ⟨hk, he⟩ := h.endpoints hm
    exact ⟨hk, Document.endpoints_enable d id ▸ he⟩
  draggables := by
    intro other v hm
    rw [Document.draggable_enable hi]
    rcases Table.mem_set.mp hm with ⟨hm, -⟩ | he
    · exact Or.inr (h.draggables hm)
    · exact Or.inl (Prod.mk.inj he).1

theorem Within.attach (h : m.Within d) {e : Endpoint} (hi : ∃ i, d.find? e.item = some i) :
    Within { m with endpoints := m.endpoints.set e.id e } (d.update e.item (Item.attach e)) where
  endpoints := by
    intro k f hm
    rw [Document.mem_endpoints_attach hi]
    rcases Table.mem_set.mp hm with ⟨hm, -⟩ | he
    · exact ⟨(h.endpoints hm).1, Or.inr (h.endpoints hm).2⟩
    · obtain ⟨rfl, rfl⟩ := Prod.mk.inj he
      exact ⟨rfl, Or.inl rfl⟩
  draggables := by
    intro id box hm
    exact (Document.draggable_attach e id).mpr (h.draggables hm)

theorem Within.remove (h : m.Within d) (hs : d.Sound) (id : ItemId) :
    (m.removeElement id).Within (d.remove id) where
  endpoints := by
    intro k e hm
    obtain ⟨hm, hne⟩ := List.mem_filter.mp hm
    obtain ⟨hk, he⟩ := h.endpoints hm
    obtain ⟨i, hi, hei⟩ := hs.holder he
    have hi' : (d.remove id).find? e.item = some i := by
      rw [hs.find?_remove, if_neg (by simpa using hne), hi]
    exact ⟨hk, Document.mem_endpoints.mpr ⟨i, Document.mem_of_find? hi', hei⟩⟩
  draggables := by
    intro k box hm
    obtain ⟨hm, hne⟩ := Table.mem_erase.mp hm
    exact (hs.draggable_remove id k).mpr ⟨hne, h.draggables hm⟩

theorem within_upheld (r : Board.Conduct) : r.Upholds Within where
  alike := by
    intro m m' d d' hd he _ hd' he' h
    refine (h.of_eq hd he).mono ?_ fun id => (he' id).mpr
    rw [hd']
    exact List.Subset.refl _
  told := fun hs _ hd hc h => h.call hs hd hc
  enabled := fun _ hi h => h.enable hi
  removed := fun hs h => h.remove hs _
  attached := fun _ hi h => h.attach hi

end Within

section Covers
variable {m m' : Memory} {d d' : Document}

theorem Covers.of_eq (h : m.Covers d) (hd : m'.draggables = m.draggables)
    (he : m'.endpoints = m.endpoints) : m'.Covers d :=
  ⟨fun e hm => he ▸ h.endpoints e hm, fun id hm => hd ▸ h.draggables id hm⟩

theorem Covers.mono (h : m.Covers d) (he : d'.endpoints ⊆ d.endpoints)
    (hd : ∀ id, d'.Draggable id → d.Draggable id) : m.Covers d' :=
  ⟨fun e hm => h.endpoints e (he hm), fun id hm => h.draggables id (hd id hm)⟩

theorem Covers.call {c : Call} (h : m.Covers d) (hn : d.Distinct) (hd : d.Warrants c)
    (hf : ∀ container, c ≠ .setContainer container) (hc : Memory.call c m = (.ok (), m')) :
    m'.Covers d := by
  cases c with
  | setContainer container => exact absurd rfl (hf container)
  | makeDraggable id box =>
    obtain ⟨-, rfl⟩ := Prod.mk.inj hc
    exact ⟨h.endpoints, fun other ho => Table.has_set (Or.inr (h.draggables other ho))⟩
  | moveItem id p =>
    obtain ⟨-, rfl⟩ := Prod.mk.inj hc
    exact h.of_eq rfl rfl
  | addEndpoint e =>
    obtain ⟨-, rfl⟩ := Prod.mk.inj hc
    refine ⟨fun f hm => ?_, h.draggables⟩
    simp only [Table.get?_set]
    split
    · next hid => rw [List.inj_on_of_nodup_map hn hm hd hid]
    · exact h.endpoints f hm
  | connect id s t =>
    obtain ⟨_, rfl⟩ := call_connect_eq hc
    exact h.of_eq rfl rfl
  | removeElement id => exact hd.elim

theorem Covers.enable (h : m.Covers d) {id : ItemId} {box : Size} (hi : ∃ i, d.find? id = some i) :
    Covers { m with draggables := m.draggables.set id box } (d.update id Item.enable) where
  endpoints := by
    intro e he
    exact h.endpoints e (Document.endpoints_enable d id ▸ he)
  draggables := by
    intro other ho
    rw [Document.draggable_enable hi] at ho
    exact Table.has_set (ho.imp_right (h.draggables other))

theorem Covers.attach (h : m.Covers d) {e : Endpoint} (hi : ∃ i, d.find? e.item = some i)
    (hf : ∀ f ∈ d.endpoints, f.id ≠ e.id) :
    Covers { m with endpoints := m.endpoints.set e.id e } (d.update e.item (Item.attach e)) where
  endpoints := by
    intro f hm
    simp only [Table.get?_set]
    rcases (Document.mem_endpoints_attach hi).mp hm with rfl | hm
    · exact if_pos rfl
    · rw [if_neg (hf f hm), h.endpoints f hm]
  draggables := by
    intro id ho
    exact h.draggables id ((Document.draggable_attach e id).mp ho)

theorem Covers.remove (h : m.Covers d) (hs : d.Sound) (id : ItemId) :
    (m.removeElement id).Covers (d.remove id) where
  endpoints := by
    intro e he
    obtain ⟨i, hi, hei⟩ := (hs.remove id).holder he
    rw [hs.find?_remove] at hi
    split at hi
    · cases hi
    · next hne =>
      have hm : e ∈ d.endpoints := (Document.endpoints_remove d id).subset he
      exact Table.get?_filter (h.endpoints e hm) (by simpa using hne)
  draggables := by
    intro other ho
    obtain ⟨hne, ho⟩ := (hs.draggable_remove id other).mp ho
    obtain ⟨box, hb⟩ := Table.has_iff.mp (h.draggables other ho)
    rw [Table.has_iff]
    simp only [removeElement, Table.get?_erase, if_neg hne]
    exact ⟨box, hb⟩

theorem covers_upheld {r : Board.Conduct}
    (hr : ∀ {d e}, r.attaches d e → ∀ f ∈ d.endpoints, f.id ≠ e.id)
    (hf : ∀ d container, ¬ r.sends d (.call (.setContainer container) (.ok ()))) :
    r.Upholds fun m d => d.Distinct ∧ m.Covers d where
  alike := by
    intro m m' d d' hd he _ hd' he' h
    obtain ⟨hn, h⟩ := h
    refine ⟨hn.sublist (by rw [hd']), (h.of_eq hd he).mono ?_ fun id => (he' id).mp⟩
    rw [hd']
    exact List.Subset.refl _
  told := by
    intro m m' d c _ hs hd hc h
    obtain ⟨hn, h⟩ := h
    exact ⟨hn, h.call hn hd (fun container he => hf d container (he ▸ hs)) hc⟩
  enabled := by
    intro m d id box _ hi h
    obtain ⟨hn, h⟩ := h
    exact ⟨hn.sublist (by rw [Document.endpoints_enable]), h.enable hi⟩
  removed := by
    intro m d id hs h
    obtain ⟨hn, h⟩ := h
    exact ⟨hn.sublist (Document.endpoints_remove d id), h.remove hs id⟩
  attached := by
    intro m d e ha hi h
    obtain ⟨hn, h⟩ := h
    exact ⟨hn.perm_cons (hr ha) (Document.endpoints_attach hi), h.attach hi (hr ha)⟩

end Covers

section Boxed
variable {m m' : Memory} {d d' : Document} {surface : Option Surface}

theorem Boxed.set (h : m.Boxed d surface) {id : ItemId} {box : Size}
    (hb : ∃ v, surface = some v ∧ box = v.bounds.size) {other : ItemId}
    (ho : other = id ∨ d.Draggable other) :
    ∃ v, surface = some v ∧ (m.draggables.set id box).get? other = some v.bounds.size := by
  obtain ⟨v, hv, rfl⟩ := hb
  rw [Table.get?_set]
  by_cases he : other = id
  · exact ⟨v, hv, if_pos he⟩
  · rw [if_neg he]
    exact h other (ho.resolve_left he)

theorem Boxed.call {c : Call} (h : m.Boxed d surface) (hd : d.Warrants c)
    (hf : ∀ container, c ≠ .setContainer container)
    (hb : ∀ id box, c = .makeDraggable id box → ∃ v, surface = some v ∧ box = v.bounds.size)
    (hc : Memory.call c m = (.ok (), m')) : m'.Boxed d surface := by
  cases c with
  | setContainer container => exact absurd rfl (hf container)
  | makeDraggable id box =>
    obtain ⟨-, rfl⟩ := Prod.mk.inj hc
    exact fun other ho => h.set (hb id box rfl) (Or.inr ho)
  | moveItem id p =>
    obtain ⟨-, rfl⟩ := Prod.mk.inj hc
    exact h
  | addEndpoint e =>
    obtain ⟨-, rfl⟩ := Prod.mk.inj hc
    exact h
  | connect id s t =>
    obtain ⟨_, rfl⟩ := call_connect_eq hc
    exact h
  | removeElement id => exact hd.elim

theorem boxed_upheld {r : Board.Conduct}
    (hf : ∀ d container, ¬ r.sends d (.call (.setContainer container) (.ok ())))
    (hb : ∀ d id box, r.sends d (.call (.makeDraggable id box) (.ok ())) →
      ∃ v, surface = some v ∧ box = v.bounds.size) :
    r.Upholds fun m d => m.Boxed d surface where
  alike := by
    intro m m' d d' hd _ _ _ he' h id ho
    rw [hd]
    exact h id ((he' id).mp ho)
  told := by
    intro m m' d c _ hs hd hc h
    exact h.call hd (fun container he => hf d container (he ▸ hs))
      (fun id box he => hb d id box (he ▸ hs)) hc
  enabled := by
    intro m d id box hs hi h other ho
    exact h.set (hb d id box hs) ((Document.draggable_enable hi other).mp ho)
  removed := by
    intro m d id hs h other ho
    obtain ⟨hne, ho⟩ := (hs.draggable_remove id other).mp ho
    obtain ⟨v, hv, hg⟩ := h other ho
    refine ⟨v, hv, ?_⟩
    simp only [removeElement, Table.get?_erase, if_neg hne, hg]
  attached := by
    intro m d e _ _ h id ho
    exact h id ((Document.draggable_attach e id).mp ho)

end Boxed

end Wiring.Memory

end DiagramEditor
