import DiagramEditor.Proofs.Board.Canvas
import DiagramEditor.Proofs.Board.Traces

/-! Positions that the library in memory holds. As long as it never fails, each is the position of
its item, but for positions that gone items left behind. -/
namespace DiagramEditor

open Wiring (Call Library Memory)

namespace Wiring.Memory

/-- A position that is held is that of its item, or the item is missing and among the strays. -/
def Places (m : Memory) (d : Document) (strays : ItemId → Prop) : Prop :=
  ∀ id p, m.positions.get? id = some p →
    (∃ i, d.find? id = some i ∧ i.position = p) ∨ (d.find? id = none ∧ strays id)

section Places
variable {m m' : Memory} {d d' : Document} {strays : ItemId → Prop}

theorem places_empty (d : Document) (strays : ItemId → Prop) : empty.Places d strays :=
  fun _ _ h => by cases h

theorem Places.mono (h : m.Places d strays) {more : ItemId → Prop}
    (hs : ∀ id, strays id → more id) : m.Places d more :=
  fun id p hp => (h id p hp).imp_right fun ⟨hn, hstray⟩ => ⟨hn, hs id hstray⟩

theorem Places.of_eq (h : m.Places d strays) (hm : m'.positions = m.positions) :
    m'.Places d strays :=
  fun id p hp => h id p (hm ▸ hp)

theorem Places.update {f : Item → Item} {id : ItemId} (h : m.Places d strays)
    (hid : ∀ i, (f i).id = i.id) (hf : ∀ i, (f i).position = i.position) :
    m.Places (d.update id f) strays := by
  intro other p hp
  rw [Document.find?_update hid]
  by_cases ho : other = id
  · rw [if_pos ho]
    rcases h other p hp with ⟨i, hi, rfl⟩ | ⟨hn, hs⟩
    · exact Or.inl ⟨f i, by rw [hi]; rfl, hf i⟩
    · exact Or.inr ⟨by rw [hn]; rfl, hs⟩
  · rw [if_neg ho]
    exact h other p hp

theorem Places.insert (h : m.Places d strays) (hs : d.Sound) (hm : ∀ id, strays id → d.Minted id)
    {index : Nat} {i : Item} (hi : d.mint.2.insert index i = .ok d') (hid : i.id = d.mint.1) :
    m.Places d' strays := by
  intro other p hp
  rw [hs.find?_insert hi hid]
  by_cases ho : other = d.mint.1
  · subst ho
    rcases h _ p hp with ⟨j, hj, -⟩ | ⟨-, hstray⟩
    · rw [hs.find?_mint] at hj
      cases hj
    · exact absurd (hm _ hstray) (Document.mint_not_minted d)
  · rw [if_neg ho]
    exact h other p hp

theorem Places.remove (h : m.Places d strays) (hs : d.Sound) (id : ItemId) :
    (m.removeElement id).Places (d.remove id) strays := by
  intro other p hp
  simp only [removeElement, Table.get?_erase] at hp
  rw [hs.find?_remove]
  by_cases ho : other = id
  · rw [if_pos ho] at hp
    cases hp
  · rw [if_neg ho] at hp ⊢
    exact h other p hp

theorem Places.move (h : m.Places d strays) {id : ItemId}
    (hid : (∃ i, d.find? id = some i) ∨ strays id) (p : Point) :
    Places { m with positions := m.positions.set id p } (d.setPosition id p) strays := by
  intro other q hq
  simp only [Table.get?_set] at hq
  rw [Document.setPosition, Document.find?_update (f := fun i => i.moved p) fun _ => rfl]
  by_cases ho : other = id
  · subst ho
    obtain rfl : p = q := by simpa using hq
    cases hf : d.find? other with
    | none =>
      have hnone : ¬ ∃ i, d.find? other = some i := by simp [hf]
      exact Or.inr ⟨by simp, hid.resolve_left hnone⟩
    | some i => exact Or.inl ⟨i.moved p, by simp, rfl⟩
  · rw [if_neg ho] at hq ⊢
    exact h other q hq

theorem Places.call {c : Call} (h : m.Places d strays) (hs : d.Sound) (hd : d.Warrants c)
    (hc : Memory.call c m = (.ok (), m')) : m'.Places d strays := by
  cases c with
  | setContainer container =>
    obtain ⟨-, rfl⟩ := Prod.mk.inj hc
    exact (places_empty d strays).of_eq rfl
  | makeDraggable id box =>
    obtain ⟨-, rfl⟩ := Prod.mk.inj hc
    exact h.of_eq rfl
  | moveItem id p =>
    obtain ⟨-, rfl⟩ := Prod.mk.inj hc
    obtain ⟨i, hi, rfl, -, rfl⟩ := hd
    intro other q hq
    simp only [Table.get?_set] at hq
    by_cases ho : other = i.id
    · subst ho
      obtain rfl : i.position = q := by simpa using hq
      exact Or.inl ⟨i, hs.find?_of_mem hi, rfl⟩
    · rw [if_neg ho] at hq
      exact h other q hq
  | addEndpoint e =>
    obtain ⟨-, rfl⟩ := Prod.mk.inj hc
    exact h.of_eq rfl
  | connect id s t =>
    obtain ⟨_, rfl⟩ := call_connect_eq hc
    exact h.of_eq rfl
  | removeElement id => exact hd.elim

theorem places_canvasCalls (hs : d.Sound) {container : Element}
    (h : Library.callAll call (Board.canvasCalls container d) m = (.ok (), m')) :
    m'.Places d strays := by
  obtain ⟨n, hn, hrest⟩ := Library.callAll_cons_ok h
  obtain ⟨-, rfl⟩ := Prod.mk.inj hn
  have hstart : Places { empty with container := _ } d strays := (places_empty d strays).of_eq rfl
  refine callAll_keeps (P := fun m => m.Places d strays) ?_ hrest hstart
  intro c hc m m' hcall hm
  exact hm.call hs (Document.warrants_registration hc) hcall

end Places

theorem held_call {m m' : Memory} {d : Document} {c : Call} {id : ItemId} (hd : d.Warrants c)
    (hf : ∀ container, c ≠ .setContainer container) (hc : call c m = (.ok (), m'))
    (h : m.positions.has id = true) : m'.positions.has id = true := by
  cases c with
  | setContainer container => exact absurd rfl (hf container)
  | makeDraggable other box =>
    obtain ⟨-, rfl⟩ := Prod.mk.inj hc
    exact h
  | moveItem other p =>
    obtain ⟨-, rfl⟩ := Prod.mk.inj hc
    exact Table.has_set (Or.inr h)
  | addEndpoint e =>
    obtain ⟨-, rfl⟩ := Prod.mk.inj hc
    exact h
  | connect cid s t =>
    obtain ⟨_, rfl⟩ := call_connect_eq hc
    exact h
  | removeElement other => exact hd.elim

end Wiring.Memory

namespace Board

theorem measured_position (bounds : Rect) (i : Item) :
    (measured bounds i).position = i.position := by
  rw [measured]
  split <;> rfl

section Effect
variable {σ : Type} {w : Surroundings σ} {memory : σ → Memory} {r : Conduct} {x y : Document × σ}
  {strays : ItemId → Prop} {id : ItemId}

theorem Effect.minted (h : Effect w r x y) (hm : x.1.Minted id) : y.1.Minted id := by
  cases h with
  | inserted index kind p h =>
    obtain ⟨-, rfl⟩ := Document.insert_ok h
    obtain ⟨n, hn, hid⟩ := hm
    exact ⟨n, Nat.lt_succ_of_lt hn, hid⟩
  | _ => exact hm

theorem Effect.places (h : Effect w r x y) (hw : w.Carries memory) (hs : x.1.Sound)
    (hr : ∀ {d id p}, d.Sound → r.sends d (.call (.moveItem id p) (.ok ())) →
      (∃ i, d.find? id = some i) ∨ strays id)
    (hm : ∀ id, strays id → x.1.Minted id) (hx : (memory x.2).Places x.1 strays) :
    (memory y.2).Places y.1 strays := by
  cases h with
  | noted n _ => exact hx.of_eq (by rw [hw.note])
  | refused _ hc => exact hx.of_eq (by rw [hw.refused hc])
  | told _ hd hc => exact hx.call hs hd (hw.accepted hc)
  | resized other bounds => exact hx.update (measured_id bounds) (measured_position bounds)
  | enabled _ _ hc =>
    have hmem := hw.memory_eq hc rfl
    exact (hx.update (f := Item.enable) (fun _ => rfl) fun _ => rfl).of_eq (by rw [hmem])
  | placed hsend hc =>
    rw [hw.memory_eq hc rfl]
    exact hx.move (hr hs hsend) _
  | slipped _ hc => cases hw.carried hc
  | inserted index kind p h => exact hx.insert hs hm h rfl
  | removed _ _ hc =>
    rw [hw.memory_eq hc rfl]
    exact hx.remove hs _
  | @attached _ _ _ e _ _ _ hc =>
    have hmem := hw.memory_eq hc rfl
    exact (hx.update (f := Item.attach e) (fun _ => rfl) fun _ => rfl).of_eq (by rw [hmem])

theorem Effect.held (h : Effect w r x y) (hw : w.Fronts memory)
    (hf : ∀ d container, ¬ r.sends d (.call (.setContainer container) (.ok ())))
    (hg : x.1.Gone id) (hx : (memory x.2).positions.has id = true) :
    (memory y.2).positions.has id = true := by
  cases h with
  | noted n _ =>
    rw [hw.note]
    exact hx
  | refused _ hc => exact hw.refused hc ▸ hx
  | @told d _ _ _ hsend hd hc =>
    exact Memory.held_call hd (fun container he => hf d container (he ▸ hsend)) (hw.accepted hc) hx
  | resized other bounds => exact hx
  | enabled _ _ hc =>
    rw [hw.memory_eq hc rfl]
    exact hx
  | placed _ hc =>
    rw [hw.memory_eq hc rfl]
    exact Table.has_set (Or.inr hx)
  | slipped _ hc => exact hw.refused hc ▸ hx
  | inserted index kind p h => exact hx
  | @removed d _ _ other _ hi hc =>
    rw [hw.memory_eq hc rfl]
    have hne : id ≠ other := by
      intro he
      subst he
      obtain ⟨i, hi⟩ := hi
      rw [hg.absent] at hi
      cases hi
    obtain ⟨p, hp⟩ := Table.has_iff.mp hx
    refine Table.has_iff.mpr ⟨p, ?_⟩
    simp only [Memory.removeElement, Table.get?_erase, if_neg hne, hp]
  | attached _ _ _ hc =>
    rw [hw.memory_eq hc rfl]
    exact hx

end Effect

end Board

end DiagramEditor
