import DiagramEditor.Proofs.Board.Orderly
import DiagramEditor.Proofs.Wiring.Fallible

/-! Relations between a library in memory and a document that effects uphold. It is enough to look
at the calls that reach the library and at the three edits that go with one. -/
namespace DiagramEditor.Board

open Wiring (Call Memory)

/-- The relation outlasts all effects bound to a conduct, if the document is sound. -/
structure Conduct.Upholds (r : Conduct) (P : Memory → Document → Prop) : Prop where
  alike : ∀ {m m' d d'}, m'.draggables = m.draggables → m'.endpoints = m.endpoints →
    m'.connections = m.connections → d'.endpoints = d.endpoints →
    (∀ id, d'.Draggable id ↔ d.Draggable id) → P m d → P m' d'
  told : ∀ {m m' d c}, d.Sound → r.sends d (.call c (.ok ())) → d.Warrants c →
    Memory.call c m = (.ok (), m') → P m d → P m' d
  enabled : ∀ {m d id box}, r.sends d (.call (.makeDraggable id box) (.ok ())) →
    (∃ i, d.find? id = some i) → P m d →
    P { m with draggables := m.draggables.set id box } (d.update id Item.enable)
  removed : ∀ {m d id}, d.Sound → P m d → P (m.removeElement id) (d.remove id)
  attached : ∀ {m d e}, r.attaches d e → (∃ i, d.find? e.item = some i) → P m d →
    P { m with endpoints := m.endpoints.set e.id e } (d.update e.item (Item.attach e))

section Upheld
variable {σ : Type} {w : Surroundings σ} {memory : σ → Memory} {r : Conduct}
  {P : Memory → Document → Prop} {x y : Document × σ}

theorem Effect.upheld (hP : r.Upholds P) (hw : w.Fronts memory) (h : Effect w r x y)
    (hs : x.1.Sound) (hx : P (memory x.2) x.1) : P (memory y.2) y.1 := by
  cases h with
  | noted n _ =>
    simp only [hw.note]
    exact hx
  | refused _ hc => exact hw.refused hc ▸ hx
  | told hr hd hc => exact hP.told hs hr hd (hw.accepted hc) hx
  | resized id bounds =>
    exact hP.alike rfl rfl rfl (Document.endpoints_update (Item.endpoints_measured bounds) _ _)
      (Document.draggable_update (measured_id bounds) (measured_draggable bounds)) hx
  | enabled hr hi hc =>
    rw [hw.memory_eq hc rfl]
    exact hP.enabled hr hi hx
  | placed _ hc =>
    have hm := hw.memory_eq hc rfl
    exact hP.alike (by rw [hm]) (by rw [hm]) (by rw [hm])
      (Document.endpoints_setPosition _ _ _) (Document.draggable_setPosition _ _) hx
  | slipped _ hc =>
    have hm := hw.refused hc
    exact hP.alike (by rw [hm]) (by rw [hm]) (by rw [hm]) (Document.endpoints_setPosition _ _ _)
      (Document.draggable_setPosition _ _) hx
  | @inserted d d' _ index kind p h =>
    have he : d'.endpoints = d.endpoints := (Document.endpoints_insert h rfl).trans rfl
    exact hP.alike rfl rfl rfl he (hs.draggable_insert h rfl rfl) hx
  | removed _ _ hc =>
    rw [hw.memory_eq hc rfl]
    exact hP.removed hs hx
  | attached _ hi ha hc =>
    rw [hw.memory_eq hc rfl]
    exact hP.attached ha hi hx

theorem step_upheld {b : Board} {op : Op} (hP : (b.conduct op).Upholds P) (hw : w.Fronts memory)
    (hs : b.document.Sound) {s : σ} (h : P (memory s) b.document) :
    P (memory (step w op b s).outside) (step w op b s).board.document := by
  have ht := (step_trail w b s op).keeps (P := fun x => x.1.Sound ∧ P (memory x.2) x.1)
    (fun hxy hx => ⟨hxy.sound hx.1, hxy.upheld hP hw hx.1 hx.2⟩) ⟨hs, h⟩
  exact ht.2

end Upheld

end DiagramEditor.Board
