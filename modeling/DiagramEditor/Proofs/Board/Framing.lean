import DiagramEditor.Proofs.Board.Independence

/-! What gestures leave alone. They move one item in the document and in the library, the one that
is dragged before they come, and change nothing else but the gesture itself. -/
namespace DiagramEditor

open Wiring (Call Memory Fallible)

namespace Wiring.Memory

/-- The second library differs from the first in the positions of certain items only. -/
structure Shifts (m m' : Memory) (moves : ItemId → Prop) : Prop where
  container : m'.container = m.container
  draggables : m'.draggables = m.draggables
  endpoints : m'.endpoints = m.endpoints
  connections : m'.connections = m.connections
  positions : ∀ id, m'.positions.get? id ≠ m.positions.get? id → moves id

section Shifts
variable {m m' : Memory} {moves : ItemId → Prop}

theorem Shifts.refl (m : Memory) (moves : ItemId → Prop) : m.Shifts m moves :=
  ⟨rfl, rfl, rfl, rfl, fun _ h => absurd rfl h⟩

theorem Shifts.moveItem (h : m.Shifts m' moves) {id : ItemId} (hid : moves id) {p : Point}
    {m'' : Memory} (hc : call (.moveItem id p) m' = (.ok (), m'')) : m.Shifts m'' moves := by
  obtain ⟨-, rfl⟩ := Prod.mk.inj hc
  refine ⟨h.container, h.draggables, h.endpoints, h.connections, fun other hne => ?_⟩
  by_cases ho : other = id
  · exact ho ▸ hid
  · refine h.positions other ?_
    rwa [Table.get?_set, if_neg ho] at hne

end Shifts

end Wiring.Memory

namespace Board

def Drags (b : Board) (id : ItemId) : Prop := ∃ grab start, b.gesture = .item id grab start

theorem gesture_sends {b : Board} {op : Op} (hop : op.isGesture = true) {d : Document} {c : Call}
    {answer : Except Fault Unit} (h : (b.conduct op).sends d (.call c answer)) :
    ∃ id p, c = .moveItem id p ∧ b.Drags id := by
  cases op with
  | start source page =>
    cases c with
    | moveItem id p =>
      obtain ⟨-, grab, hg⟩ := h
      exact ⟨id, p, rfl, grab, p, hg⟩
    | _ => exact h.elim
  | move page =>
    cases c with
    | moveItem id p => exact ⟨id, p, rfl, h.2⟩
    | _ => exact h.elim
  | stop page =>
    cases c with
    | moveItem id p => exact ⟨id, p, rfl, h.2⟩
    | _ => exact h.elim
  | _ => cases hop

section Effect
variable {σ : Type} {w : Surroundings σ} {memory : σ → Memory} {r : Conduct} {x y : Document × σ}
  {m : Memory} {moves : ItemId → Prop}

theorem Effect.shifts (h : Effect w r x y) (hw : w.Fronts memory)
    (hr : ∀ {d c answer}, r.sends d (.call c answer) → ∃ id p, c = .moveItem id p ∧ moves id)
    (hx : m.Shifts (memory x.2) moves) : m.Shifts (memory y.2) moves := by
  cases h with
  | noted n _ => rwa [hw.note]
  | refused _ hc => rwa [hw.refused hc]
  | told hs _ hc =>
    obtain ⟨id, p, rfl, hid⟩ := hr hs
    exact hx.moveItem hid (hw.accepted hc)
  | resized id bounds => exact hx
  | enabled hs _ _ =>
    obtain ⟨id, p, he, -⟩ := hr hs
    cases he
  | placed hs hc =>
    obtain ⟨id, p, he, hid⟩ := hr hs
    obtain ⟨rfl, rfl⟩ := Call.moveItem.inj he
    exact hx.moveItem hid (hw.accepted hc)
  | slipped _ hc => rwa [hw.refused hc]
  | inserted index kind p h => exact hx
  | removed hs _ _ =>
    obtain ⟨id, p, he, -⟩ := hr hs
    cases he
  | attached hs _ _ _ =>
    obtain ⟨id, p, he, -⟩ := hr hs
    cases he

end Effect

section Gesture
variable {σ : Type} {w : Surroundings σ} {memory : σ → Memory} (b : Board) (s : σ) {op : Op}
  (hop : op.isGesture = true)
include hop

theorem gesture_shifts (hw : w.Fronts memory) :
    (memory s).Shifts (memory (step w op b s).outside) b.Drags :=
  (step_trail w b s op).keeps (P := fun x => (memory s).Shifts (memory x.2) b.Drags)
    (fun hxy hx => hxy.shifts hw (gesture_sends hop) hx) (Memory.Shifts.refl _ _)

theorem gesture_frame : ∃ d g, (step w op b s).board = { b with document := d, gesture := g } := by
  cases op with
  | start source page => exact startDrag_frame w b s source page
  | move page => exact moveDrag_frame w b s page
  | stop page => exact stopDrag_frame w b s page
  | _ => cases hop

theorem gesture_document : let d := (step w op b s).board.document
    d = b.document ∨ ∃ id p, b.Drags id ∧ d = b.document.setPosition id p := by
  intro d
  have hturn : d = (turn w op b s).reply.after.document :=
    (congrArg (·.board.document) (step_turn w op b s)).trans rfl
  rw [hturn]
  rcases gesture_onlyMoves w b s hop with ⟨-, hd⟩ | ⟨id, grab, start, p, hg, -, hd⟩
  · exact Or.inl hd
  · exact Or.inr ⟨id, p, ⟨grab, start, hg⟩, hd⟩

end Gesture

end Board

namespace Document

theorem forall₂_setPosition (d : Document) (id : ItemId) (p : Point) :
    List.Forall₂ (fun i j => j = i.moved j.position ∧ (j ≠ i → i.id = id)) d.items
      (d.setPosition id p).items :=
  forall₂_updateFirst (fun _ => ⟨rfl, fun hne => absurd rfl hne⟩) (fun _ hi => ⟨rfl, fun _ => hi⟩)
    d.items

end Document

namespace Board

/-- A gesture moves the one item that is dragged before it, in the document and in the library, and
leaves everything else on the board and in the library as it was. -/
theorem gesture_moves_dragged {σ : Type} {w : Surroundings σ} {memory : σ → Memory}
    (hw : w.Fronts memory) (b : Board) (s : σ) {op : Op} (hop : op.isGesture = true) :
    let t := turn w op b s
    (∃ items gesture,
      t.board = { b with document := { b.document with items := items }, gesture := gesture }) ∧
    List.Forall₂ (fun i j => j = { i with x := j.x, y := j.y } ∧ (j ≠ i → b.Drags i.id))
      b.document.items t.board.document.items ∧
    (memory s).Shifts (memory t.outside) b.Drags := by
  intro t
  have hdocument := gesture_document (w := w.recorded) b ⟨s, []⟩ hop
  refine ⟨?_, ?_, gesture_shifts b ⟨s, []⟩ hop hw.recorded⟩
  · obtain ⟨d, g, hboard⟩ := gesture_frame (w := w.recorded) b ⟨s, []⟩ hop
    have hd : d = { b.document with items := d.items } := by
      rw [hboard] at hdocument
      rcases hdocument with rfl | ⟨id, p, -, rfl⟩ <;> rfl
    exact ⟨d.items, g, hboard.trans (by rw [← hd])⟩
  · change List.Forall₂ _ _ (step w.recorded op b ⟨s, []⟩).board.document.items
    rcases hdocument with hd | ⟨id, p, hdrags, hd⟩
    · rw [hd]
      exact List.forall₂_same.mpr fun i _ => ⟨rfl, fun hne => absurd rfl hne⟩
    · rw [hd]
      refine (Document.forall₂_setPosition b.document id p).imp fun i j hij => ?_
      exact ⟨hij.1, fun hne => hij.2 hne ▸ hdrags⟩

/-- A drag of the second item starts while the first is dragged; the library knows both. -/
theorem gesture_moves_dragged_on_restart :
    let ops : List Op :=
      [.initCanvas sheet "#canvas", .append "Step" ⟨10, 20⟩, .append "Note" ⟨30, 40⟩,
        .enable sheet ".canvas-item", .start (.item ⟨"canvasItem0"⟩) ⟨15, 25⟩, .move ⟨50, 60⟩]
    let o := run (Fallible.surroundings fun _ => none) ops standard .start
    let t := turn (Fallible.surroundings fun _ => none) (.start (.item ⟨"canvasItem1"⟩) ⟨31, 42⟩)
      o.board o.outside
    t.board.surface = o.board.surface ∧
      t.board.document.created = o.board.document.created ∧
      List.Forall₂ (fun i j => i.id ≠ ⟨"canvasItem0"⟩ → j = i) o.board.document.items
        t.board.document.items ∧
      t.outside.memory.draggables = o.outside.memory.draggables := by
  intro ops o t
  have hop : Op.isGesture (.start (.item ⟨"canvasItem1"⟩) ⟨31, 42⟩) = true := rfl
  obtain ⟨⟨items, gesture, hboard⟩, hitems, hlibrary⟩ :=
    gesture_moves_dragged (Fallible.fronts fun _ => none) o.board o.outside hop
  have hdrag : o.board.gesture = .item ⟨"canvasItem0"⟩ ⟨5, 5⟩ ⟨10, 20⟩ := rfl
  have hframe : t.board = { o.board with
    document := { o.board.document with items := items }, gesture := gesture } := hboard
  refine ⟨by rw [hframe], by rw [hframe], hitems.imp fun i j hij hid => ?_, hlibrary.draggables⟩
  by_contra hne
  obtain ⟨grab, start, hg⟩ := hij.2 hne
  obtain ⟨he, -, -⟩ := Gesture.item.inj (hdrag.symm.trans hg)
  exact hid he.symm

end Board

end DiagramEditor
