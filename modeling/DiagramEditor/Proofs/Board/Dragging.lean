import DiagramEditor.Proofs.Board.Bulletins
import DiagramEditor.Proofs.Geometry.Containment
import DiagramEditor.Proofs.Wiring.Fallible

/-! Dragging an item: where the pointer puts it, in the reply, in the document, in the library and
in the event alike. -/
namespace DiagramEditor

open Wiring (Fallible)
open Signal (bulletins calls)

namespace Board

/-- In this turn the page, the library and the document are given one position for an item. -/
structure Turn.Positions (t : Turn) (id : ItemId) (p : Point) : Prop where
  reply : t.reply = .actions [.itemPositioned id p]
  calls : t.calls = [.moveItem id p]
  stored : ∃ i, t.after.document.find? id = some i ∧ i.position = p

theorem containedPosition?_eq {b : Board} {id : ItemId} {v : Surface} {i : Item}
    (hv : b.surface = some v) (hi : b.document.find? id = some i) (page grab : Point) :
    b.containedPosition? id page grab =
      some (contain ((v.bounds.toLocal page).sub grab) i.size v.bounds.size) := by
  rw [containedPosition?, hv, hi]

section Item
variable {σ : Type} (w : Surroundings σ) {b : Board} (s : σ) {id : ItemId}
  {grab start page p : Point}

theorem stored_setPosition (hp : b.containedPosition? id page grab = some p) :
    ∃ i, (b.document.setPosition id p).find? id = some i ∧ i.position = p := by
  obtain ⟨i, hi⟩ := containedPosition?_some hp
  exact ⟨i.moved p, Document.find?_setPosition hi p, rfl⟩

theorem move_positions (hg : b.gesture = .item id grab start)
    (hp : b.containedPosition? id page grab = some p) :
    (turn w (.move page) b s).reply.Positions id p := by
  obtain ⟨gs, hgs, -, hcalls⟩ := place_signals w b ⟨s, []⟩ id p
  have ho : moveDrag w.recorded page b ⟨s, []⟩ =
      ⟨[.itemPositioned id p], (place w.recorded id p b ⟨s, []⟩).1,
        (place w.recorded id p b ⟨s, []⟩).2⟩ := by
    simp only [moveDrag, hg, hp]
  constructor
  · simp only [turn, step, answer, ho]
  · simp only [Turn.calls, turn, step, answer, ho, hgs]
    exact hcalls
  · simp only [turn, step, answer, ho, place_board]
    exact stored_setPosition hp

theorem stop_positions (hg : b.gesture = .item id grab start)
    (hp : b.containedPosition? id page grab = some p) :
    let t := (turn w (.stop page) b s).reply
    t.Positions id p ∧
      t.bulletins = Move.bulletin b.moves ⟨b.document.ids.idxOf id, id, p⟩ := by
  intro t
  -- a stop clears the gesture first, and where the item lands does not depend on that
  have hidle : containedPosition? { b with gesture := .idle } id page grab = some p := hp
  have hindex := Document.indexOf?_eq (Document.mem_ids.mpr (containedPosition?_some hp))
  obtain ⟨gs, hgs, hpublic, hcalls⟩ :=
    stopItem_signals w { b with gesture := .idle } ⟨s, []⟩ start hidle
  have ho : stopDrag w.recorded page b ⟨s, []⟩ =
      stopItem w.recorded id grab start page { b with gesture := .idle } ⟨s, []⟩ := by
    simp only [stopDrag, hg]
  have hsignals : t.signals = gs := by
    simp only [t, turn, step, answer, ho, hgs, List.nil_append]
  refine ⟨⟨?_, ?_, ?_⟩, ?_⟩
  · simp only [t, turn, step, answer, ho, stopItem, hidle, hindex]
  · rw [Turn.calls, hsignals, hcalls]
  · simp only [t, turn, step, answer, ho, stopItem, hidle, hindex, place_board]
    exact stored_setPosition hp
  · rw [Turn.bulletins, hsignals, hpublic]

theorem move_board (hg : b.gesture = .item id grab start)
    (hp : b.containedPosition? id page grab = some p) :
    (turn w (.move page) b s).board = { b with document := b.document.setPosition id p } := by
  simp only [turn, step, answer, moveDrag, hg, hp, place_board]

theorem stop_board (hg : b.gesture = .item id grab start)
    (hp : b.containedPosition? id page grab = some p) :
    (turn w (.stop page) b s).board =
      { b with document := b.document.setPosition id p, gesture := .idle } := by
  have hidle : containedPosition? { b with gesture := .idle } id page grab = some p := hp
  have hindex := Document.indexOf?_eq (Document.mem_ids.mpr (containedPosition?_some hp))
  simp only [turn, step, answer, stopDrag, hg, stopItem, hidle, hindex, place_board]

end Item

/-- A dragged item stays inside the canvas as it is now, in its present size, wherever the pointer
goes, and all that are told about it are told the same. -/
theorem drag_contained {σ : Type} {settings : Settings} {b : Board}
    (hb : Board.new settings = .ok b) (w : Surroundings σ) (s : σ) (ops : List Op) {id : ItemId}
    {grab start : Point} {i : Item} :
    let o := run w ops b s
    o.board.gesture = .item id grab start → o.board.document.find? id = some i →
      ∀ page : Point, ∃ v p, o.board.surface = some v ∧
        Fits (page.x - v.bounds.x - grab.x) v.bounds.width i.width p.x ∧
        Fits (page.y - v.bounds.y - grab.y) v.bounds.height i.height p.y ∧
        (turn w (.move page) o.board o.outside).reply.Positions id p ∧
        (turn w (.stop page) o.board o.outside).reply.Positions id p ∧
        ∃ index, (turn w (.stop page) o.board o.outside).reply.bulletins =
          Move.bulletin o.board.moves ⟨index, id, p⟩ := by
  intro o hg hi page
  obtain ⟨v, hv⟩ := run_item w s ops (new_ok hb).2.2.2.1 hg
  have hp := containedPosition?_eq hv hi page grab
  obtain ⟨hx, hy⟩ := contain_fits ((v.bounds.toLocal page).sub grab) i.size v.bounds.size
  obtain ⟨hstop, hmoved⟩ := stop_positions w o.outside hg hp
  exact ⟨v, _, hv, hx, hy, move_positions w o.outside hg hp, hstop, _, hmoved⟩

/-- The canvas shrinks while its item is dragged beyond the right edge and above the top. -/
theorem drag_contained_on_resize :
    let ops : List Op :=
      [.initCanvas sheet "#canvas", .append "Step" ⟨10, 20⟩, .enable sheet ".canvas-item",
        .start (.item ⟨"canvasItem0"⟩) ⟨10, 20⟩, .setBounds ⟨0, 0, 200, 100⟩]
    let o := run (Fallible.surroundings fun _ => none) ops standard .start
    (turn (Fallible.surroundings fun _ => none) (.move ⟨300, -40⟩) o.board
      o.outside).reply.Positions ⟨"canvasItem0"⟩ ⟨80, 0⟩ := by
  intro ops o
  have hdrag : o.board.gesture = .item ⟨"canvasItem0"⟩ ⟨0, 0⟩ ⟨10, 20⟩ := rfl
  obtain ⟨v, p, -, -, -, hmove, -⟩ :=
    drag_contained new_standard (Fallible.surroundings fun _ => none) .start ops hdrag rfl
      ⟨300, -40⟩
  have hreply : Reply.actions [.itemPositioned ⟨"canvasItem0"⟩ ⟨80, 0⟩] =
      .actions [.itemPositioned ⟨"canvasItem0"⟩ p] := hmove.reply
  obtain ⟨-, rfl⟩ := Action.itemPositioned.inj (List.cons.inj (Reply.actions.inj hreply)).1
  exact hmove

end Board

end DiagramEditor
