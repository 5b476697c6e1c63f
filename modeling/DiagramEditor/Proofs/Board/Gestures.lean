import DiagramEditor.Proofs.Board.Orderly
import DiagramEditor.Proofs.Document.Order

/-! Gestures along a run: what each of their operations makes of a board, and what a gesture in
progress says about the operations before it. -/
namespace DiagramEditor

def Gesture.source? : Gesture → Option DragSource
  | .template kind _ => some (.template kind)
  | .item id _ _ => some (.item id)
  | _ => none

namespace Board

namespace Op

def isStart : Op → Bool
  | .start _ _ => true
  | _ => false

def isStop : Op → Bool
  | .stop _ => true
  | _ => false

end Op

def Reply.toActions : Reply → List Action
  | .actions as => as
  | _ => []

theorem Reply.toActions_ofExcept {α : Type} {ok : α → Reply} (h : ∀ a, (ok a).toActions = [])
    (e : Except Fault α) : (Reply.ofExcept ok e).toActions = [] := by
  cases e with
  | error f => rfl
  | ok a => exact h a

section Cases
variable {σ : Type} (w : Surroundings σ) (b : Board) (s : σ)

theorem abandon_cases :
    let o := abandon w b s
    ((b.gesture = .idle ∨ b.gesture = .ignored) ∧ o.reply = [] ∧
      o.board = { b with gesture := .idle }) ∨
    (∃ kind last, b.gesture = .template kind last ∧ o.reply = [.removeHelper] ∧
      o.board = { b with gesture := .idle }) ∨
    ∃ id grab p, b.gesture = .item id grab p ∧ o.reply = [.itemPositioned id p] ∧
      o.board = { b with gesture := .idle, document := b.document.setPosition id p } := by
  intro o
  cases hg : b.gesture with
  | idle => exact Or.inl (by simp [o, abandon, hg])
  | ignored => exact Or.inl (by simp [o, abandon, hg])
  | template kind last => exact Or.inr (Or.inl ⟨kind, last, rfl, by simp [o, abandon, hg]⟩)
  | item id grab p => exact Or.inr (Or.inr ⟨id, grab, p, rfl, by simp [o, abandon, hg]⟩)

theorem startFresh_cases (source : DragSource) (page : Point) :
    let o := startFresh w source page b s
    (∃ kind t, source = .template kind ∧ b.template? kind = some t ∧
      o.reply = [.showHelper kind page] ∧ o.board = { b with gesture := .template kind page }) ∨
    (∃ id v i, source = .item id ∧ b.surface = some v ∧ b.document.find? id = some i ∧
      i.draggable = true ∧ o.reply = [] ∧ o.board =
        { b with gesture := .item id ((v.bounds.toLocal page).sub i.position) i.position }) ∨
    (o.reply = [] ∧ o.board = { b with gesture := .ignored }) := by
  intro o
  cases source with
  | foreign => exact Or.inr (Or.inr ⟨rfl, rfl⟩)
  | template kind =>
    cases ht : b.template? kind with
    | none => exact Or.inr (Or.inr (by simp [o, startFresh, startTemplate, ht, ignoring]))
    | some t => exact Or.inl ⟨kind, t, rfl, ht, by simp [o, startFresh, startTemplate, ht]⟩
  | item id =>
    cases hv : b.surface with
    | none => exact Or.inr (Or.inr (by simp [o, startFresh, startItem, hv, ignoring]))
    | some v =>
      cases hi : b.document.find? id with
      | none => exact Or.inr (Or.inr (by simp [o, startFresh, startItem, hv, hi, ignoring]))
      | some i =>
        by_cases hd : i.draggable = true
        · exact Or.inr (Or.inl ⟨id, v, i, rfl, rfl, hi, hd,
            by simp [o, startFresh, startItem, hv, hi, hd]⟩)
        · exact Or.inr (Or.inr (by simp [o, startFresh, startItem, hv, hi, hd, ignoring]))

theorem startFresh_document (source : DragSource) (page : Point) :
    (startFresh w source page b s).board.document = b.document := by
  rcases startFresh_cases w b s source page with
    ⟨kind, t, -, -, -, hb⟩ | ⟨id, v, i, -, -, -, -, -, hb⟩ | ⟨-, hb⟩
  · rw [hb]
  · rw [hb]
  · rw [hb]

theorem moveDrag_cases (page : Point) :
    let o := moveDrag w page b s
    ((b.gesture = .idle ∨ b.gesture = .ignored) ∧ o.reply = [] ∧ o.board = b) ∨
    (∃ kind last, b.gesture = .template kind last ∧ o.reply = [.moveHelper page] ∧
      o.board = { b with gesture := .template kind page }) ∨
    (∃ id grab start p, b.gesture = .item id grab start ∧
      b.containedPosition? id page grab = some p ∧ o.reply = [.itemPositioned id p] ∧
      o.board = { b with document := b.document.setPosition id p }) ∨
    ∃ id grab start, b.gesture = .item id grab start ∧
      b.containedPosition? id page grab = none ∧ o.reply = [] ∧
      o.board = { b with gesture := .ignored } := by
  intro o
  cases hg : b.gesture with
  | idle => exact Or.inl (by simp [o, moveDrag, hg])
  | ignored => exact Or.inl (by simp [o, moveDrag, hg])
  | template kind last => exact Or.inr (Or.inl ⟨kind, last, rfl, by simp [o, moveDrag, hg]⟩)
  | item id grab start =>
    cases hp : b.containedPosition? id page grab with
    | none =>
      exact Or.inr (Or.inr (Or.inr ⟨id, grab, start, rfl, hp,
        by simp [o, moveDrag, hg, hp, ignoring]⟩))
    | some p =>
      exact Or.inr (Or.inr (Or.inl ⟨id, grab, start, p, rfl, hp, by simp [o, moveDrag, hg, hp]⟩))

theorem stopDrag_cases (page : Point) :
    let o := stopDrag w page b s
    ((b.gesture = .idle ∨ b.gesture = .ignored) ∧ o.reply = [] ∧
      o.board = { b with gesture := .idle }) ∨
    (∃ kind last, b.gesture = .template kind last ∧ o.reply = [.removeHelper] ∧
      o.board = { b with gesture := .idle }) ∨
    (∃ id grab start p, b.gesture = .item id grab start ∧
      b.containedPosition? id page grab = some p ∧ o.reply = [.itemPositioned id p] ∧
      o.board = { b with gesture := .idle, document := b.document.setPosition id p }) ∨
    ∃ id grab start, b.gesture = .item id grab start ∧
      b.containedPosition? id page grab = none ∧ o.reply = [] ∧
      o.board = { b with gesture := .idle } := by
  intro o
  cases hg : b.gesture with
  | idle => exact Or.inl (by simp [o, stopDrag, hg])
  | ignored => exact Or.inl (by simp [o, stopDrag, hg])
  | template kind last =>
    exact Or.inr (Or.inl ⟨kind, last, rfl, by simp [o, stopDrag, stopTemplate, hg]⟩)
  | item id grab start =>
    have hidle : containedPosition? { b with gesture := .idle } id page grab =
      b.containedPosition? id page grab := rfl
    cases hp : b.containedPosition? id page grab with
    | none =>
      exact Or.inr (Or.inr (Or.inr ⟨id, grab, start, rfl, hp,
        by simp [o, stopDrag, stopItem, hg, hidle, hp]⟩))
    | some p =>
      have hn := Document.indexOf?_eq (Document.mem_ids.mpr (containedPosition?_some hp))
      exact Or.inr (Or.inr (Or.inl ⟨id, grab, start, p, rfl, hp,
        by simp [o, stopDrag, stopItem, hg, hidle, hp, hn]⟩))

theorem step_toActions {op : Op} (h : op.isGesture = false) :
    (step w op b s).reply.toActions = [] := by
  cases op with
  | start source page => cases h
  | move page => cases h
  | stop page => cases h
  | append kind p => rfl
  | onPlacement who => rfl
  | onMove who => rfl
  | offPlacement n => rfl
  | offMove n => rfl
  | setHooks tag => rfl
  | _ => exact Reply.toActions_ofExcept (fun _ => rfl) _

end Cases

/-- What a drag from this source needs is in place. -/
def Serves (b : Board) : DragSource → Prop
  | .template _ => b.palette.isSome = true
  | .item _ => b.surface.isSome = true
  | .foreign => True

section Start
variable {σ : Type} (w : Surroundings σ) (b : Board) (s : σ)

theorem startDrag_source (source : DragSource) (page : Point) :
    let o := startDrag w source page b s
    o.board.gesture.isActive = true ∧
      ∀ other, o.board.gesture.source? = some other → other = source ∧ o.board.Serves other := by
  intro o
  rcases startFresh_cases w (abandon w b s).board (abandon w b s).outside source page with
    ⟨kind, t, rfl, ht, -, hb⟩ | ⟨id, v, i, rfl, hv, -, -, -, hb⟩ | ⟨-, hb⟩
  · obtain ⟨q, hq, -⟩ := Option.bind_eq_some_iff.mp ht
    simp [o, startDrag, hb, Gesture.isActive, Gesture.source?, Serves, hq]
  · simp [o, startDrag, hb, Gesture.isActive, Gesture.source?, Serves, hv]
  · simp [o, startDrag, hb, Gesture.isActive, Gesture.source?]

theorem moveDrag_source (page : Point) :
    let g := (moveDrag w page b s).board.gesture
    g.isActive = b.gesture.isActive ∧ ∀ source, g.source? = some source →
      b.gesture.source? = some source := by
  intro g
  rcases moveDrag_cases w b s page with
    ⟨-, -, hb⟩ | ⟨kind, last, hg, -, hb⟩ | ⟨id, grab, start, p, hg, -, -, hb⟩ |
      ⟨id, grab, start, hg, -, -, hb⟩
  · simp [g, hb]
  · simp [g, hb, hg, Gesture.isActive, Gesture.source?]
  · simp [g, hb]
  · simp [g, hb, hg, Gesture.isActive, Gesture.source?]

theorem stopDrag_idle (page : Point) : (stopDrag w page b s).board.gesture = .idle := by
  rcases stopDrag_cases w b s page with
    ⟨-, -, hb⟩ | ⟨kind, last, -, -, hb⟩ | ⟨id, grab, start, p, -, -, -, hb⟩ |
      ⟨id, grab, start, -, -, -, hb⟩
  · rw [hb]
  · rw [hb]
  · rw [hb]
  · rw [hb]

theorem step_isDragging (op : Op) : (step w op b s).board.isDragging = true ↔
    op.isStart = true ∨ (b.isDragging = true ∧ ¬ op.isStop = true) := by
  cases op with
  | start source page =>
    have hactive := (startDrag_source w b s source page).1
    simp [Op.isStart, isDragging, step, answer, hactive]
  | move page =>
    have hactive := (moveDrag_source w b s page).1
    simp [Op.isStart, Op.isStop, isDragging, step, answer, hactive]
  | stop page =>
    have hidle := stopDrag_idle w b s page
    simp [Op.isStart, Op.isStop, isDragging, step, answer, hidle, Gesture.isActive]
  | _ =>
    rw [isDragging, (step_keeps w b s _).gesture rfl]
    simp [Op.isStart, Op.isStop, isDragging]

theorem step_source {op : Op} {source : DragSource}
    (h : (step w op b s).board.gesture.source? = some source) :
    (∃ page, op = .start source page) ∨
      (b.gesture.source? = some source ∧ ¬ (op.isStart = true ∨ op.isStop = true)) := by
  cases op with
  | start other page =>
    obtain ⟨rfl, -⟩ := (startDrag_source w b s other page).2 source h
    exact Or.inl ⟨page, rfl⟩
  | move page =>
    exact Or.inr ⟨(moveDrag_source w b s page).2 source h, by simp [Op.isStart, Op.isStop]⟩
  | stop page =>
    have hidle : (step w (.stop page) b s).board.gesture = .idle := stopDrag_idle w b s page
    rw [hidle] at h
    cases h
  | _ =>
    rw [(step_keeps w b s _).gesture rfl] at h
    exact Or.inr ⟨h, by simp [Op.isStart, Op.isStop]⟩

theorem step_serves {b : Board} {source : DragSource} (h : b.Serves source) (s : σ) (op : Op) :
    (step w op b s).board.Serves source := by
  cases source with
  | template kind => exact (step_keeps w b s op).palette h
  | item id => exact (step_keeps w b s op).canvas h
  | foreign => trivial

end Start

section Run
variable {σ : Type} (w : Surroundings σ) {b : Board} (s : σ) (ops : List Op)

theorem run_isDragging (hb : b.gesture = .idle) : (run w ops b s).board.isDragging = true ↔
    Since (fun op => op.isStart = true) (fun op => op.isStop = true) ops := by
  refine run_induction (P := fun ops o => o.board.isDragging = true ↔
    Since (fun op => op.isStart = true) (fun op => op.isStop = true) ops) ?_ ?_ ops
  · have hidle : b.isDragging = false := by rw [isDragging, hb]; rfl
    simp [hidle, not_since_nil]
  · intro ops op ih
    rw [since_concat, ← ih]
    exact step_isDragging w.recorded _ _ op

theorem run_source (hb : b.gesture = .idle) {source : DragSource}
    (h : (run w ops b s).board.gesture.source? = some source) :
    (run w ops b s).board.Serves source ∧ Since (fun op => ∃ page, op = .start source page)
      (fun op => op.isStart = true ∨ op.isStop = true) ops := by
  refine run_induction (P := fun ops o => o.board.gesture.source? = some source →
    o.board.Serves source ∧ Since (fun op => ∃ page, op = .start source page)
      (fun op => op.isStart = true ∨ op.isStop = true) ops) ?_ ?_ ops h
  · intro h
    rw [hb] at h
    cases h
  · intro ops op ih h
    rw [since_concat]
    -- the last operation started the drag, or it left both the source and what that needs
    rcases step_source w.recorded _ _ h with ⟨page, rfl⟩ | ⟨hg, hne⟩
    · exact ⟨((startDrag_source w.recorded _ _ source page).2 source h).2, Or.inl ⟨page, rfl⟩⟩
    · obtain ⟨hserves, hsince⟩ := ih hg
      exact ⟨step_serves w.recorded hserves _ op, Or.inr ⟨hsince, hne⟩⟩

theorem run_template (hb : b.gesture = .idle) {kind : String} {last : Point}
    (hg : (run w ops b s).board.gesture = .template kind last) :
    (run w ops b s).board.palette.isSome = true ∧
      Since (fun op => ∃ page, op = .start (.template kind) page)
        (fun op => op.isStart = true ∨ op.isStop = true) ops := by
  have hsource : (run w ops b s).board.gesture.source? = some (.template kind) := by
    rw [hg]
    rfl
  exact run_source w s ops hb hsource

theorem run_item (hb : b.gesture = .idle) {id : ItemId} {grab start : Point}
    (hg : (run w ops b s).board.gesture = .item id grab start) :
    ∃ v, (run w ops b s).board.surface = some v := by
  have hsource : (run w ops b s).board.gesture.source? = some (.item id) := by
    rw [hg]
    rfl
  exact Option.isSome_iff_exists.mp (run_source w s ops hb hsource).1

end Run

def shelf : Page := fun selector =>
  if selector = "#canvas" then .ok [{ tag := "div", id := some "canvas", rect := ⟨0, 0, 800, 600⟩ }]
  else .ok [{ tag := "li", id := some "Step" }]

end Board

end DiagramEditor
