import DiagramEditor.Proofs.Board.Gestures
import DiagramEditor.Proofs.Wiring.Fallible

/-! The helper on the page, a clone of the template that is dragged: it is shown exactly while a
template is dragged, however starts, moves and stops follow each other. -/
namespace DiagramEditor

open Wiring (Fallible)

def Gesture.showsHelper : Gesture → Bool
  | .template _ _ => true
  | _ => false

theorem Gesture.showsHelper_iff {g : Gesture} :
    g.showsHelper = true ↔ ∃ kind last, g = .template kind last := by
  cases g <;> simp [Gesture.showsHelper]

namespace Action

/-- Whether the helper is shown after an action, if the page may be asked for it. -/
def drive : Bool → Action → Option Bool
  | false, .showHelper _ _ => some true
  | true, .moveHelper _ => some true
  | true, .removeHelper => some false
  | shown, .itemPositioned _ _ => some shown
  | _, _ => none

theorem remove_before_show {ys zs : List Action} {kind : String} {p : Point} {shown : Bool}
    (h : (ys ++ .showHelper kind p :: zs).foldlM drive true = some shown) :
    removeHelper ∈ ys := by
  induction ys with
  | nil => simp [drive] at h
  | cons a rest ih =>
    rw [List.cons_append, List.foldlM_cons] at h
    cases a with
    | removeHelper => exact List.mem_cons_self
    | showHelper kind p => simp [drive] at h
    | moveHelper p => exact List.mem_cons_of_mem _ (ih h)
    | itemPositioned id p => exact List.mem_cons_of_mem _ (ih h)

theorem remove_between {xs ys zs : List Action} {kind kind' : String} {p p' : Point}
    {before after : Bool}
    (h : (xs ++ .showHelper kind p :: (ys ++ .showHelper kind' p' :: zs)).foldlM drive before =
      some after) : removeHelper ∈ ys := by
  rw [List.foldlM_append] at h
  obtain ⟨shown, -, h⟩ := Option.bind_eq_some_iff.mp h
  rw [List.foldlM_cons] at h
  obtain ⟨now, hnow, h⟩ := Option.bind_eq_some_iff.mp h
  cases shown with
  | true => simp [drive] at hnow
  | false =>
    obtain rfl : true = now := Option.some.inj hnow
    exact remove_before_show h

end Action

namespace Board

def Turn.actions (t : Turn) : List Action := t.reply.toActions

section Helper
variable {σ : Type} (w : Surroundings σ) (b : Board) (s : σ)

theorem abandon_drives :
    (abandon w b s).reply.foldlM Action.drive b.gesture.showsHelper = some false := by
  rcases abandon_cases w b s with
    ⟨hg | hg, hr, -⟩ | ⟨kind, last, hg, hr, -⟩ | ⟨id, grab, p, hg, hr, -⟩
  · rw [hg, hr]
    rfl
  · rw [hg, hr]
    rfl
  · rw [hg, hr]
    rfl
  · rw [hg, hr]
    rfl

theorem startFresh_drives (source : DragSource) (page : Point) :
    let o := startFresh w source page b s
    o.reply.foldlM Action.drive false = some o.board.gesture.showsHelper := by
  intro o
  rcases startFresh_cases w b s source page with
    ⟨kind, t, -, -, hr, hb⟩ | ⟨id, v, i, -, -, -, -, hr, hb⟩ | ⟨hr, hb⟩
  · rw [hr, hb]
    rfl
  · rw [hr, hb]
    rfl
  · rw [hr, hb]
    rfl

theorem startDrag_drives (source : DragSource) (page : Point) :
    let o := startDrag w source page b s
    o.reply.foldlM Action.drive b.gesture.showsHelper = some o.board.gesture.showsHelper := by
  intro o
  have ha := abandon_drives w b s
  have hf := startFresh_drives w (abandon w b s).board (abandon w b s).outside source page
  simp only [o, startDrag, List.foldlM_append, ha]
  exact hf

theorem moveDrag_drives (page : Point) :
    let o := moveDrag w page b s
    o.reply.foldlM Action.drive b.gesture.showsHelper = some o.board.gesture.showsHelper := by
  intro o
  rcases moveDrag_cases w b s page with
    ⟨hg, hr, hb⟩ | ⟨kind, last, hg, hr, hb⟩ | ⟨id, grab, start, p, hg, -, hr, hb⟩ |
      ⟨id, grab, start, hg, -, hr, hb⟩
  · rw [hr, hb]
    rfl
  · rw [hr, hb, hg]
    rfl
  · rw [hr, hb, hg]
    rfl
  · rw [hr, hb, hg]
    rfl

theorem stopDrag_drives (page : Point) :
    let o := stopDrag w page b s
    o.reply.foldlM Action.drive b.gesture.showsHelper = some o.board.gesture.showsHelper := by
  intro o
  rcases stopDrag_cases w b s page with
    ⟨hg | hg, hr, hb⟩ | ⟨kind, last, hg, hr, hb⟩ | ⟨id, grab, start, p, hg, -, hr, hb⟩ |
      ⟨id, grab, start, hg, -, hr, hb⟩
  · rw [hr, hb, hg]
    rfl
  · rw [hr, hb, hg]
    rfl
  · rw [hr, hb, hg]
    rfl
  · rw [hr, hb, hg]
    rfl
  · rw [hr, hb, hg]
    rfl

theorem turn_drives (op : Op) :
    (turn w op b s).reply.actions.foldlM Action.drive b.gesture.showsHelper =
      some (turn w op b s).board.gesture.showsHelper := by
  cases op with
  | start source page => exact startDrag_drives w.recorded b ⟨s, []⟩ source page
  | move page => exact moveDrag_drives w.recorded b ⟨s, []⟩ page
  | stop page => exact stopDrag_drives w.recorded b ⟨s, []⟩ page
  | _ =>
    rw [Turn.actions, turn, step_toActions w.recorded b ⟨s, []⟩ rfl]
    exact congrArg (fun g => some (Gesture.showsHelper g))
      ((step_keeps w.recorded b ⟨s, []⟩ _).gesture rfl).symm

theorem run_drives (ops : List Op) (hb : b.gesture = .idle) :
    ((run w ops b s).reply.flatMap Turn.actions).foldlM Action.drive false =
      some (run w ops b s).board.gesture.showsHelper := by
  refine run_induction (P := fun _ o => (o.reply.flatMap Turn.actions).foldlM Action.drive false =
    some o.board.gesture.showsHelper) ?_ ?_ ops
  · rw [hb]
    rfl
  · intro ops op ih
    simp only [extend, List.flatMap_append, List.flatMap_singleton, List.foldlM_append, ih]
    exact turn_drives w _ _ op

end Helper

/-- The helper is shown and removed in turn, and is shown exactly while a template is dragged. -/
theorem helper_alternates {σ : Type} {settings : Settings} {b : Board}
    (hb : Board.new settings = .ok b) (w : Surroundings σ) (s : σ) (ops : List Op) :
    let o := run w ops b s
    let actions := o.reply.flatMap Turn.actions
    (∃ shown, actions.foldlM Action.drive false = some shown ∧
      (shown = true ↔ ∃ kind last, o.board.gesture = .template kind last)) ∧
    (∀ xs kind p ys kind' p' zs,
      actions = xs ++ .showHelper kind p :: (ys ++ .showHelper kind' p' :: zs) →
        .removeHelper ∈ ys) ∧
    (o.board.isDragging = true ↔
      Since (fun op => op.isStart = true) (fun op => op.isStop = true) ops) := by
  intro o actions
  obtain ⟨-, -, -, hidle, -⟩ := new_ok hb
  have hdrive : actions.foldlM Action.drive false = some o.board.gesture.showsHelper :=
    run_drives w b s ops hidle
  refine ⟨⟨_, hdrive, Gesture.showsHelper_iff⟩, ?_, run_isDragging w s ops hidle⟩
  intro xs kind p ys kind' p' zs hactions
  rw [hactions] at hdrive
  exact Action.remove_between hdrive

/-- A drag of a template that starts before the last one stopped shows the helper anew. -/
theorem helper_alternates_on_restart :
    let ops : List Op :=
      [.initPalette shelf "#palette" "#canvas", .start (.template "Step") ⟨1, 2⟩,
        .start (.template "Step") ⟨3, 4⟩, .move ⟨5, 6⟩]
    let o := run (Fallible.surroundings fun _ => none) ops standard .start
    o.reply.flatMap Turn.actions =
        [.showHelper "Step" ⟨1, 2⟩, .removeHelper, .showHelper "Step" ⟨3, 4⟩,
          .moveHelper ⟨5, 6⟩] ∧
      (o.reply.flatMap Turn.actions).foldlM Action.drive false = some true ∧
      Since (fun op => op.isStart = true) (fun op => op.isStop = true) ops := by
  intro ops o
  obtain ⟨⟨shown, hdrive, hshown⟩, -, hdragging⟩ :=
    helper_alternates new_standard (Fallible.surroundings fun _ => none) .start ops
  obtain rfl : shown = true := hshown.mpr ⟨"Step", ⟨5, 6⟩, rfl⟩
  exact ⟨rfl, hdrive, hdragging.mp rfl⟩

end Board

end DiagramEditor
