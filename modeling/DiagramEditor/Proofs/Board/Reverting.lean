import DiagramEditor.Proofs.Board.Independence

/-! Drags that are given up. A start puts back the item of the drag before it, so however many drags
follow each other without an end, what remains of all but the last is nothing. -/
namespace DiagramEditor

open Wiring (Fallible)

namespace Board

/-- The document once the drag in progress is given up. -/
def restored (b : Board) : Document :=
  match b.gesture with
  | .item id _ start => b.document.setPosition id start
  | _ => b.document

/-- The pointer takes hold of an item at this point of it while the item lies at `start`. -/
structure Turn.Grabs (t : Turn) (id : ItemId) (grab start : Point) : Prop where
  op : ∃ page v, t.op = .start (.item id) page ∧ t.after.surface = some v ∧
    grab = (v.bounds.toLocal page).sub start
  item : ∃ i, t.after.document.find? id = some i ∧ i.position = start

section Step
variable {σ : Type} (w : Surroundings σ) (b : Board) (s : σ)

theorem abandon_document : (abandon w b s).board.document = b.restored := by
  cases hg : b.gesture with
  | item id grab start => simp only [abandon, restored, hg, place_board]
  | _ => simp only [abandon, restored, hg]

theorem startDrag_document (source : DragSource) (page : Point) :
    (startDrag w source page b s).board.document = b.restored :=
  (startFresh_document w _ _ source page).trans (abandon_document w b s)

theorem startFresh_restored (source : DragSource) (page : Point) :
    (startFresh w source page b s).board.restored = b.document := by
  rcases startFresh_cases w b s source page with
    ⟨kind, t, -, -, -, hb⟩ | ⟨id, v, i, -, -, hi, -, -, hb⟩ | ⟨-, hb⟩
  · rw [hb]
    rfl
  · rw [hb]
    refine Document.setPosition_eq_self fun j hj => ?_
    rw [Option.some.inj (hi.symm.trans hj)]
  · rw [hb]
    rfl

theorem startDrag_restored (source : DragSource) (page : Point) :
    (startDrag w source page b s).board.restored = b.restored :=
  (startFresh_restored w _ _ source page).trans (abandon_document w b s)

theorem moveDrag_restored (hserves : ∀ source, b.gesture.source? = some source → b.Serves source)
    (page : Point) : (moveDrag w page b s).board.restored = b.restored := by
  rcases moveDrag_cases w b s page with
    ⟨-, -, hb⟩ | ⟨kind, last, hg, -, hb⟩ | ⟨id, grab, start, p, hg, -, -, hb⟩ |
      ⟨id, grab, start, hg, hp, -, hb⟩
  · rw [hb]
  · simp only [hb, restored, hg]
  · simp only [hb, restored, hg, Document.setPosition_setPosition]
  · -- a dragged item that cannot be moved is not there to be put back either
    have hcanvas : b.surface.isSome = true := hserves (.item id) (by rw [hg]; rfl)
    obtain ⟨v, hv⟩ := Option.isSome_iff_exists.mp hcanvas
    have hgone : ∀ i, b.document.find? id ≠ some i := by
      intro i hi
      cases (containedPosition?_eq hv hi page grab).symm.trans hp
    simp only [hb, restored, hg]
    exact (Document.setPosition_eq_self fun i hi => absurd hi (hgone i)).symm

theorem step_restored (hserves : ∀ source, b.gesture.source? = some source → b.Serves source)
    {op : Op} (h : op.isGesture = true) (hstop : op.isStop = false) :
    (step w op b s).board.restored = b.restored := by
  cases op with
  | start source page => exact startDrag_restored w b s source page
  | move page => exact moveDrag_restored w b s hserves page
  | stop page => cases hstop
  | _ => cases h

theorem start_reply {id : ItemId} {grab start : Point} (hg : b.gesture = .item id grab start)
    (source : DragSource) (page : Point) :
    ∃ rest, (turn w (.start source page) b s).reply.reply =
        .actions (.itemPositioned id start :: rest) ∧
      ∀ other p, Action.itemPositioned other p ∉ rest := by
  refine ⟨(startFresh w.recorded source page (abandon w.recorded b ⟨s, []⟩).board
    (abandon w.recorded b ⟨s, []⟩).outside).reply, ?_, ?_⟩
  · have hfirst : (abandon w.recorded b ⟨s, []⟩).reply = [.itemPositioned id start] := by
      simp only [abandon, hg]
    simp only [turn, step, answer, startDrag, hfirst, List.singleton_append]
  · intro other p
    rcases startFresh_cases w.recorded (abandon w.recorded b ⟨s, []⟩).board
        (abandon w.recorded b ⟨s, []⟩).outside source page with
      ⟨kind, t, -, -, hr, -⟩ | ⟨id, v, i, -, -, -, -, hr, -⟩ | ⟨hr, -⟩
    all_goals simp [hr]

theorem turn_grabbed {op : Op} {id : ItemId} {grab start : Point}
    (h : (turn w op b s).board.gesture = .item id grab start) :
    (turn w op b s).reply.Grabs id grab start ∨
      (b.gesture = .item id grab start ∧ ¬ (op.isStart = true ∨ op.isStop = true)) := by
  cases op with
  | start source page =>
    left
    rcases startFresh_cases w.recorded (abandon w.recorded b ⟨s, []⟩).board
        (abandon w.recorded b ⟨s, []⟩).outside source page with
      ⟨kind, t, -, -, -, hb⟩ | ⟨other, v, i, rfl, hv, hi, -, -, hb⟩ | ⟨-, hb⟩
    · simp only [turn, step, answer, startDrag, hb] at h
      cases h
    · simp only [turn, step, answer, startDrag, hb] at h ⊢
      obtain ⟨rfl, rfl, rfl⟩ := Gesture.item.inj h
      exact ⟨⟨page, v, rfl, hv, rfl⟩, i, hi, rfl⟩
    · simp only [turn, step, answer, startDrag, hb] at h
      cases h
  | move page =>
    refine Or.inr ⟨?_, by simp [Op.isStart, Op.isStop]⟩
    simp only [turn, step, answer] at h
    rcases moveDrag_cases w.recorded b ⟨s, []⟩ page with
      ⟨-, -, hb⟩ | ⟨kind, last, -, -, hb⟩ | ⟨other, grab', start', p, -, -, -, hb⟩ |
        ⟨other, grab', start', -, -, -, hb⟩
    · rw [hb] at h
      exact h
    · rw [hb] at h
      cases h
    · rw [hb] at h
      exact h
    · rw [hb] at h
      cases h
  | stop page =>
    cases (stopDrag_idle w.recorded b ⟨s, []⟩ page).symm.trans h
  | _ =>
    simp only [turn] at h
    rw [(step_keeps w.recorded b ⟨s, []⟩ _).gesture rfl] at h
    exact Or.inr ⟨h, by simp [Op.isStart, Op.isStop]⟩

end Step

section Run
variable {σ : Type} (w : Surroundings σ) {b : Board} (s : σ)

theorem run_restored (hb : b.gesture = .idle) (ops : List Op) {more : List Op}
    (hmore : ∀ op ∈ more, op.isGesture = true ∧ op.isStop = false) :
    (run w (ops ++ more) b s).board.restored = (run w ops b s).board.restored := by
  induction more using List.reverseRecOn with
  | nil => rw [List.append_nil]
  | append_singleton more op ih =>
    obtain ⟨hop, hstop⟩ := hmore op (List.mem_append_right _ (List.mem_singleton_self op))
    rw [← ih fun op hop => hmore op (List.mem_append_left _ hop), ← List.append_assoc, run_concat]
    refine step_restored w.recorded _ _ (fun source hsource => ?_) hop hstop
    exact (run_source w s (ops ++ more) hb hsource).1

theorem run_grabbed (hb : b.gesture = .idle) (ops : List Op) {id : ItemId} {grab start : Point}
    (hg : (run w ops b s).board.gesture = .item id grab start) :
    Since (fun t => t.Grabs id grab start) (fun t => t.op.isStart = true ∨ t.op.isStop = true)
      (run w ops b s).reply := by
  refine run_induction (P := fun _ o => o.board.gesture = .item id grab start →
    Since (fun t => t.Grabs id grab start) (fun t => t.op.isStart = true ∨ t.op.isStop = true)
      o.reply) ?_ ?_ ops hg
  · intro hg
    cases hb.symm.trans hg
  · intro ops op ih hg
    refine since_concat.mpr ?_
    rcases turn_grabbed w _ _ hg with hgrabs | ⟨hg, hop⟩
    · exact Or.inl hgrabs
    · exact Or.inr ⟨ih hg, hop⟩

end Run

/-- However many drags follow each other without an end, every start leaves the document as the
first one left it, nothing is published, and a drag that is given up puts its item back to where it
lay when it was grabbed, in the reply and in the library. -/
theorem abandoned_drags_undone {σ : Type} {settings : Settings} {b : Board}
    (hb : Board.new settings = .ok b) (w : Surroundings σ) (s : σ) (ops : List Op) {more : List Op}
    (hmore : ∀ op ∈ more, op.isGesture = true ∧ op.isStop = false) :
    let o := run w ops b s
    let e := run w more o.board o.outside
    (∀ first, e.reply.find? (fun t => t.op.isStart) = some first →
      ∀ t ∈ e.reply, t.op.isStart = true → t.after.document = first.after.document) ∧
    (∀ t ∈ e.reply, t.bulletins = []) ∧
    ∀ past t future id grab start, e.reply = past ++ t :: future → t.op.isStart = true →
      t.before.gesture = .item id grab start →
      (∃ rest, t.reply = .actions (.itemPositioned id start :: rest) ∧
        ∀ other p, .itemPositioned other p ∉ rest) ∧
      t.calls = [.moveItem id start] ∧
      Since (fun u => u.Grabs id grab start) (fun u => u.op.isStart = true ∨ u.op.isStop = true)
        (o.reply ++ past) := by
  intro o e
  have hidle : b.gesture = .idle := (new_ok hb).2.2.2.1
  -- every turn of the sequence is the next one after a longer run from the beginning
  have hturn : ∀ {past t future}, e.reply = past ++ t :: future →
      ∃ xs op, (∀ op ∈ xs, op.isGesture = true ∧ op.isStop = false) ∧ op ∈ more ∧
        let u := run w (ops ++ xs) b s
        u.reply = o.reply ++ past ∧ (turn w op u.board u.outside).reply = t := by
    intro past t future h
    obtain ⟨xs, op, ys, rfl, hpast, ht, -⟩ := run_split h
    refine ⟨xs, op, fun op hop => hmore op (List.mem_append_left _ hop), by simp, ?_⟩
    rw [run_append]
    exact ⟨congrArg (o.reply ++ ·) hpast, ht⟩
  have hstart : ∀ t ∈ e.reply, t.op.isStart = true → t.after.document = o.board.restored := by
    intro t ht hop
    obtain ⟨past, future, h⟩ := List.append_of_mem ht
    obtain ⟨xs, op, hxs, -, -, rfl⟩ := hturn h
    rw [← run_restored w s hidle ops hxs]
    cases op with
    | start source page => exact startDrag_document w.recorded _ _ source page
    | _ => cases hop
  refine ⟨?_, ?_, ?_⟩
  · intro first hfirst t ht hop
    have hfound : first.op.isStart = true :=
      List.find?_some (p := fun t : Turn => t.op.isStart) hfirst
    rw [hstart t ht hop, hstart first (List.mem_of_find?_eq_some hfirst) hfound]
  · intro t ht
    obtain ⟨past, future, h⟩ := List.append_of_mem ht
    obtain ⟨xs, op, -, hop, -, rfl⟩ := hturn h
    obtain ⟨hgesture, hstop⟩ := hmore op hop
    cases op with
    | start source page => exact startDrag_bulletins w _ _ source page
    | move page => exact moveDrag_bulletins w _ _ page
    | stop page => cases hstop
    | _ => cases hgesture
  · intro past t future id grab start h hop hg
    obtain ⟨xs, op, -, -, hreply, rfl⟩ := hturn h
    rw [← hreply]
    cases op with
    | start source page =>
      refine ⟨start_reply w _ _ hg source page, ?_, run_grabbed w s hidle _ hg⟩
      rw [start_calls, show (run w (ops ++ xs) b s).board.gesture = _ from hg]
    | _ => cases hop

/-- An item is grabbed twice and then left for a template. -/
theorem abandoned_drags_undone_on_regrab :
    let ops : List Op :=
      [.initPalette shelf "#palette" "#canvas", .initCanvas sheet "#canvas",
        .append "Step" ⟨10, 20⟩, .enable sheet ".canvas-item"]
    let more : List Op :=
      [.start (.item ⟨"canvasItem0"⟩) ⟨15, 25⟩, .move ⟨300, 200⟩,
        .start (.item ⟨"canvasItem0"⟩) ⟨12, 24⟩, .move ⟨0, 0⟩, .start (.template "Step") ⟨1, 2⟩]
    let o := run (Fallible.surroundings fun _ => none) ops standard .start
    let e := run (Fallible.surroundings fun _ => none) more o.board o.outside
    ∃ first last, e.reply[0]? = some first ∧ e.reply[4]? = some last ∧
      last.after.document = first.after.document ∧
      last.reply = .actions [.itemPositioned ⟨"canvasItem0"⟩ ⟨10, 20⟩, .showHelper "Step" ⟨1, 2⟩] ∧
      last.calls = [.moveItem ⟨"canvasItem0"⟩ ⟨10, 20⟩] := by
  intro ops more o e
  have hmore : ∀ op ∈ more, op.isGesture = true ∧ op.isStop = false := by
    simp [more, Op.isGesture, Op.isStop]
  obtain ⟨hdocument, -, hback⟩ := abandoned_drags_undone new_standard
    (Fallible.surroundings fun _ => none) .start ops hmore
  refine ⟨_, _, rfl, rfl, hdocument _ rfl _ (List.mem_of_getElem? (i := 4) rfl) rfl, rfl, ?_⟩
  have hdrag : (e.reply.get ⟨4, by decide⟩).before.gesture =
      .item ⟨"canvasItem0"⟩ ⟨2, 4⟩ ⟨10, 20⟩ := rfl
  have hsplit : e.reply = e.reply.take 4 ++ e.reply.get ⟨4, by decide⟩ :: [] := rfl
  exact (hback _ _ _ _ _ _ hsplit rfl hdrag).2.1

end Board

end DiagramEditor
