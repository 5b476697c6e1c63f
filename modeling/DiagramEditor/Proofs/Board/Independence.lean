import DiagramEditor.Proofs.Board.Dragging
import DiagramEditor.Proofs.Board.Recording

/-! Gestures and the connection library: whatever a library answers, a gesture goes on as if it had
agreed, and all it asks for is to move the item that is dragged to where the document has it. -/
namespace DiagramEditor

open Wiring (Fallible)
open Signal (calls calls_append)

def Signal.agreed? : Signal → Option Signal
  | .call c _ => some (.call c (.ok ()))
  | .note n => if n.reportsRefusal then none else some (.note n)

def Signal.agreed (gs : List Signal) : List Signal := gs.filterMap agreed?

theorem Signal.agreed_append (gs hs : List Signal) :
    agreed (gs ++ hs) = agreed gs ++ agreed hs :=
  List.filterMap_append

/-- Surroundings that agree to every call and keep the signals. -/
def Surroundings.agreeing : Surroundings (List Signal) where
  call c gs := (.ok (), gs ++ [.call c (.ok ())])
  note n gs := gs ++ Signal.agreed [.note n]

theorem Surroundings.recorded_showsGestures {σ : Type} (w : Surroundings σ) :
    w.recorded.ShowsGestures agreeing fun s => Signal.agreed s.signals where
  place := by
    intro id p b s
    refine Prod.ext (by simp only [Board.place_board]) ?_
    change Signal.agreed s.signals ++ _ = _
    simp only [Board.place]
    split
    · next s₁ hc =>
      rw [(recorded_call hc).2, Signal.agreed_append]
      rfl
    · next f s₁ hc =>
      change _ = Signal.agreed (s₁.signals ++ [.note (.log (Board.Entries.moveRefused id f))])
      rw [(recorded_call hc).2, List.append_assoc, Signal.agreed_append]
      rfl
  note := by
    intro n hn s
    exact (Signal.agreed_append s.signals [.note n]).symm

namespace Board

def Turn.agreed (t : Turn) : Turn := { t with signals := Signal.agreed t.signals }

/-- The library is asked for nothing and the document stays as it is, or the item that is dragged
is moved to the same place in both. -/
def Turn.OnlyMoves (t : Turn) : Prop :=
  (t.calls = [] ∧ t.after.document = t.before.document) ∨
    ∃ id grab start p, t.before.gesture = .item id grab start ∧ t.calls = [.moveItem id p] ∧
      t.after.document = t.before.document.setPosition id p

section Calls
variable {σ : Type} (w : Surroundings σ) (b : Board) (s : Recorded σ)

omit b in
theorem note_calls (n : Note) : calls (w.recorded.note n s).signals = calls s.signals := by
  change calls (s.signals ++ [.note n]) = _
  rw [calls_append]
  exact List.append_nil _

theorem noteStart_calls (t : Template) :
    calls (noteStart w.recorded b t s).signals = calls s.signals := by
  rw [noteStart]
  split
  · rfl
  · exact note_calls w s _

theorem noteStop_calls (t : Template) (dropped : Bool) :
    calls (noteStop w.recorded b t dropped s).signals = calls s.signals := by
  rw [noteStop]
  split
  · rfl
  · exact note_calls w s _

theorem publishPlacement_calls (p : Placement) :
    calls (publishPlacement w.recorded b p s).signals = calls s.signals := by
  have hevent := announce_signals w s b.placements fun who => .placement who p
  rw [publishPlacement, hevent, calls_append, calls_announcement, List.append_nil]

theorem startFresh_calls (source : DragSource) (page : Point) :
    calls (startFresh w.recorded source page b s).outside.signals = calls s.signals := by
  cases source with
  | foreign => rfl
  | template kind =>
    simp only [startFresh, startTemplate]
    split
    · exact note_calls w s _
    · exact (note_calls w _ _).trans (noteStart_calls w b s _)
  | item id =>
    simp only [startFresh, startItem]
    repeat' split
    all_goals exact note_calls w s _

theorem dropTemplate_calls (kind : String) (page : Point) :
    calls (dropTemplate w.recorded kind page b s).2.signals = calls s.signals := by
  simp only [dropTemplate]
  split
  · exact note_calls w s _
  · split
    · exact note_calls w s _
    · split
      · exact (publishPlacement_calls w b _ _).trans (note_calls w s _)
      · exact note_calls w s _

theorem stopTemplate_calls (kind : String) (page : Point) :
    calls (stopTemplate w.recorded kind page b s).outside.signals = calls s.signals := by
  simp only [stopTemplate]
  split
  · exact dropTemplate_calls w b s kind page
  · exact (noteStop_calls w b _ _ _).trans (dropTemplate_calls w b s kind page)

end Calls

section Turn
variable {σ : Type} (w : Surroundings σ) (b : Board) (s : σ)

theorem start_calls (source : DragSource) (page : Point) :
    (turn w (.start source page) b s).reply.calls =
      match b.gesture with
      | .item id _ start => [.moveItem id start]
      | _ => [] := by
  have hcalls : (turn w (.start source page) b s).reply.calls =
      calls (abandon w.recorded b ⟨s, []⟩).outside.signals :=
    startFresh_calls w _ _ source page
  rw [hcalls]
  cases hg : b.gesture with
  | item id grab start =>
    obtain ⟨gs, hgs, -, hmoved⟩ := place_signals w { b with gesture := .idle }
      (w.recorded.log (Entries.itemAbandoned id) ⟨s, []⟩) id start
    simp only [abandon, hg, hgs, calls_append, hmoved]
    rfl
  | _ =>
    simp only [abandon, hg]
    rfl

theorem start_onlyMoves (source : DragSource) (page : Point) :
    (turn w (.start source page) b s).reply.OnlyMoves := by
  have hdoc : (turn w (.start source page) b s).reply.after.document =
      (abandon w.recorded b ⟨s, []⟩).board.document :=
    startFresh_document w.recorded _ _ source page
  rw [Turn.OnlyMoves, start_calls, hdoc]
  cases hg : b.gesture with
  | item id grab start =>
    refine Or.inr ⟨id, grab, start, start, hg, rfl, ?_⟩
    simp only [abandon, hg, place_board]
    rfl
  | _ =>
    refine Or.inl ⟨rfl, ?_⟩
    simp only [abandon, hg]
    rfl

theorem move_onlyMoves (page : Point) : (turn w (.move page) b s).reply.OnlyMoves := by
  cases hg : b.gesture with
  | item id grab start =>
    cases hp : b.containedPosition? id page grab with
    | some p =>
      have hboard := move_board w s hg hp
      exact Or.inr ⟨id, grab, start, p, hg, (move_positions w s hg hp).calls,
        congrArg Board.document hboard⟩
    | none =>
      refine Or.inl ⟨?_, ?_⟩
      · simp only [Turn.calls, turn, step, answer, moveDrag, hg, hp]
        rfl
      · simp only [turn, step, answer, moveDrag, hg, hp, ignoring]
  | _ =>
    refine Or.inl ⟨?_, ?_⟩
    · simp only [Turn.calls, turn, step, answer, moveDrag, hg]
      rfl
    · simp only [turn, step, answer, moveDrag, hg]

theorem stop_onlyMoves (page : Point) : (turn w (.stop page) b s).reply.OnlyMoves := by
  cases hg : b.gesture with
  | item id grab start =>
    have hidle : containedPosition? { b with gesture := .idle } id page grab =
      b.containedPosition? id page grab := rfl
    cases hp : b.containedPosition? id page grab with
    | some p =>
      have hboard := stop_board w s hg hp
      exact Or.inr ⟨id, grab, start, p, hg, (stop_positions w s hg hp).1.calls,
        congrArg Board.document hboard⟩
    | none =>
      refine Or.inl ⟨?_, ?_⟩
      · simp only [Turn.calls, turn, step, answer, stopDrag, stopItem, hg, hidle, hp]
        rfl
      · simp only [turn, step, answer, stopDrag, stopItem, hg, hidle, hp]
  | template kind last =>
    have ho : stopDrag w.recorded page b ⟨s, []⟩ =
        stopTemplate w.recorded kind page { b with gesture := .idle } ⟨s, []⟩ := by
      simp only [stopDrag, hg]
    refine Or.inl ⟨?_, ?_⟩
    · simp only [Turn.calls, turn, step, answer, ho]
      exact stopTemplate_calls w _ _ kind page
    · simp only [turn, step, answer, ho]
      rfl
  | _ =>
    refine Or.inl ⟨?_, ?_⟩
    · simp only [Turn.calls, turn, step, answer, stopDrag, hg]
      rfl
    · simp only [turn, step, answer, stopDrag, hg]

theorem gesture_onlyMoves {op : Op} (hop : op.isGesture = true) :
    (turn w op b s).reply.OnlyMoves := by
  cases op with
  | start source page => exact start_onlyMoves w b s source page
  | move page => exact move_onlyMoves w b s page
  | stop page => exact stop_onlyMoves w b s page
  | _ => cases hop

theorem gesture_agreed {op : Op} (hop : op.isGesture = true) :
    step .agreeing op b [] =
      (step w.recorded op b ⟨s, []⟩).seen fun s => Signal.agreed s.signals := by
  have hw := w.recorded_showsGestures
  cases op with
  | start source page => exact congrArg (answer _) (startDrag_seen hw b ⟨s, []⟩ source page)
  | move page => exact congrArg (answer _) (moveDrag_seen hw b ⟨s, []⟩ page)
  | stop page => exact congrArg (answer _) (stopDrag_seen hw b ⟨s, []⟩ page)
  | _ => cases hop

theorem turn_agreed {op : Op} (hop : op.isGesture = true) :
    let o := step .agreeing op b []
    (turn w op b s).reply.agreed = ⟨op, b, o.reply, o.outside, o.board⟩ ∧
      (turn w op b s).board = o.board := by
  intro o
  have ho : o = _ := gesture_agreed w b s hop
  rw [ho]
  exact ⟨rfl, rfl⟩

end Turn

/-- Gestures do not depend on the connection library: on any two libraries, in whatever state and
whatever they answer, the same boards, replies, calls and notes follow, but for the log entries that
report a refusal. They only ever move the item that is dragged, to where the document has it. -/
theorem gestures_ignore_library {σ τ : Type} (w : Surroundings σ) (v : Surroundings τ) (b : Board)
    (s : σ) (t : τ) (ops : List Op) (hops : ∀ op ∈ ops, op.isGesture = true) :
    let o := run w ops b s
    let u := run v ops b t
    o.board = u.board ∧ o.reply.map Turn.agreed = u.reply.map Turn.agreed ∧
      ∀ turn ∈ o.reply, turn.OnlyMoves := by
  intro o u
  refine run_induction (P := fun ops o => (∀ op ∈ ops, op.isGesture = true) →
    o.board = (run v ops b t).board ∧
      o.reply.map Turn.agreed = (run v ops b t).reply.map Turn.agreed ∧
      ∀ turn ∈ o.reply, turn.OnlyMoves) ?_ ?_ ops hops
  · intro _
    exact ⟨rfl, rfl, fun turn hturn => absurd hturn List.not_mem_nil⟩
  · intro ops op ih hops
    obtain ⟨hboard, hreply, hmoves⟩ := ih fun op hop => hops op (List.mem_append_left _ hop)
    have hop := hops op (List.mem_append_right _ (List.mem_singleton_self op))
    rw [run_concat]
    obtain ⟨hw, hwboard⟩ := turn_agreed w (run w ops b s).board (run w ops b s).outside hop
    obtain ⟨hv, hvboard⟩ := turn_agreed v (run v ops b t).board (run v ops b t).outside hop
    rw [hboard] at hw hwboard
    refine ⟨?_, ?_, ?_⟩
    · simp only [extend, hboard, hwboard, hvboard]
    · simp only [extend, hboard, List.map_append, hreply, List.map_cons, List.map_nil, hw, hv]
    · intro turn hturn
      rcases List.mem_append.mp hturn with hturn | hturn
      · exact hmoves turn hturn
      · rw [List.mem_singleton.mp hturn]
        exact gesture_onlyMoves w _ _ hop

/-- One library turns every call down and the other carries it out. -/
theorem gestures_ignore_refusals :
    let setup : List Op :=
      [.initCanvas sheet "#canvas", .append "Step" ⟨10, 20⟩, .enable sheet ".canvas-item"]
    let ops : List Op :=
      [.start (.item ⟨"canvasItem0"⟩) ⟨10, 20⟩, .move ⟨300, -40⟩, .start .foreign ⟨0, 0⟩]
    let b := (run (Fallible.surroundings fun _ => none) setup standard .start).board
    let o := run (Fallible.surroundings fun _ => some (.library "no")) ops b .start
    let u := run (Fallible.surroundings fun _ => none) ops b .start
    o.board = u.board ∧ o.reply.map Turn.agreed = u.reply.map Turn.agreed ∧
      o.outside.memory.positions = [] ∧
      u.outside.memory.positions = [(⟨"canvasItem0"⟩, ⟨10, 20⟩)] := by
  intro setup ops b o u
  have hops : ∀ op ∈ ops, op.isGesture = true := by simp [ops, Op.isGesture]
  obtain ⟨hboard, hreply, -⟩ := gestures_ignore_library
    (Fallible.surroundings fun _ => some (.library "no")) (Fallible.surroundings fun _ => none)
    b .start .start ops hops
  exact ⟨hboard, hreply, rfl, rfl⟩

end Board

end DiagramEditor
