import DiagramEditor.Proofs.Board.Bulletins
import DiagramEditor.Proofs.Board.Interrupted

/-! Refused operations. Those that ask first leave the board as it was, wherever the library fails,
and a board that objects itself has not called the library yet. -/
namespace DiagramEditor

open Wiring (Call Library Fallible)

namespace Board

/-- Operations that change the board last. -/
def Op.asksFirst : Op → Bool
  | .initPalette _ _ _ | .initCanvas _ _ | .insert _ _ _ | .remove _ | .attach _ _ _
  | .connect _ _ _ => true
  | _ => false

theorem demand?_isSome (b : Board) (op : Op) : (b.demand? op).isSome = op.asksFirst := by
  cases op <;> rfl

section Attempt
variable {σ : Type} {w : Surroundings σ} {b : Board} {s : Recorded σ} {f : Fault}

theorem attempt_refused {d : Except Fault Demand}
    (h : (attempt w.recorded b s d).reply = .refused f) :
    let o := attempt w.recorded b s d
    (d = .error f ∧ o.outside = s) ∨ ∃ q past c rest, d = .ok q ∧ q.calls = past ++ c :: rest ∧
      o.outside.signals = s.signals ++ (past.map Signal.granted ++ [.call c (.error f)]) := by
  intro o
  cases d with
  | error g =>
    obtain rfl := Reply.refused.inj h
    exact Or.inl ⟨rfl, rfl⟩
  | ok q =>
    simp only [o, attempt] at h ⊢
    split at h
    · next g t hc =>
      obtain rfl := Reply.refused.inj h
      obtain ⟨past, c, rest, hcalls, hs⟩ := Surroundings.callAll_refused hc
      exact Or.inr ⟨q, past, c, rest, rfl, hcalls, hs⟩
    · exact absurd h (q.reply_ne f)

theorem step_asksFirst {op : Op} (hop : op.asksFirst = true)
    (h : (step w.recorded op b s).reply = .refused f) :
    let o := step w.recorded op b s
    o.board = b ∧ ((b.demand? op = some (.error f) ∧ o.outside = s) ∨
      ∃ d past c rest, b.demand? op = some (.ok d) ∧ d.calls = past ++ c :: rest ∧
        o.outside.signals = s.signals ++ (past.map Signal.granted ++ [.call c (.error f)])) := by
  rw [← demand?_isSome b] at hop
  obtain ⟨d, hd⟩ := Option.isSome_iff_exists.mp hop
  rw [step_attempt w.recorded hd] at h ⊢
  simpa only [hd, Option.some.injEq] using And.intro (attempt_board _ h) (attempt_refused h)

theorem isRefused_granted (past : List Call) :
    ∀ g ∈ past.map Signal.granted, g.isRefused = false := by
  intro g hg
  obtain ⟨c, -, rfl⟩ := List.mem_map.mp hg
  rfl

theorem step_refused {op : Op} (h : (step w.recorded op b s).reply = .refused f) :
    let o := step w.recorded op b s
    op.isGesture = false ∧ ((o.outside = s ∧ o.board = b) ∨
      ∃ past c, o.outside.signals = s.signals ++ (past ++ [.call c (.error f)]) ∧
        ∀ g ∈ past, g.isRefused = false) := by
  intro o
  by_cases hop : op.asksFirst = true
  · have hgesture : op.isGesture = false := by
      cases op with
      | start source page => cases hop
      | move page => cases hop
      | stop page => cases hop
      | _ => rfl
    refine ⟨hgesture, ?_⟩
    obtain ⟨hb, ⟨-, hs⟩ | ⟨d, past, c, rest, -, -, hs⟩⟩ := step_asksFirst hop h
    · exact Or.inl ⟨hs, hb⟩
    · exact Or.inr ⟨_, c, hs, isRefused_granted past⟩
  · -- of the others only these two are ever refused
    cases op with
    | enable page selector =>
      refine ⟨rfl, ?_⟩
      rcases enable_refused h with ho | ⟨v, elements, past, e, id, -, -, -, -, hs, hpast, -, -⟩
      · exact Or.inl ho
      · exact Or.inr ⟨past, _, hs, hpast⟩
    | setBounds bounds =>
      refine ⟨rfl, ?_⟩
      rcases (setBounds_refused h).2 with ho | ⟨past, c, hs⟩
      · exact Or.inl ho
      · exact Or.inr ⟨_, c, hs, isRefused_granted past⟩
    | append kind p => cases h
    | start source page => cases h
    | move page => cases h
    | stop page => cases h
    | onPlacement who => cases h
    | onMove who => cases h
    | offPlacement n => cases h
    | offMove n => cases h
    | setHooks tag => cases h
    | _ => exact absurd rfl hop

end Attempt

/-- Whatever the library does, an operation that asks first leaves the board as it was when it is
refused. Every operation is refused for a reason of the board's own before it has sent anything out,
or for the last call that it made, and no event is published then. -/
theorem refusal_changes_nothing {σ : Type} (w : Surroundings σ) (op : Op) (b : Board) (s : σ) :
    let t := (turn w op b s).reply
    (∀ f, b.demand? op = some (.error f) → t.reply = .refused f ∧ t.signals = [] ∧ t.after = b) ∧
    ∀ f, t.reply = .refused f →
      t.bulletins = [] ∧
      ((t.signals = [] ∧ t.after = b) ∨ ∃ past c, t.signals = past ++ [.call c (.error f)] ∧
        ∀ g ∈ past, g.isRefused = false) ∧
      (op.asksFirst = true → t.after = b ∧
        ((b.demand? op = some (.error f) ∧ t.signals = []) ∨
          ∃ d past c rest, b.demand? op = some (.ok d) ∧ d.calls = past ++ c :: rest ∧
            t.signals = past.map Signal.granted ++ [.call c (.error f)])) := by
  intro t
  constructor
  · intro f hf
    have ho : step w.recorded op b ⟨s, []⟩ = ⟨.refused f, b, ⟨s, []⟩⟩ := step_attempt _ hf _
    simp only [t, turn, ho, and_self]
  · intro f h
    obtain ⟨hgesture, hcases⟩ := step_refused h
    refine ⟨step_bulletins w hgesture b ⟨s, []⟩, ?_, fun hop => ?_⟩
    · rcases hcases with ⟨hs, hb⟩ | hlast
      · exact Or.inl ⟨congrArg Recorded.signals hs, hb⟩
      · exact Or.inr hlast
    · obtain ⟨hb, ⟨hd, hs⟩ | hasked⟩ := step_asksFirst hop h
      · exact ⟨hb, Or.inl ⟨hd, congrArg Recorded.signals hs⟩⟩
      · exact ⟨hb, Or.inr hasked⟩

/-- A registration of the canvas that breaks off at its third call leaves the board as it was. -/
theorem refusal_changes_nothing_midway :
    let w := Fallible.surroundings fun n => if n = 4 then some (.library "busy") else none
    let ops : List Op :=
      [.append "Step" ⟨10, 20⟩, .attach ⟨1⟩ ⟨"canvasItem0"⟩ .source,
        .attach ⟨2⟩ ⟨"canvasItem0"⟩ .target]
    let o := run w ops standard .start
    let t := (turn w (.initCanvas sheet "#canvas") o.board o.outside).reply
    t.reply = .refused (.library "busy") ∧ t.signals.length = 3 ∧ t.bulletins = [] ∧
      t.after = o.board := by
  intro w ops o t
  have hr : t.reply = .refused (.library "busy") := rfl
  obtain ⟨hbulletins, -, hfirst⟩ :=
    (refusal_changes_nothing w (.initCanvas sheet "#canvas") o.board o.outside).2 _ hr
  exact ⟨hr, by decide, hbulletins, (hfirst rfl).1⟩

end Board

end DiagramEditor
