import DiagramEditor.Board.Step
import Mathlib.Data.List.Induction

/-! Runs of a board. Every operation of a run is recorded as a turn: the board before and after it,
its reply, and the signals that passed between the board and its surroundings meanwhile. -/
namespace DiagramEditor

/-- Something of one kind is in a list, and nothing of the other kind after it. -/
def Since {α : Type} (P Q : α → Prop) (l : List α) : Prop :=
  ∃ past a future, l = past ++ a :: future ∧ P a ∧ ∀ u ∈ future, ¬ Q u

section Since
variable {α : Type} {P Q : α → Prop} {l : List α} {u : α}

theorem not_since_nil (P Q : α → Prop) : ¬ Since P Q [] := by
  intro h
  obtain ⟨past, a, future, h, -⟩ := h
  simp at h

theorem since_concat : Since P Q (l ++ [u]) ↔ P u ∨ (Since P Q l ∧ ¬ Q u) := by
  constructor
  · intro h
    obtain ⟨past, a, future, h, ha, hf⟩ := h
    rcases List.eq_nil_or_concat future with rfl | ⟨future, v, rfl⟩
    · obtain ⟨-, he⟩ := List.append_inj' h rfl
      obtain ⟨rfl, -⟩ := List.cons.inj he
      exact Or.inl ha
    · rw [List.concat_eq_append, ← List.cons_append, ← List.append_assoc] at h
      obtain ⟨rfl, he⟩ := List.append_inj' h rfl
      obtain ⟨rfl, -⟩ := List.cons.inj he
      refine Or.inr ⟨⟨past, a, future, rfl, ha, fun w hw => hf w ?_⟩, hf u ?_⟩
      · simp [hw]
      · simp
  · intro h
    rcases h with hu | ⟨⟨past, a, future, rfl, ha, hf⟩, hu⟩
    · exact ⟨l, u, [], rfl, hu, fun _ hv => absurd hv List.not_mem_nil⟩
    · refine ⟨past, a, future ++ [u], by simp, ha, fun v hv => ?_⟩
      rcases List.mem_append.mp hv with hv | hv
      · exact hf v hv
      · exact List.mem_singleton.mp hv ▸ hu

end Since

def Next {α : Type} (P Q : α → Prop) (l : List α) : Prop :=
  ∃ past a future, l = past ++ a :: future ∧ P a ∧ ∀ u ∈ past, ¬ Q u

section Next
variable {α : Type} {P Q : α → Prop} {l : List α} {u : α}

theorem not_next_nil (P Q : α → Prop) : ¬ Next P Q [] := by
  intro h
  obtain ⟨past, a, future, h, -⟩ := h
  simp at h

theorem next_cons : Next P Q (u :: l) ↔ P u ∨ (¬ Q u ∧ Next P Q l) := by
  constructor
  · intro h
    obtain ⟨past, a, future, h, ha, hp⟩ := h
    cases past with
    | nil =>
      obtain ⟨rfl, -⟩ := List.cons.inj h
      exact Or.inl ha
    | cons v past =>
      obtain ⟨rfl, hrest⟩ := List.cons.inj h
      exact Or.inr ⟨hp u List.mem_cons_self, past, a, future, hrest, ha,
        fun w hw => hp w (List.mem_cons_of_mem _ hw)⟩
  · intro h
    rcases h with hu | ⟨hu, past, a, future, rfl, ha, hp⟩
    · exact ⟨[], u, l, rfl, hu, fun _ hv => absurd hv List.not_mem_nil⟩
    · refine ⟨u :: past, a, future, rfl, ha, fun v hv => ?_⟩
      rcases List.mem_cons.mp hv with rfl | hv
      · exact hu
      · exact hp v hv

theorem not_next_iff (h : ∀ a, P a → Q a) :
    ¬ Next P Q l ↔ (∀ u ∈ l, ¬ Q u) ∨ Next (fun u => Q u ∧ ¬ P u) Q l := by
  induction l with
  | nil => simp [not_next_nil]
  | cons u l ih =>
    rw [next_cons, next_cons, List.forall_mem_cons]
    by_cases hq : Q u
    · simp [hq]
    · have hp : ¬ P u := fun hp => hq (h u hp)
      simp [hq, hp, ih]

end Next

/-- A library call with its answer, or a note that was sent out. -/
inductive Signal
  | call (c : Wiring.Call) (answer : Except Fault Unit)
  | note (n : Note)

structure Recorded (σ : Type) where
  inner : σ
  signals : List Signal

variable {σ : Type}

def Surroundings.recorded (w : Surroundings σ) : Surroundings (Recorded σ) where
  call c s :=
    let (answer, inner) := w.call c s.inner
    (answer, ⟨inner, s.signals ++ [.call c answer]⟩)
  note n s := ⟨w.note n s.inner, s.signals ++ [.note n]⟩

theorem Surroundings.recorded_call {w : Surroundings σ} {c : Wiring.Call} {s s' : Recorded σ}
    {answer : Except Fault Unit} (h : w.recorded.call c s = (answer, s')) :
    w.call c s.inner = (answer, s'.inner) ∧ s'.signals = s.signals ++ [.call c answer] := by
  obtain ⟨rfl, rfl⟩ := Prod.mk.inj h
  exact ⟨rfl, rfl⟩

namespace Board

def Op.endpointId? : Op → Option EndpointId
  | .attach id _ _ => some id
  | _ => none

def endpointIds (ops : List Op) : List EndpointId :=
  ops.filterMap Op.endpointId?

/-- No id is given to two endpoints. -/
def Fresh (ops : List Op) : Prop := (endpointIds ops).Nodup

instance (ops : List Op) : Decidable (Fresh ops) :=
  inferInstanceAs (Decidable (List.Nodup _))

structure Turn where
  op : Op
  before : Board
  reply : Reply
  signals : List Signal
  after : Board

def turn (w : Surroundings σ) (op : Op) (b : Board) (s : σ) : Outcome σ Turn :=
  let o := step w.recorded op b ⟨s, []⟩
  ⟨⟨op, b, o.reply, o.outside.signals, o.board⟩, o.board, o.outside.inner⟩

def extend (w : Surroundings σ) (o : Outcome σ (List Turn)) (op : Op) : Outcome σ (List Turn) :=
  let t := turn w op o.board o.outside
  ⟨o.reply ++ [t.reply], t.board, t.outside⟩

def run (w : Surroundings σ) (ops : List Op) (b : Board) (s : σ) : Outcome σ (List Turn) :=
  ops.foldl (extend w) ⟨[], b, s⟩

theorem run_concat (w : Surroundings σ) (ops : List Op) (op : Op) (b : Board) (s : σ) :
    run w (ops ++ [op]) b s = extend w (run w ops b s) op := by
  rw [run, List.foldl_append]
  rfl

theorem run_append (w : Surroundings σ) (xs ys : List Op) (b : Board) (s : σ) :
    run w (xs ++ ys) b s =
      let o := run w xs b s
      let e := run w ys o.board o.outside
      ⟨o.reply ++ e.reply, e.board, e.outside⟩ := by
  induction ys using List.reverseRecOn with
  | nil => simp [run]
  | append_singleton ys op ih =>
    rw [← List.append_assoc, run_concat, ih]
    simp only [run_concat, extend, List.append_assoc]

theorem run_cons (w : Surroundings σ) (op : Op) (ops : List Op) (b : Board) (s : σ) :
    run w (op :: ops) b s =
      let t := turn w op b s
      let e := run w ops t.board t.outside
      ⟨t.reply :: e.reply, e.board, e.outside⟩ :=
  run_append w [op] ops b s

theorem run_split {w : Surroundings σ} {ops : List Op} {b : Board} {s : σ} {past future : List Turn}
    {t : Turn} (h : (run w ops b s).reply = past ++ t :: future) :
    ∃ xs op ys, ops = xs ++ op :: ys ∧
      let o := run w xs b s
      let u := turn w op o.board o.outside
      o.reply = past ∧ u.reply = t ∧ (run w ys u.board u.outside).reply = future ∧
        (run w ys u.board u.outside).board = (run w ops b s).board := by
  induction ops generalizing b s past with
  | nil => simp [run] at h
  | cons op ops ih =>
    simp only [run_cons] at h ⊢
    cases past with
    | nil =>
      obtain ⟨ht, hf⟩ := List.cons.inj h
      exact ⟨[], op, ops, rfl, rfl, ht, hf, rfl⟩
    | cons u past =>
      obtain ⟨hu, hrest⟩ := List.cons.inj h
      obtain ⟨xs, op', ys, rfl, hpast, ht, hf, hboard⟩ := ih hrest
      refine ⟨op :: xs, op', ys, rfl, ?_⟩
      simp only [run_cons]
      exact ⟨by rw [hu, hpast], ht, hf, hboard⟩

theorem run_mem {w : Surroundings σ} {ops : List Op} {b : Board} {s : σ} {t : Turn}
    (h : t ∈ (run w ops b s).reply) :
    ∃ xs op ys, ops = xs ++ op :: ys ∧
      let o := run w xs b s
      (turn w op o.board o.outside).reply = t := by
  obtain ⟨past, future, hsplit⟩ := List.append_of_mem h
  obtain ⟨xs, op, ys, hops, -, ht, -⟩ := run_split hsplit
  exact ⟨xs, op, ys, hops, ht⟩

/-- What holds at the start and outlasts every operation holds after every run. -/
theorem run_induction {w : Surroundings σ} {b : Board} {s : σ}
    {P : List Op → Outcome σ (List Turn) → Prop} (start : P [] ⟨[], b, s⟩)
    (step : ∀ ops op, P ops (run w ops b s) → P (ops ++ [op]) (extend w (run w ops b s) op))
    (ops : List Op) : P ops (run w ops b s) := by
  induction ops using List.reverseRecOn with
  | nil => exact start
  | append_singleton ops op ih => exact run_concat w ops op b s ▸ step ops op ih

def Turn.mends (t : Turn) : Prop :=
  (∃ page selector, t.op = .initCanvas page selector) ∧ ∃ r, t.reply = .bounds r

/-- A turn of this kind happened, and no registration of the canvas has succeeded since. -/
def Unmended (P : Turn → Prop) (ts : List Turn) : Prop :=
  ∃ past t future, ts = past ++ t :: future ∧ P t ∧ ∀ u ∈ future, ¬ u.mends

theorem not_unmended_nil (P : Turn → Prop) : ¬ Unmended P [] :=
  not_since_nil P Turn.mends

theorem unmended_concat {P : Turn → Prop} {ts : List Turn} {u : Turn} :
    Unmended P (ts ++ [u]) ↔ P u ∨ (Unmended P ts ∧ ¬ u.mends) :=
  since_concat

end Board

end DiagramEditor
