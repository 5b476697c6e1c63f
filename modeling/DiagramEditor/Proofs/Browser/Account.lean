import DiagramEditor.Browser.Tab
import DiagramEditor.Form.Gesture
import DiagramEditor.Proofs.Desk.Queue

/-! Accounts of a tab read moment by moment: where things stand after each moment, and which moments
may come next. -/
namespace DiagramEditor.Browser

inductive Frame
  | method (op : Op)
  /-- Deliveries are numbered as they begin; `waiting` are the callbacks still to be called. -/
  | delivery (number : Nat) (e : Event) (waiting : List Nat)
  | callback (number : Nat) (rest : Program)
  | library (name : String) (rest : Program)

namespace Frame

def pass : Frame → Frame
  | .delivery k e ws => .delivery k e ws.tail
  | f => f

def resume (a : Answer) : Frame → Frame
  | .callback n p => .callback n (p.resume a)
  | .library f p => .library f (p.resume a)
  | f => f

def next? : Frame → Option Op
  | .callback _ (.call op _) | .library _ (.call op _) => some op
  | _ => none

end Frame

def InLibrary (frames : List Frame) : Prop := ∃ f p up, frames = .library f p :: up

def InScript (frames : List Frame) : Prop := frames = [] ∨ ∃ n p up, frames = .callback n p :: up

/-- The innermost script is about to call an operation. Of the scripts of the page, inside which
nothing is in progress, the account knows nothing. -/
def Calls (op : Op) (frames : List Frame) : Prop := ∀ f ∈ frames.head?, f.next? = some op

/-- The table of listeners is at hand: to a delivery, and to what leaves the board alone. -/
def AtListeners (frames : List Frame) : Prop :=
  (∃ k e ws up, frames = .delivery k e ws :: up) ∨
    ∃ op up, frames = .method op :: up ∧ op.asks = false

theorem InScript.not_inLibrary {frames : List Frame} (h : InScript frames) :
    ¬ InLibrary frames := by
  rintro ⟨f, p, up, rfl⟩
  rcases h with h | ⟨n, p', up', h⟩ <;> cases h

structure Standing where
  frames : List Frame
  held : List Part
  queue : List Event
  /-- What the board that is in use has published and is about to put into the queue. -/
  due : List Event
  listeners : Table Nat Listener
  callbacks : List (Value → Program)
  methods : Table String Method
  delivered : Nat

namespace Standing

def start : Standing := ⟨[], [], [], [], [], [], [], 0⟩

def programOf (s : Standing) (name : String) (arguments : List Value) : Program :=
  match s.methods.get? name with
  | some (.function body) => body arguments
  | _ => .returns .undefined

def after (s : Standing) : Moment → Standing
  | .begins (.method op) => { s with frames := .method op :: s.frames }
  | .begins (.delivery e) =>
    { s with
      frames := .delivery s.delivered e (Tab.audience s.listeners (.of e)) :: s.frames
      queue := s.queue.tail
      delivered := s.delivered + 1 }
  | .begins (.callback n v) =>
    { s with frames := .callback n (bodyOf s.callbacks n v) :: s.frames.modifyHead Frame.pass }
  | .begins (.library f vs) => { s with frames := .library f (s.programOf f vs) :: s.frames }
  | .answers _ a => { s with frames := s.frames.tail.modifyHead (Frame.resume a) }
  | .ends _ => { s with frames := s.frames.tail }
  | .overflows _ => { s with frames := s.frames.modifyHead (Frame.resume (.error .tooDeep)) }
  | .borrows p => { s with held := p :: s.held }
  | .returns p => { s with held := s.held.erase p }
  | .refuses => s
  | .works b op => { s with due := (b.event? op).toList }
  | .raises e => { s with queue := s.queue ++ [e], due := s.due.tail }
  | .registers h l c =>
    { s with listeners := Tab.insertListener h l s.listeners, callbacks := s.callbacks ++ [c] }
  | .removes h _ => { s with listeners := s.listeners.erase h }
  | .defines f m => { s with methods := s.methods.set f m }

/-- The moments that may come next. -/
inductive Allows (s : Standing) : Moment → Prop
  | call {op} (hf : InScript s.frames) (hn : Calls op s.frames) (hh : s.held = []) :
      Allows s (.begins (.method op))
  | callInside {op} (hf : InLibrary s.frames) (hn : Calls op s.frames) (hh : s.held = [.board]) :
      Allows s (.begins (.method op))
  | overflow {op} (hf : InScript s.frames ∨ InLibrary s.frames) (hn : Calls op s.frames) :
      Allows s (.overflows op)
  | answer {a op up} (hf : s.frames = .method op :: up)
      (ha : a = .error .busy ↔ op.asks = true ∧ InLibrary up) : Allows s (.answers op a)
  | deliver {e op up} (hf : s.frames = .method op :: up) (hl : ¬ InLibrary up)
      (hh : s.held = []) (hq : s.queue.head? = some e) : Allows s (.begins (.delivery e))
  | callBack {k e n ws up} (hf : s.frames = .delivery k e (n :: ws) :: up) (hh : s.held = []) :
      Allows s (.begins (.callback n (.sent e.toJson)))
  | invoke {f vs body op up} (hf : s.frames = .method op :: up) (hl : ¬ InLibrary up)
      (hh : s.held = [.board]) (hm : s.methods.get? f = some (.function body)) :
      Allows s (.begins (.library f vs))
  | deliveryEnds {e k up} (hf : s.frames = .delivery k e [] :: up) : Allows s (.ends (.delivery e))
  | callbackEnds {n v p up} (hf : s.frames = .callback n p :: up) (hd : p.done = true) :
      Allows s (.ends (.callback n v))
  | libraryEnds {f vs p up} (hf : s.frames = .library f p :: up) (hd : p.done = true) :
      Allows s (.ends (.library f vs))
  | takeBoard {op up} (hf : s.frames = .method op :: up) (hl : ¬ InLibrary up)
      (hh : s.held = []) : Allows s (.borrows .board)
  | giveBoard {op up} (hf : s.frames = .method op :: up) (hl : ¬ InLibrary up)
      (hh : s.held = [.board]) (hd : s.due = []) : Allows s (.returns .board)
  | takeQueue {op up} (hf : s.frames = .method op :: up) (hl : ¬ InLibrary up)
      (hh : s.held = [] ∨ s.held = [.board]) : Allows s (.borrows .queue)
  | giveQueue {op up held} (hf : s.frames = .method op :: up) (hl : ¬ InLibrary up)
      (hh : s.held = .queue :: held) : Allows s (.returns .queue)
  | takeListeners (hf : AtListeners s.frames) (hh : s.held = [] ∨ s.held = [.board]) :
      Allows s (.borrows .listeners)
  | giveListeners {held} (hf : AtListeners s.frames) (hh : s.held = .listeners :: held) :
      Allows s (.returns .listeners)
  | work {b board op up} (hf : s.frames = .method op :: up) (hl : ¬ InLibrary up)
      (hh : s.held = [.board]) (hd : s.due = []) : Allows s (.works b board)
  | raise {e op up} (hf : s.frames = .method op :: up) (hl : ¬ InLibrary up)
      (hh : s.held = [.queue, .board]) (hd : s.due.head? = some e) : Allows s (.raises e)
  | register {h l kind c up held} (hf : s.frames = .method (.on kind c) :: up)
      (hh : s.held = .listeners :: held) (hl : l = ⟨kind, s.callbacks.length⟩)
      (hn : h = s.callbacks.length % Tab.handleBound) : Allows s (.registers h l c)
  | remove {h l number up held} (hf : s.frames = .method (.off number) :: up)
      (hh : s.held = .listeners :: held) (hn : h = number % Tab.handleBound)
      (hl : s.listeners.get? h = some l) : Allows s (.removes h l)
  | define {f m up} (hf : s.frames = .method (.define f m) :: up) : Allows s (.defines f m)
  | refuse {op up} (hf : s.frames = .method op :: up) (ha : op.asks = true) (hl : InLibrary up)
      (hh : s.held = [.board]) : Allows s .refuses

def Follows (s : Standing) : List Moment → Prop
  | [] => True
  | m :: ms => s.Allows m ∧ Follows (s.after m) ms

end Standing

open Standing (Allows Follows)

def standing (ms : List Moment) : Standing := ms.foldl Standing.after .start

theorem standing_append (ms ns : List Moment) :
    standing (ms ++ ns) = ns.foldl Standing.after (standing ms) :=
  List.foldl_append

theorem standing_concat (ms : List Moment) (m : Moment) :
    standing (ms ++ [m]) = (standing ms).after m :=
  standing_append ms [m]

/-- Accounts in which every moment was allowed when it came. -/
inductive Kept : List Moment → Prop
  | nil : Kept []
  | snoc {ms : List Moment} {m : Moment} (h : Kept ms) (hm : (standing ms).Allows m) :
      Kept (ms ++ [m])

namespace Kept

theorem concat_iff {ms : List Moment} {m : Moment} :
    Kept (ms ++ [m]) ↔ Kept ms ∧ (standing ms).Allows m := by
  constructor
  · intro h
    generalize hns : ms ++ [m] = ns at h
    cases h with
    | nil => simp at hns
    | snoc h hm =>
      obtain ⟨rfl, he⟩ := List.append_inj' hns rfl
      obtain ⟨rfl, -⟩ := List.cons.inj he
      exact ⟨h, hm⟩
  · intro h
    exact .snoc h.1 h.2

theorem append_iff {ms ns : List Moment} :
    Kept (ms ++ ns) ↔ Kept ms ∧ (standing ms).Follows ns := by
  induction ns generalizing ms with
  | nil => simp [Follows]
  | cons m ns ih =>
    rw [List.append_cons, ih, concat_iff, standing_concat, Follows, and_assoc]

theorem past {ms ns : List Moment} (h : Kept (ms ++ ns)) : Kept ms := (append_iff.mp h).1

theorem next {ms ns : List Moment} {m : Moment} (h : Kept (ms ++ m :: ns)) :
    (standing ms).Allows m :=
  (append_iff.mp h).2.1

theorem keeps {P : Standing → Prop} (step : ∀ {s m}, s.Allows m → P s → P (s.after m))
    {ms ns : List Moment} (h : Kept (ms ++ ns)) (hp : P (standing ms)) :
    P (standing (ms ++ ns)) := by
  induction ns using List.reverseRecOn with
  | nil => rwa [List.append_nil]
  | append_singleton ns m ih =>
    rw [← List.append_assoc] at h ⊢
    obtain ⟨h, hm⟩ := concat_iff.mp h
    rw [standing_concat]
    exact step hm (ih h)

theorem invariant {P : Standing → Prop} (start : P .start)
    (step : ∀ {s m}, s.Allows m → P s → P (s.after m)) {ms : List Moment} (h : Kept ms) :
    P (standing ms) := by
  rw [← List.nil_append ms] at h ⊢
  exact h.keeps step start

end Kept

end DiagramEditor.Browser
