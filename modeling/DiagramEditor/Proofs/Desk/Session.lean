import DiagramEditor.Proofs.Desk.Queue
import Mathlib.Logic.Relation

/-! Sessions at a desk: uses of the board and hand-outs of the queue within each other, step by
step. What was handed out and what still waits is what has been published. -/
namespace DiagramEditor.Desk

variable {σ : Type}

/-- What someone at a desk is in the middle of: a use of the board, which he will put back as it is
by now, a hand-out of the events that wait, or a reaction to one of them. -/
inductive Stage
  | uses (b : Board)
  | hands
  | reacts

structure Scene (σ : Type) where
  desk : Desk σ
  stages : List Stage
  published : List Event
  handed : List Event

namespace Scene

def start (d : Desk σ) : Scene σ := ⟨d, [], [], []⟩

/-- Anything may be done, as no event is about to be handed out. -/
def Open (stages : List Stage) : Prop := ∀ up, stages ≠ .hands :: up

end Scene

section Session
variable (w : Surroundings σ) (q r : Nat)

/-- What may happen next at a desk whose queue is subscribed under these numbers. -/
inductive Advance : Scene σ → Scene σ → Prop
  | take {d stages published handed} (ho : Scene.Open stages) (hb : d.busy = false) :
      Advance ⟨d, stages, published, handed⟩
        ⟨{ d with busy := true }, .uses d.board :: stages, published, handed⟩
  | operate {d b o stages published handed} (op : Board.Op) (hs : op.Spares q r)
      (ho : Board.step (surroundings w) op b d = o) :
      Advance ⟨d, .uses b :: stages, published, handed⟩
        ⟨o.outside, .uses o.board :: stages, published ++ (b.event? op).toList, handed⟩
  | giveBack {d b stages published handed} :
      Advance ⟨d, .uses b :: stages, published, handed⟩
        ⟨{ d with board := b, busy := false }, stages, published, handed⟩
  | ask {d stages published handed} (ho : Scene.Open stages) :
      Advance ⟨d, stages, published, handed⟩ ⟨d, .hands :: stages, published, handed⟩
  | hand {d e d' stages published handed} (h : d.pop? = some (e, d')) :
      Advance ⟨d, .hands :: stages, published, handed⟩
        ⟨d', .reacts :: .hands :: stages, published, handed ++ [e]⟩
  | reacted {d stages published handed} :
      Advance ⟨d, .reacts :: stages, published, handed⟩ ⟨d, stages, published, handed⟩
  | finish {d stages published handed} (h : d.pop? = none) :
      Advance ⟨d, .hands :: stages, published, handed⟩ ⟨d, stages, published, handed⟩
  | elsewhere {d stages published handed} (f : σ → σ) :
      Advance ⟨d, stages, published, handed⟩ ⟨d.onOutside f, stages, published, handed⟩

abbrev Session : Scene σ → Scene σ → Prop := Relation.ReflTransGen (Advance w q r)

/-- Every board that is, or is to be, on the desk feeds the queue, and no event is lost, handed out
twice or out of order. -/
structure Scene.Sound (sc : Scene σ) : Prop where
  free : sc.desk.busy = false → sc.desk.board.Feeds q r
  used : ∀ b, .uses b ∈ sc.stages → b.Feeds q r
  events : sc.handed ++ sc.desk.outbox = sc.published

end Session

section Sound
variable {w : Surroundings σ} {q r : Nat} {sc sc' : Scene σ}

theorem pop?_some {d d' : Desk σ} {e : Event} (h : d.pop? = some (e, d')) :
    ∃ rest, d.outbox = e :: rest ∧ d' = { d with outbox := rest } := by
  rw [pop?] at h
  split at h
  · cases h
  · next e' rest hd =>
    obtain ⟨rfl, rfl⟩ := Prod.mk.inj (Option.some.inj h)
    exact ⟨rest, hd, rfl⟩

theorem pop?_none {d : Desk σ} : d.pop? = none ↔ d.outbox = [] := by
  rw [pop?]
  split <;> simp_all

theorem Advance.sound (h : Advance w q r sc sc') (hs : sc.Sound q r) : sc'.Sound q r := by
  cases h with
  | take ho hb =>
    refine ⟨fun h => Bool.noConfusion h, fun b hb' => ?_, hs.events⟩
    rcases List.mem_cons.mp hb' with hb' | hb'
    · obtain rfl := Stage.uses.inj hb'
      exact hs.free hb
    · exact hs.used b hb'
  | @operate d b o _ _ _ op hspares ho =>
    subst ho
    have hb : b.Feeds q r := hs.used b List.mem_cons_self
    have hgets := step_gets w op b d
    refine ⟨fun hfree => ?_, fun c hc => ?_, ?_⟩
    · exact hgets.board ▸ hs.free (hgets.busy.symm.trans hfree)
    · rcases List.mem_cons.mp hc with hc | hc
      · obtain rfl := Stage.uses.inj hc
        exact hb.step (surroundings w) hspares d
      · exact hs.used c (List.mem_cons_of_mem _ hc)
    · rw [hgets.outbox, hb.queued_turn, ← List.append_assoc, hs.events]
  | giveBack =>
    exact ⟨fun _ => hs.used _ List.mem_cons_self,
      fun b hb => hs.used b (List.mem_cons_of_mem _ hb), hs.events⟩
  | ask =>
    refine ⟨hs.free, fun b hb => hs.used b ?_, hs.events⟩
    exact (List.mem_cons.mp hb).resolve_left Stage.noConfusion
  | @hand d e d' _ _ _ h =>
    obtain ⟨rest, hd, rfl⟩ := pop?_some h
    refine ⟨hs.free, fun b hb => hs.used b ?_, ?_⟩
    · exact (List.mem_cons.mp hb).resolve_left Stage.noConfusion
    · rw [← hs.events, hd, List.append_assoc]
      rfl
  | reacted => exact ⟨hs.free, fun b hb => hs.used b (List.mem_cons_of_mem _ hb), hs.events⟩
  | finish h => exact ⟨hs.free, fun b hb => hs.used b (List.mem_cons_of_mem _ hb), hs.events⟩
  | elsewhere f => exact ⟨hs.free, hs.used, hs.events⟩

theorem Session.sound (h : Session w q r sc sc') (hs : sc.Sound q r) : sc'.Sound q r := by
  induction h with
  | refl => exact hs
  | tail _ hadvance ih => exact hadvance.sound ih

theorem Scene.sound_start {b : Board} (hp : .outbox ∉ b.placements.audience)
    (hm : .outbox ∉ b.moves.audience) (s : σ) :
    (Scene.start (place b s)).Sound b.placements.next b.moves.next where
  free := fun _ => .of_place hp hm s
  used := fun _ hb => nomatch hb
  events := rfl

theorem Advance.outbox_of_finish (h : Advance w q r sc sc')
    (hs : sc.stages = .hands :: sc'.stages) : sc'.desk.outbox = [] := by
  cases h with
  | finish h => exact pop?_none.mp h
  | giveBack => cases hs
  | operate => cases hs
  | reacted => cases hs
  | _ =>
    -- all else adds stages
    have hlength := congrArg List.length hs
    simp only [List.length_cons] at hlength
    omega

end Sound

end DiagramEditor.Desk
