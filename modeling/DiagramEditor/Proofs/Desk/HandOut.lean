import DiagramEditor.Bench.Run
import DiagramEditor.Proofs.Desk.Session

/-! What the replies at a bench tell of events, and how those that wait are handed out: one after
another, each to the reaction, until none waits. -/
namespace DiagramEditor

open Signal (queued)

inductive Happening
  | published (e : Event)
  | handed (e : Event)

namespace Happening

def published? : Happening → Option Event
  | .published e => some e
  | .handed _ => none

def handed? : Happening → Option Event
  | .published _ => none
  | .handed e => some e

theorem filterMap_published? (es : List Event) :
    (es.map published).filterMap published? = es := by
  rw [List.filterMap_map]
  exact List.filterMap_some

theorem filterMap_handed? (es : List Event) : (es.map published).filterMap handed? = [] :=
  List.filterMap_eq_nil_iff.mpr fun _ hh => by
    obtain ⟨e, -, rfl⟩ := List.mem_map.mp hh
    rfl

end Happening

def Bench.Record.happenings (r : Bench.Record) : List Happening :=
  (queued (r.notes.map .note)).map .published

mutual

def Bench.Reply.happenings : Bench.Reply → List Happening
  | .desk r => r.happenings
  | _ => []

/-- An operation publishes before anything is done at the desk in its turn. -/
def Bench.Entry.happenings : Bench.Entry → List Happening
  | .mk reply record _ => record.happenings ++ reply.happenings

def Bench.entryHappenings : List Bench.Entry → List Happening
  | [] => []
  | e :: rest => e.happenings ++ Bench.entryHappenings rest

def Desk.Reply.happenings : Desk.Reply → List Happening
  | .entries es => Bench.entryHappenings es
  | .handed ds => Desk.deliveryHappenings ds
  | _ => []

def Desk.Delivery.happenings : Desk.Delivery → List Happening
  | .mk e _ replies => .handed e :: Desk.replyHappenings replies

def Desk.deliveryHappenings : List Desk.Delivery → List Happening
  | [] => []
  | d :: rest => d.happenings ++ Desk.deliveryHappenings rest

def Desk.replyHappenings : List Desk.Reply → List Happening
  | [] => []
  | r :: rest => r.happenings ++ Desk.replyHappenings rest

end

namespace Desk

variable {σ : Type}

/-- Events are handed out in order until none waits. Each is paid for from the budget, and the
reaction to it gets what is left; once nothing is left, events are handed out without a reaction. -/
inductive Handled (react : Event → Nat → Desk σ → (List Reply × Nat) × Desk σ) :
    Nat → Desk σ → List Delivery → Nat → Desk σ → Prop
  | done {budget d} (h : d.pop? = none) : Handled react budget d [] 0 d
  | paid {left d e taken replies spent after rest more last} (h : d.pop? = some (e, taken))
      (hreact : react e left taken = ((replies, spent), after))
      (hrest : Handled react (left - spent) after rest more last) :
      Handled react (left + 1) d (.mk e after.outbox.length replies :: rest) (1 + spent + more) last
  | unpaid {d e taken rest last} (h : d.pop? = some (e, taken))
      (hrest : Handled react 0 taken rest 0 last) :
      Handled react 0 d (.mk e taken.outbox.length [] :: rest) 0 last

section Handled
variable {react : Event → Nat → Desk σ → (List Reply × Nat) × Desk σ}

theorem Handled.outbox {budget spent : Nat} {d d' : Desk σ} {ds : List Delivery}
    (h : Handled react budget d ds spent d') : d'.outbox = [] := by
  induction h with
  | done h => exact pop?_none.mp h
  | paid _ _ _ ih => exact ih
  | unpaid _ _ ih => exact ih

theorem handOutAll_cons (b : Board) (busy : Bool) (e : Event) (rest : List Event) (outside : σ) :
    (handOutAll ⟨b, busy, e :: rest, outside⟩).1 =
      .mk e rest.length [] :: (handOutAll ⟨b, busy, rest, outside⟩).1 := by
  simp only [handOutAll, List.zipIdx_cons, List.map_cons, List.length_cons,
    List.zipIdx_succ, List.map_map]
  congr 1
  refine List.map_congr_left fun ⟨e, i⟩ _ => ?_
  simp only [Function.comp, Nat.add_sub_cancel, Nat.sub_sub, Nat.add_comm]

variable (react)

theorem handOutAll_handled (d : Desk σ) : Handled react 0 d d.handOutAll.1 0 d.handOutAll.2 := by
  obtain ⟨board, busy, outbox, outside⟩ := d
  induction outbox with
  | nil => exact .done rfl
  | cons e rest ih =>
    rw [handOutAll_cons]
    exact .unpaid rfl ih

theorem handOutPaid_handled {fuel budget : Nat} (hfuel : budget ≤ fuel) (d : Desk σ) :
    let r := handOutPaid react fuel budget d
    Handled react budget d r.1.1 r.1.2 r.2 := by
  induction fuel generalizing budget d with
  | zero =>
    obtain rfl := Nat.le_zero.mp hfuel
    exact handOutAll_handled react d
  | succ fuel ih =>
    cases budget with
    | zero => exact handOutAll_handled react d
    | succ left =>
      rw [handOutPaid]
      split
      · next hp => exact .done hp
      · next e taken hp =>
        refine .paid hp rfl (ih ?_ _)
        exact Nat.le_trans (Nat.sub_le left _) (Nat.le_of_succ_le_succ hfuel)

end Handled

end Desk

end DiagramEditor
