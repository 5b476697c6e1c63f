import DiagramEditor.Desk
import DiagramEditor.Proofs.Board.Bulletins
import DiagramEditor.Proofs.Board.Recording

/-! The queue of a desk: an operation adds the event that it publishes, if it publishes one, as long
as the queue is subscribed to both kinds of events. -/
namespace DiagramEditor

open Signal (bulletins)

namespace Signal

def queued? : Signal → Option Event
  | .note (.placement .outbox p) => some (.placement p)
  | .note (.move .outbox m) => some (.move m)
  | _ => none

def queued (gs : List Signal) : List Event := gs.filterMap queued?

theorem queued_append (gs hs : List Signal) : queued (gs ++ hs) = queued gs ++ queued hs :=
  List.filterMap_append

theorem queued_bulletins (gs : List Signal) : queued (bulletins gs) = queued gs := by
  rw [queued, bulletins, List.filterMap_filter, queued]
  refine List.filterMap_congr fun g _ => ?_
  split
  · rfl
  · next hg =>
    rcases g with ⟨c, a⟩ | n
    · rfl
    · cases n with
      | placement => exact absurd rfl hg
      | move => exact absurd rfl hg
      | _ => rfl

end Signal

open Signal (queued)

namespace Board

/-- The event that an operation publishes. -/
def event? (b : Board) : Op → Option Event
  | .stop page =>
    match b.gesture with
    | .template kind _ =>
      match b.surface with
      | none => none
      | some v =>
        if !b.paletteOfOther v && v.bounds.contains page then
          some (.placement ⟨kind, v.bounds.toLocal page⟩)
        else none
    | .item id grab _ =>
      (b.containedPosition? id page grab).map fun p => .move ⟨b.document.ids.idxOf id, id, p⟩
    | _ => none
  | _ => none

def bulletin (b : Board) : Event → List Signal
  | .placement p => p.bulletin b.placements
  | .move m => m.bulletin b.moves

theorem turn_event {σ : Type} (w : Surroundings σ) (op : Op) (b : Board) (s : σ) :
    (turn w op b s).reply.bulletins = (b.event? op).elim [] b.bulletin := by
  rcases turn_bulletins w op b s with
    ⟨page, kind, last, v, rfl, hg, hv, ht⟩ | ⟨page, id, grab, start, p, rfl, hg, hp, ht⟩ |
      ⟨htemplate, hitem, ht⟩
  · simp [ht, event?, hg, hv.surface, hv.palette, hv.inside, bulletin]
  · simp [ht, event?, hg, hp, bulletin]
  · -- neither a drop on the canvas nor the end of a drag
    have hnone : b.event? op = none := by
      cases op with
      | stop page =>
        simp only [event?]
        split
        · next kind last hg =>
          split
          · rfl
          · next v hv =>
            refine if_neg fun hin => ?_
            obtain ⟨hpalette, hinside⟩ := Bool.and_eq_true_iff.mp hin
            exact htemplate page kind last v rfl hg ⟨hv, by simpa using hpalette, hinside⟩
        · next id grab start hg => rw [hitem page id grab start rfl hg, Option.map_none]
        · rfl
      | _ => rfl
    rw [ht, hnone, Option.elim_none]

end Board

def Bus.Queues (bus : Bus Subscriber) (q : Nat) : Prop :=
  bus.live.filter (fun s => s.2 = .outbox) = [(q, .outbox)]

namespace Bus.Queues

variable {bus : Bus Subscriber} {q : Nat}

theorem subscribe (h : bus.Queues q) {who : Subscriber} (hw : who ≠ .outbox) :
    (bus.subscribe who).2.Queues q := by
  rw [Queues, Bus.subscribe, List.filter_append, h]
  simp [hw]

theorem unsubscribe (h : bus.Queues q) {id : Nat} (hid : id ≠ q) :
    (bus.unsubscribe id).2.Queues q := by
  rw [Queues, Bus.unsubscribe, List.filter_comm, h]
  simp [hid.symm]

theorem of_place (h : .outbox ∉ bus.audience) : (bus.subscribe .outbox).2.Queues bus.next := by
  have hnone : bus.live.filter (fun s => s.2 = .outbox) = [] := by
    refine List.filter_eq_nil_iff.mpr fun e he => ?_
    simpa using fun hout : e.2 = .outbox => h (List.mem_map.mpr ⟨e, he, hout⟩)
  simp [Queues, Bus.subscribe, hnone]

theorem queued_announcement (h : bus.Queues q) (toNote : Subscriber → Note) {e : Event}
    (hqueue : (Signal.note (toNote .outbox)).queued? = some e)
    (hother : ∀ n, (Signal.note (toNote (.listener n))).queued? = none) :
    queued (Board.announcement bus toNote) = [e] := by
  have hlive : ∀ live : List (Nat × Subscriber),
      queued ((live.map (·.2)).map fun who => .note (toNote who)) =
        (live.filter fun s => s.2 = .outbox).map fun _ => e := by
    intro live
    induction live with
    | nil => rfl
    | cons s rest ih =>
      obtain ⟨n, _ | k⟩ := s
      · simpa [queued, hqueue] using ih
      · simpa [queued, hother] using ih
  exact (hlive bus.live).trans (by rw [h]; rfl)

end Bus.Queues

/-- Operations that leave the subscriptions of the queue alone, which have these numbers. -/
def Board.Op.Spares (q r : Nat) : Board.Op → Prop
  | .onPlacement who | .onMove who => who ≠ .outbox
  | .offPlacement id => id ≠ q
  | .offMove id => id ≠ r
  | _ => True

structure Board.Feeds (b : Board) (q r : Nat) : Prop where
  placements : b.placements.Queues q
  moves : b.moves.Queues r

namespace Board.Feeds

variable {σ : Type} {b : Board} {q r : Nat}

theorem queued_bulletin (h : b.Feeds q r) (e : Event) : queued (b.bulletin e) = [e] := by
  cases e with
  | placement p =>
    exact h.placements.queued_announcement (fun who => .placement who p) rfl fun _ => rfl
  | move m => exact h.moves.queued_announcement (fun who => .move who m) rfl fun _ => rfl

theorem queued_turn (h : b.Feeds q r) (w : Surroundings σ) (op : Op) (s : σ) :
    queued (turn w op b s).reply.signals = (b.event? op).toList := by
  rw [← Signal.queued_bulletins]
  refine (congrArg queued (turn_event w op b s)).trans ?_
  cases b.event? op with
  | none => rfl
  | some e => exact h.queued_bulletin e

theorem step (h : b.Feeds q r) (w : Surroundings σ) {op : Op} (hs : op.Spares q r) (s : σ) :
    (Board.step w op b s).board.Feeds q r := by
  have hkeeps := step_keeps w b s op
  cases op with
  | onPlacement who => exact ⟨h.placements.subscribe hs, h.moves⟩
  | onMove who => exact ⟨h.placements, h.moves.subscribe hs⟩
  | offPlacement id => exact ⟨h.placements.unsubscribe hs, h.moves⟩
  | offMove id => exact ⟨h.placements, h.moves.unsubscribe hs⟩
  | _ => exact ⟨hkeeps.placements rfl ▸ h.placements, hkeeps.moves rfl ▸ h.moves⟩

theorem of_place (hp : .outbox ∉ b.placements.audience) (hm : .outbox ∉ b.moves.audience) (s : σ) :
    (Desk.place b s).board.Feeds b.placements.next b.moves.next :=
  ⟨.of_place hp, .of_place hm⟩

end Board.Feeds

theorem Board.new_unsubscribed {settings : Settings} {b : Board} (hb : Board.new settings = .ok b) :
    b.placements = .empty ∧ b.moves = .empty := by
  rw [Board.new] at hb
  split at hb
  · cases hb
  · obtain rfl := Except.ok.inj hb
    exact ⟨rfl, rfl⟩

theorem Board.new_feeds {σ : Type} {settings : Settings} {b : Board}
    (hb : Board.new settings = .ok b) (s : σ) : (Desk.place b s).board.Feeds 0 0 := by
  obtain ⟨hplacements, hmoves⟩ := Board.new_unsubscribed hb
  have hfeeds := Board.Feeds.of_place (b := b) (by simp [hplacements, Bus.empty, Bus.audience])
    (by simp [hmoves, Bus.empty, Bus.audience]) s
  rwa [hplacements, hmoves] at hfeeds

namespace Desk

variable {σ : Type}

def surroundings (w : Surroundings σ) : Surroundings (Desk σ) where
  call c d :=
    let (answer, outside) := w.call c d.outside
    (answer, { d with outside := outside })
  note n d := d.note w.note n

variable (w : Surroundings σ)

/-- Of a desk only the queue has changed, by these events, and what is outside. -/
structure Gets (d d' : Desk σ) (es : List Event) : Prop where
  board : d'.board = d.board
  busy : d'.busy = d.busy
  outbox : d'.outbox = d.outbox ++ es

theorem Gets.trans {d d' d'' : Desk σ} {es fs : List Event} (h : d.Gets d' es)
    (h' : d'.Gets d'' fs) : d.Gets d'' (es ++ fs) where
  board := h'.board.trans h.board
  busy := h'.busy.trans h.busy
  outbox := by rw [h'.outbox, h.outbox, List.append_assoc]

theorem call_gets (c : Wiring.Call) (d : Desk σ) : d.Gets ((surroundings w).call c d).2 [] :=
  ⟨rfl, rfl, (List.append_nil _).symm⟩

theorem note_gets (n : Note) (d : Desk σ) :
    d.Gets ((surroundings w).note n d) (queued [.note n]) := by
  have hquiet : d.outbox = d.outbox ++ [] := (List.append_nil _).symm
  cases n with
  | placement who p =>
    cases who with
    | outbox => exact ⟨rfl, rfl, rfl⟩
    | listener k => exact ⟨rfl, rfl, hquiet⟩
  | move who m =>
    cases who with
    | outbox => exact ⟨rfl, rfl, rfl⟩
    | listener k => exact ⟨rfl, rfl, hquiet⟩
  | _ => exact ⟨rfl, rfl, hquiet⟩

theorem turn_gets (op : Board.Op) (b : Board) (d : Desk σ) :
    let t := Board.turn (surroundings w) op b d
    d.Gets t.outside (queued t.reply.signals) := by
  refine (Board.step_trail (surroundings w).recorded b ⟨d, []⟩ op).keeps_outside
    (P := fun s => d.Gets s.inner (queued s.signals)) ?_ ?_ ⟨rfl, rfl, (List.append_nil _).symm⟩
  · intro c s hs
    refine (Signal.queued_append s.signals _).symm ▸ hs.trans ?_
    exact call_gets w c s.inner
  · intro n s hs
    refine (Signal.queued_append s.signals _).symm ▸ hs.trans ?_
    exact note_gets w n s.inner

theorem step_gets (op : Board.Op) (b : Board) (d : Desk σ) :
    d.Gets (Board.step (surroundings w) op b d).outside
      (queued (Board.turn (surroundings w) op b d).reply.signals) := by
  rw [Board.step_turn]
  exact turn_gets w op b d

end Desk

end DiagramEditor
