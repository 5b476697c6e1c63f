import DiagramEditor.Board.Drag
import DiagramEditor.Proofs.Lasting
import Mathlib.Data.List.Nodup

/-! Runs of a subscriber list. An event reaches the subscriptions that the history of the list has
made and not ended since, each of them once and in their order; no number is given out twice. -/
namespace DiagramEditor.Bus

variable {η ε σ : Type}

abbrev Turn (η ε : Type) := Op η ε × Reply

def Turn.subscribed? : Turn η ε → Option (Nat × η)
  | (.subscribe who, .subscribed id) => some (id, who)
  | _ => none

def Turn.ends (s : Nat × η) : Turn η ε → Bool
  | (.unsubscribe id, _) => s.1 == id
  | (.clear, _) => true
  | _ => false

/-- The subscriptions that turns have made and not ended since. -/
def subscriptions (ts : List (Turn η ε)) : List (Nat × η) :=
  lasting Turn.subscribed? Turn.ends ts

def numbers (ts : List (Turn η ε)) : List Nat :=
  (ts.filterMap Turn.subscribed?).map (·.1)

structure Run (η ε σ : Type) where
  turns : List (Turn η ε)
  bus : Bus η
  outside : σ

def Run.extend (call : η → ε → σ → σ) (r : Run η ε σ) (op : Op η ε) : Run η ε σ :=
  let (reply, bus, outside) := step call op r.bus r.outside
  ⟨r.turns ++ [(op, reply)], bus, outside⟩

def run (call : η → ε → σ → σ) (ops : List (Op η ε)) (s : σ) : Run η ε σ :=
  ops.foldl (Run.extend call) ⟨[], .empty, s⟩

theorem run_concat (call : η → ε → σ → σ) (ops : List (Op η ε)) (op : Op η ε) (s : σ) :
    run call (ops ++ [op]) s = (run call ops s).extend call op := by
  rw [run, List.foldl_append]
  rfl

/-- The list holds what its history has made and not ended, and its numbers have been counted up. -/
structure Run.Faithful (r : Run η ε σ) : Prop where
  live : r.bus.live = subscriptions r.turns
  counted : numbers r.turns = List.range r.bus.next

theorem subscriptions_concat (ts : List (Turn η ε)) (t : Turn η ε) :
    subscriptions (ts ++ [t]) =
      ((subscriptions ts).filter fun s => !t.ends s) ++ t.subscribed?.toList :=
  lasting_concat ts t

theorem numbers_concat (ts : List (Turn η ε)) (t : Turn η ε) :
    numbers (ts ++ [t]) = numbers ts ++ (t.subscribed?.map (·.1)).toList := by
  rw [numbers, List.filterMap_append, List.map_append]
  cases h : t.subscribed? <;> simp [numbers, h]

theorem numbers_concat_of_none {ts : List (Turn η ε)} {t : Turn η ε} (h : t.subscribed? = none) :
    numbers (ts ++ [t]) = numbers ts := by
  rw [numbers_concat, h]
  exact List.append_nil _

theorem subscriptions_concat_of_keeps {ts : List (Turn η ε)} {t : Turn η ε}
    (h : ∀ s, t.ends s = false) :
    subscriptions (ts ++ [t]) = subscriptions ts ++ t.subscribed?.toList := by
  rw [subscriptions_concat, List.filter_eq_self.mpr]
  exact fun s _ => by rw [h s, Bool.not_false]

theorem filter_ne_of_nodup {id : Nat} {who : η} {live : List (Nat × η)}
    (hn : (live.map (·.1)).Nodup) (h : (id, who) ∈ live) :
    ∃ before after, live = before ++ (id, who) :: after ∧
      live.filter (fun s => s.1 != id) = before ++ after := by
  obtain ⟨before, after, rfl⟩ := List.append_of_mem h
  refine ⟨before, after, rfl, ?_⟩
  rw [List.map_append, List.map_cons, List.nodup_middle, ← List.map_append] at hn
  have hothers : ∀ s ∈ before ++ after, (s.1 != id) = true := by
    intro s hs
    rw [bne_iff_ne]
    rintro rfl
    exact (List.nodup_cons.mp hn).1 (List.mem_map.mpr ⟨s, hs, rfl⟩)
  obtain ⟨hbefore, hafter⟩ := List.forall_mem_append.mp hothers
  rw [List.filter_append, List.filter_cons_of_neg (by simp), List.filter_eq_self.mpr hbefore,
    List.filter_eq_self.mpr hafter]

namespace Run

variable {call : η → ε → σ → σ} {r : Run η ε σ}

theorem Faithful.clear (call : η → ε → σ → σ) (r : Run η ε σ) :
    subscriptions (r.extend call .clear).turns = [] := by
  refine (subscriptions_concat _ _).trans ?_
  simp [Turn.ends, Turn.subscribed?]

theorem Faithful.extend (h : r.Faithful) (op : Op η ε) : (r.extend call op).Faithful := by
  cases op with
  | subscribe who =>
    refine ⟨?_, ?_⟩
    · simp only [Run.extend, step, Bus.subscribe]
      rw [subscriptions_concat_of_keeps fun _ => rfl, h.live]
      rfl
    · simp only [Run.extend, step, Bus.subscribe]
      rw [numbers_concat, h.counted, List.range_succ]
      rfl
  | unsubscribe id =>
    refine ⟨?_, (numbers_concat_of_none rfl).trans h.counted⟩
    simp only [Run.extend, step, Bus.unsubscribe]
    rw [subscriptions_concat, h.live]
    exact (List.append_nil _).symm
  | clear => exact ⟨(Faithful.clear call r).symm, (numbers_concat_of_none rfl).trans h.counted⟩
  | publish e =>
    refine ⟨?_, (numbers_concat_of_none rfl).trans h.counted⟩
    simp only [Run.extend, step]
    rw [subscriptions_concat_of_keeps fun _ => rfl, h.live]
    exact (List.append_nil _).symm

theorem Faithful.numbers_nodup (h : r.Faithful) : (Bus.numbers r.turns).Nodup :=
  h.counted ▸ List.nodup_range

theorem Faithful.nodup (h : r.Faithful) : ((subscriptions r.turns).map (·.1)).Nodup :=
  h.numbers_nodup.sublist ((lasting_sublist r.turns).map _)

theorem Faithful.publish (h : r.Faithful) (e : ε) :
    let r' := r.extend call (.publish e)
    r'.outside =
        (subscriptions r.turns).foldl (fun s subscription => call subscription.2 e s) r.outside ∧
      subscriptions r'.turns = subscriptions r.turns := by
  refine ⟨?_, (subscriptions_concat_of_keeps fun _ => rfl).trans (List.append_nil _)⟩
  rw [← h.live]
  exact List.foldl_map

theorem Faithful.subscribe (h : r.Faithful) (who : η) :
    let r' := r.extend call (.subscribe who)
    ∃ id, id ∉ numbers r.turns ∧ r'.turns = r.turns ++ [(.subscribe who, .subscribed id)] ∧
      r'.outside = r.outside ∧ subscriptions r'.turns = subscriptions r.turns ++ [(id, who)] := by
  refine ⟨r.bus.next, ?_, rfl, rfl, subscriptions_concat_of_keeps fun _ => rfl⟩
  rw [h.counted]
  exact List.not_mem_range_self

theorem Faithful.unsubscribe (h : r.Faithful) (id : Nat) :
    let r' := r.extend call (.unsubscribe id)
    ∃ wasLive, r'.turns = r.turns ++ [(.unsubscribe id, .unsubscribed wasLive)] ∧
      r'.outside = r.outside ∧
      ((wasLive = true ∧ ∃ before who after,
          subscriptions r.turns = before ++ (id, who) :: after ∧
            subscriptions r'.turns = before ++ after) ∨
        (wasLive = false ∧ id ∉ (subscriptions r.turns).map (·.1) ∧
          subscriptions r'.turns = subscriptions r.turns)) := by
  intro r'
  have hleft : subscriptions r'.turns = (subscriptions r.turns).filter fun s => s.1 != id :=
    (subscriptions_concat _ _).trans (List.append_nil _)
  refine ⟨r.bus.live.any fun s => s.1 == id, rfl, rfl, ?_⟩
  rw [h.live, hleft]
  cases hany : (subscriptions r.turns).any fun s => s.1 == id with
  | true =>
    obtain ⟨⟨n, who⟩, hmem, hid⟩ := List.any_eq_true.mp hany
    obtain rfl : n = id := beq_iff_eq.mp hid
    obtain ⟨before, after, hsplit, hrest⟩ := filter_ne_of_nodup h.nodup hmem
    exact Or.inl ⟨rfl, before, who, after, hsplit, hrest⟩
  | false =>
    have hne : ∀ s ∈ subscriptions r.turns, s.1 ≠ id := by simpa using hany
    refine Or.inr ⟨rfl, fun hmem => ?_, ?_⟩
    · obtain ⟨s, hs, hid⟩ := List.mem_map.mp hmem
      exact hne s hs hid
    · exact List.filter_eq_self.mpr fun s hs => bne_iff_ne.mpr (hne s hs)

end Run

theorem run_faithful (call : η → ε → σ → σ) (ops : List (Op η ε)) (s : σ) :
    (run call ops s).Faithful := by
  induction ops using List.reverseRecOn with
  | nil => exact ⟨rfl, rfl⟩
  | append_singleton ops op ih => exact run_concat call ops op s ▸ ih.extend op

/-- The subscriptions of a list are those that its history has made and not ended since, under
numbers that differ. An event reaches each of them once, in their order, and nobody else; a new
subscription gets a number that was never given out; ending one takes it out and leaves the others
as they are, and says whether it was there. -/
theorem reaches_live_subscriptions (call : η → ε → σ → σ) (ops : List (Op η ε)) (s : σ) :
    let r := run call ops s
    let live := subscriptions r.turns
    (live.map (·.1)).Nodup ∧ r.bus.count = live.length ∧
    (∀ e, let r' := run call (ops ++ [.publish e]) s
      r'.outside = live.foldl (fun s subscription => call subscription.2 e s) r.outside ∧
        subscriptions r'.turns = live) ∧
    (∀ who, let r' := run call (ops ++ [.subscribe who]) s
      ∃ id, id ∉ numbers r.turns ∧ r'.turns = r.turns ++ [(.subscribe who, .subscribed id)] ∧
        r'.outside = r.outside ∧ subscriptions r'.turns = live ++ [(id, who)]) ∧
    (∀ id, let r' := run call (ops ++ [.unsubscribe id]) s
      ∃ wasLive, r'.turns = r.turns ++ [(.unsubscribe id, .unsubscribed wasLive)] ∧
        r'.outside = r.outside ∧
        ((wasLive = true ∧ ∃ before who after, live = before ++ (id, who) :: after ∧
            subscriptions r'.turns = before ++ after) ∨
          (wasLive = false ∧ id ∉ live.map (·.1) ∧ subscriptions r'.turns = live))) ∧
    let r' := run call (ops ++ [.clear]) s
    r'.outside = r.outside ∧ subscriptions r'.turns = [] := by
  intro r live
  have h : r.Faithful := run_faithful call ops s
  simp only [run_concat]
  exact ⟨h.nodup, congrArg List.length h.live, h.publish, h.subscribe, h.unsubscribe, rfl,
    Run.Faithful.clear call r⟩

end DiagramEditor.Bus

namespace DiagramEditor.Board

variable {σ : Type} (w : Surroundings σ) (b : Board) (s : σ)

theorem publishPlacement_eq (p : Placement) : publishPlacement w b p s =
    b.placements.publish (fun who p => w.note (.placement who p)) p
      (w.log (Entries.publishing b.placements.count) s) := by
  rw [publishPlacement, Bus.audience, List.length_map]
  rfl

theorem publishMove_eq (m : Move) : publishMove w b m s =
    b.moves.publish (fun who m => w.note (.move who m)) m
      (w.log (Entries.publishing b.moves.count) s) := by
  rw [publishMove, Bus.audience, List.length_map]
  rfl

end DiagramEditor.Board
