import DiagramEditor.Proofs.Board.Gestures

/-! Traces of an item that is gone: a later operation has the id in its calls, its events or its
actions exactly if it abandons a drag of that item. -/
namespace DiagramEditor

open Wiring (Call)

def Wiring.Call.Names (id : ItemId) : Call → Prop
  | .setContainer _ => False
  | .makeDraggable other _ | .moveItem other _ | .removeElement other => other = id
  | .addEndpoint e => e.item = id
  | .connect _ s t => s.item = id ∨ t.item = id

/-- A call or an event with this item; the log does not count. -/
def Signal.Names (id : ItemId) : Signal → Prop
  | .call c _ => c.Names id
  | .note (.move _ m) => m.id = id
  | .note _ => False

def Action.Names (id : ItemId) : Action → Prop
  | .itemPositioned other _ => other = id
  | _ => False

theorem Document.Sound.known_of_warrants {d : Document} (hs : d.Sound) {c : Call}
    (h : d.Warrants c) {id : ItemId} (hn : c.Names id) : ∃ i, d.find? id = some i := by
  have hitem : ∀ {i}, i ∈ d.items → i.id = id → ∃ i, d.find? id = some i := fun hi hid =>
    ⟨_, hid ▸ hs.find?_of_mem hi⟩
  have hend : ∀ {e}, e ∈ d.endpoints → e.item = id → ∃ i, d.find? id = some i := by
    intro e he hid
    obtain ⟨i, hi, -⟩ := hs.holder he
    exact ⟨i, hid ▸ hi⟩
  cases c with
  | setContainer e => exact hn.elim
  | makeDraggable other box =>
    obtain ⟨i, hi, hid, -⟩ := h
    exact hitem hi (hid.trans hn)
  | moveItem other p =>
    obtain ⟨i, hi, hid, -⟩ := h
    exact hitem hi (hid.trans hn)
  | addEndpoint e => exact hend h hn
  | connect cid s t => exact hn.elim (hend h.1.1) (hend h.2.1)
  | removeElement other => exact h.elim

namespace Board

def Turn.Names (t : Turn) (id : ItemId) : Prop :=
  (∃ g ∈ t.signals, g.Names id) ∨ ∃ as, t.reply = .actions as ∧ ∃ a ∈ as, a.Names id

/-- The item is dragged and another drag starts. -/
def Abandoning (op : Op) (b : Board) (id : ItemId) : Prop :=
  (∃ source page, op = .start source page) ∧ ∃ grab p, b.gesture = .item id grab p

def Turn.Abandons (t : Turn) (id : ItemId) : Prop := Abandoning t.op t.before id

section Gone
variable {σ : Type} {w : Surroundings σ} {b : Board} {op : Op} {d : Document} {id : ItemId}

theorem calls_known (hs : d.Sound) {c : Call} (h : Calls b d op c) (hn : c.Names id) :
    (∃ i, d.find? id = some i) ∨ (Abandoning op b id ∧ d = b.document) := by
  cases op with
  | initCanvas page selector =>
    obtain ⟨container, rest, -, hc⟩ := h
    rcases List.mem_cons.mp hc with rfl | hc
    · exact hn.elim
    · exact Or.inl (hs.known_of_warrants (Document.warrants_registration hc) hn)
  | enable page selector =>
    cases c with
    | makeDraggable other box => exact Or.inl (hn ▸ h.1)
    | _ => exact h.elim
  | setBounds bounds =>
    cases c with
    | makeDraggable other box =>
      obtain ⟨-, hw⟩ := h
      exact Or.inl (hs.known_of_warrants (c := .makeDraggable other box) hw hn)
    | _ => exact h.elim
  | remove other =>
    cases c with
    | removeElement another =>
      obtain ⟨rfl, hi⟩ := h
      exact Or.inl (hn ▸ hi)
    | _ => exact h.elim
  | attach eid item role =>
    cases c with
    | addEndpoint e =>
      obtain ⟨rfl, hi⟩ := h
      exact Or.inl (hn ▸ hi)
    | _ => exact h.elim
  | connect cid source target =>
    cases c with
    | connect other s t =>
      obtain ⟨-, hsource, htarget⟩ := h
      obtain ⟨i, hi, -⟩ := hs.holder (Document.endpoint?_some hsource).1
      obtain ⟨j, hj, -⟩ := hs.holder (Document.endpoint?_some htarget).1
      rcases hn with hn | hn
      · exact Or.inl ⟨i, hn ▸ hi⟩
      · exact Or.inl ⟨j, hn ▸ hj⟩
    | _ => exact h.elim
  | start source page =>
    cases c with
    | moveItem other p =>
      obtain ⟨hd, grab, hgesture⟩ := h
      exact Or.inr ⟨⟨⟨source, page, rfl⟩, grab, p, hn ▸ hgesture⟩, hd⟩
    | _ => exact h.elim
  | move page =>
    cases c with
    | moveItem other p => exact Or.inl (hn ▸ h.1)
    | _ => exact h.elim
  | stop page =>
    cases c with
    | moveItem other p => exact Or.inl (hn ▸ h.1)
    | _ => exact h.elim
  | _ => exact h.elim

theorem sends_known (hs : d.Sound) {g : Signal} (h : (b.conduct op).sends d g) (hn : g.Names id) :
    (∃ i, d.find? id = some i) ∨ (Abandoning op b id ∧ d = b.document) := by
  cases g with
  | call c answer => exact calls_known hs h hn
  | note n =>
    cases n with
    | move who m =>
      cases op with
      | stop page => exact Or.inl (hn ▸ h.1)
      | _ => exact h.elim
    | _ => exact hn.elim

theorem sends_gone (hs : d.Sound) (hg : d.Gone id) {g : Signal} (h : (b.conduct op).sends d g)
    (hn : g.Names id) : Abandoning op b id := by
  rcases sends_known hs h hn with ⟨i, hi⟩ | ⟨ha, -⟩
  · cases hg.absent.symm.trans hi
  · exact ha

theorem signals_names (hs : b.document.Sound) (hg : b.document.Gone id) {s : σ} {g : Signal}
    (h : g ∈ (step w.recorded op b ⟨s, []⟩).outside.signals) (hn : g.Names id) :
    Abandoning op b id := by
  let P : Document × Recorded σ → Prop := fun x => x.1.Sound ∧ x.1.Gone id ∧
    ∀ g ∈ x.2.signals, g.Names id → Abandoning op b id
  have hkeep : ∀ {x y}, Effect w.recorded (b.conduct op) x y → P x → P y := by
    intro x y hxy hP
    obtain ⟨hs, hg, hx⟩ := hP
    refine ⟨hxy.sound hs, (hxy.follows hs).gone id hg, ?_⟩
    have hconcat : ∀ (gs : List Signal) (g : Signal), (∀ g ∈ gs, g.Names id → Abandoning op b id) →
        (b.conduct op).sends x.1 g → ∀ g' ∈ gs ++ [g], g'.Names id → Abandoning op b id := by
      intro gs g hgs hsend g' hm hn
      rcases List.mem_append.mp hm with hm | hm
      · exact hgs g' hm hn
      · obtain rfl := List.mem_singleton.mp hm
        exact sends_gone hs hg hsend hn
    cases hxy with
    | noted n hsend => exact hconcat _ _ hx hsend
    | refused hsend hc => exact (Surroundings.recorded_call hc).2 ▸ hconcat _ _ hx hsend
    | told hsend _ hc => exact (Surroundings.recorded_call hc).2 ▸ hconcat _ _ hx hsend
    | resized _ _ => exact hx
    | enabled hsend _ hc => exact (Surroundings.recorded_call hc).2 ▸ hconcat _ _ hx hsend
    | placed hsend hc => exact (Surroundings.recorded_call hc).2 ▸ hconcat _ _ hx hsend
    | slipped hsend hc => exact (Surroundings.recorded_call hc).2 ▸ hconcat _ _ hx hsend
    | inserted _ _ _ _ => exact hx
    | removed hsend _ hc => exact (Surroundings.recorded_call hc).2 ▸ hconcat _ _ hx hsend
    | attached hsend _ _ hc => exact (Surroundings.recorded_call hc).2 ▸ hconcat _ _ hx hsend
  have hend : P _ := (step_trail w.recorded b ⟨s, []⟩ op).keeps hkeep
    ⟨hs, hg, fun g hg => absurd hg List.not_mem_nil⟩
  exact hend.2.2 g h hn

theorem abandon_names {s : σ} {a : Action} (ha : a ∈ (abandon w b s).reply) (hn : a.Names id) :
    ∃ grab p, b.gesture = .item id grab p := by
  rcases abandon_cases w b s with
    ⟨-, hr, -⟩ | ⟨kind, last, -, hr, -⟩ | ⟨other, grab, p, hg, hr, -⟩
  · rw [hr] at ha
    cases ha
  · rw [hr, List.mem_singleton] at ha
    exact (ha ▸ hn).elim
  · rw [hr, List.mem_singleton] at ha
    subst ha
    obtain rfl : other = id := hn
    exact ⟨grab, p, hg⟩

theorem startFresh_names {source : DragSource} {page : Point} {s : σ} {a : Action}
    (ha : a ∈ (startFresh w source page b s).reply) : ¬ a.Names id := by
  rcases startFresh_cases w b s source page with
    ⟨kind, t, -, -, hr, -⟩ | ⟨other, v, i, -, -, -, -, hr, -⟩ | ⟨hr, -⟩
  · rw [hr, List.mem_singleton] at ha
    rw [ha]
    exact fun h => h
  · rw [hr] at ha
    cases ha
  · rw [hr] at ha
    cases ha

theorem contained_names {page grab p : Point} {other : ItemId} (hg : b.document.Gone id)
    (hp : b.containedPosition? other page grab = some p) : other ≠ id := by
  intro he
  subst he
  obtain ⟨i, hi⟩ := containedPosition?_some hp
  rw [hg.absent] at hi
  cases hi

theorem moveDrag_names (hg : b.document.Gone id) {page : Point} {s : σ} {a : Action}
    (ha : a ∈ (moveDrag w page b s).reply) : ¬ a.Names id := by
  rcases moveDrag_cases w b s page with
    ⟨-, hr, -⟩ | ⟨kind, last, -, hr, -⟩ | ⟨other, grab, start, p, -, hp, hr, -⟩ |
      ⟨other, grab, start, -, -, hr, -⟩
  · rw [hr] at ha
    cases ha
  · rw [hr, List.mem_singleton] at ha
    rw [ha]
    exact fun h => h
  · rw [hr, List.mem_singleton] at ha
    rw [ha]
    exact contained_names hg hp
  · rw [hr] at ha
    cases ha

theorem stopDrag_names (hg : b.document.Gone id) {page : Point} {s : σ} {a : Action}
    (ha : a ∈ (stopDrag w page b s).reply) : ¬ a.Names id := by
  rcases stopDrag_cases w b s page with
    ⟨-, hr, -⟩ | ⟨kind, last, -, hr, -⟩ | ⟨other, grab, start, p, -, hp, hr, -⟩ |
      ⟨other, grab, start, -, -, hr, -⟩
  · rw [hr] at ha
    cases ha
  · rw [hr, List.mem_singleton] at ha
    rw [ha]
    exact fun h => h
  · rw [hr, List.mem_singleton] at ha
    rw [ha]
    exact contained_names hg hp
  · rw [hr] at ha
    cases ha

theorem actions_names (hg : b.document.Gone id) {s : σ} {as : List Action}
    (h : (step w op b s).reply = .actions as) {a : Action} (ha : a ∈ as) (hn : a.Names id) :
    Abandoning op b id := by
  cases op with
  | start source page =>
    obtain rfl := Reply.actions.inj h
    rcases List.mem_append.mp ha with ha | ha
    · exact ⟨⟨source, page, rfl⟩, abandon_names ha hn⟩
    · exact absurd hn (startFresh_names ha)
  | move page =>
    obtain rfl := Reply.actions.inj h
    exact absurd hn (moveDrag_names hg ha)
  | stop page =>
    obtain rfl := Reply.actions.inj h
    exact absurd hn (stopDrag_names hg ha)
  | _ =>
    have hnone : [] = as := by
      have hactions := congrArg Reply.toActions h
      rw [step_toActions w b s rfl] at hactions
      exact hactions
    rw [← hnone] at ha
    cases ha

theorem turn_names (hs : b.document.Sound) (hg : b.document.Gone id) (s : σ) :
    (turn w op b s).reply.Names id ↔ (turn w op b s).reply.Abandons id := by
  constructor
  · intro h
    rcases h with ⟨g, hm, hn⟩ | ⟨as, has, a, ha, hn⟩
    · exact signals_names hs hg hm hn
    · exact actions_names hg has ha hn
  · intro h
    obtain ⟨⟨source, page, rfl⟩, grab, p, hgesture⟩ := h
    refine Or.inr ⟨_, rfl, .itemPositioned id p, List.mem_append_left _ ?_, rfl⟩
    have hb : b.gesture = .item id grab p := hgesture
    simp only [abandon, hb]
    exact List.mem_singleton_self _

end Gone

end Board

end DiagramEditor
