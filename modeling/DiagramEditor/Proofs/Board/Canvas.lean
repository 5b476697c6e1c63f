import DiagramEditor.Proofs.Board.Orderly
import DiagramEditor.Proofs.Wiring.Agreement
import DiagramEditor.Proofs.Wiring.Mirror

/-! What the two operations that put a canvas or its bounds in place do to a library in memory. -/
namespace DiagramEditor

open Wiring (Call Library Memory)

namespace Wiring.Memory

section Mirror
variable {d : Document} {container : Option String} {box : Size}

theorem mirror_get?_endpoints (hn : d.Distinct) {e : Endpoint} (he : e ∈ d.endpoints) :
    (mirror container box d.items).endpoints.get? e.id = some e :=
  Table.get?_map (f := fun e : Endpoint => e.id) (g := fun e => e) he fun _ hf hid =>
    List.inj_on_of_nodup_map hn hf he hid

theorem mirror_get?_draggables (hs : d.Sound) {id : ItemId} (h : d.Draggable id) :
    (mirror container box d.items).draggables.get? id = some box := by
  obtain ⟨i, hi, hd⟩ := h
  obtain rfl := Document.find?_id hi
  have hm : i ∈ d.items.filter (·.draggable) := List.mem_filter.mpr ⟨Document.mem_of_find? hi, hd⟩
  exact Table.get?_map (f := fun i : Item => i.id) (g := fun _ => box) hm fun j hj hid =>
    Document.eq_of_nodup hs.ids_nodup (List.mem_filter.mp hj).1 (Document.mem_of_find? hi) hid

theorem mirror_covers (hs : d.Sound) (hn : d.Distinct) :
    (mirror container box d.items).Covers d where
  endpoints := fun _ he => mirror_get?_endpoints hn he
  draggables := fun _ h => Table.has_iff.mpr ⟨box, mirror_get?_draggables hs h⟩

end Mirror

theorem call_canvasCalls_ok (container : Element) (d : Document) (m : Memory) :
    ∃ m', Library.callAll call (Board.canvasCalls container d) m = (.ok (), m') := by
  refine callAll_ok (fun c hc m => ?_) m
  rcases List.mem_cons.mp hc with rfl | hc
  · exact ⟨_, rfl⟩
  · cases c with
    | connect id s t =>
      obtain ⟨i, -, hc⟩ := List.mem_flatMap.mp hc
      rw [Board.registration] at hc
      split at hc <;> simp at hc
    | _ => exact ⟨_, rfl⟩

theorem call_resize (items : List Item) (box : Size) (m : Memory) :
    ∃ m', Library.callAll call (items.map fun i => .makeDraggable i.id box) m = (.ok (), m') ∧
      ∀ id, (m.draggables.get? id = some box ∨ ∃ i ∈ items, i.id = id) →
        m'.draggables.get? id = some box := by
  induction items generalizing m with
  | nil => exact ⟨m, rfl, fun id h => h.resolve_right (by simp)⟩
  | cons i rest ih =>
    obtain ⟨m', hm, hg⟩ := ih { m with draggables := m.draggables.set i.id box }
    refine ⟨m', hm, fun id h => hg id ?_⟩
    rw [Table.get?_set]
    by_cases hid : id = i.id
    · exact Or.inl (if_pos hid)
    · rw [if_neg hid]
      rcases h with h | ⟨j, hj, rfl⟩
      · exact Or.inl h
      · rcases List.mem_cons.mp hj with rfl | hj
        · exact absurd rfl hid
        · exact Or.inr ⟨j, hj, rfl⟩

end Wiring.Memory

theorem Surroundings.recorded_signals {σ : Type} (w : Surroundings σ) (calls : List Call)
    {s : Recorded σ} {g : Signal} (hg : g ∈ s.signals) :
    g ∈ (Library.callAll w.recorded.call calls s).2.signals := by
  induction calls generalizing s with
  | nil => exact hg
  | cons c rest ih =>
    rw [Library.callAll]
    split
    · next f s' h =>
      rw [(recorded_call h).2]
      exact List.mem_append_left _ hg
    · next s' h =>
      apply ih
      rw [(recorded_call h).2]
      exact List.mem_append_left _ hg

namespace Board

variable {σ : Type} {w : Surroundings σ} {memory : σ → Memory} {b : Board} {s : σ} {page : Page}
  {selector : String}

theorem initCanvas_reply (w : Surroundings σ) (page : Page) (selector : String) (b : Board)
    (s : σ) :
    (∃ r, (step w (.initCanvas page selector) b s).reply = .bounds r) ∨
      ∃ f, (step w (.initCanvas page selector) b s).reply = .refused f := by
  simp only [step, answer]
  cases (initCanvas w page selector b s).reply with
  | error f => exact Or.inr ⟨f, rfl⟩
  | ok r => exact Or.inl ⟨r, rfl⟩

theorem initCanvas_ok {r : Rect} (h : (step w (.initCanvas page selector) b s).reply = .bounds r) :
    ∃ container rest s' e, page selector = .ok (container :: rest) ∧ container.rect = r ∧
      Library.callAll w.call (canvasCalls container b.document) s = (.ok (), s') ∧
      step w (.initCanvas page selector) b s =
        ⟨.bounds r, { b with surface := some ⟨selector, r⟩ }, w.log e s'⟩ := by
  simp only [step, answer, initCanvas] at h ⊢
  cases hp : page selector with
  | error f => simp [hp, Reply.ofExcept] at h
  | ok elements =>
    cases elements with
    | nil => simp [hp, Reply.ofExcept] at h
    | cons container rest =>
      simp only [hp] at h ⊢
      split at h
      · cases h
      · next s' hc =>
        obtain rfl : container.rect = r := Reply.bounds.inj h
        exact ⟨container, rest, s', _, rfl, rfl, hc, rfl⟩

theorem initCanvas_bounds (hw : w.Fronts memory) (hs : b.document.Sound) (hn : b.document.Distinct)
    {r : Rect} (h : (step w (.initCanvas page selector) b s).reply = .bounds r) :
    ∃ container rest, page selector = .ok (container :: rest) ∧ container.rect = r ∧
      (step w (.initCanvas page selector) b s).board = { b with surface := some ⟨selector, r⟩ } ∧
      memory (step w (.initCanvas page selector) b s).outside =
        Memory.mirror (some (container.id.getD container.tag)) r.size b.document.items := by
  obtain ⟨container, rest, s', e, hp, rfl, hc, hstep⟩ := initCanvas_ok h
  have hm := Wiring.callAll_fronts hw hc
  rw [Memory.call_canvasCalls hs.ids_nodup hn] at hm
  refine ⟨container, rest, hp, rfl, by rw [hstep], ?_⟩
  rw [hstep, Surroundings.log, hw.note]
  exact (Prod.mk.inj hm).2.symm

theorem initCanvas_board {f : Fault}
    (h : (step w (.initCanvas page selector) b s).reply = .refused f) :
    (step w (.initCanvas page selector) b s).board = b := by
  rw [step_attempt w rfl] at h ⊢
  exact attempt_board w h

theorem initCanvas_refused (hw : w.Fronts memory) {s : Recorded σ} {f : Fault}
    (h : (step w.recorded (.initCanvas page selector) b s).reply = .refused f) :
    memory (step w.recorded (.initCanvas page selector) b s).outside.inner = memory s.inner ∨
      ∃ container, .call (.setContainer container) (.ok ()) ∈
        (step w.recorded (.initCanvas page selector) b s).outside.signals := by
  simp only [step, answer, initCanvas] at h ⊢
  cases hp : page selector with
  | error f => exact Or.inl rfl
  | ok elements =>
    cases elements with
    | nil => exact Or.inl rfl
    | cons container rest =>
      simp only [hp] at h ⊢
      cases hc : Library.callAll w.recorded.call (canvasCalls container b.document) s with
      | mk answer s' =>
        cases answer with
        | ok _ => simp [hc, Reply.ofExcept] at h
        | error g =>
          rw [canvasCalls, Library.callAll] at hc
          split at hc
          · next g' t ht =>
            obtain ⟨-, rfl⟩ := Prod.mk.inj hc
            exact Or.inl (hw.recorded.refused ht)
          · next t ht =>
            have hg : Signal.call (.setContainer container) (.ok ()) ∈ t.signals := by
              rw [(Surroundings.recorded_call ht).2]
              exact List.mem_append_right _ (List.mem_singleton_self _)
            have hm := w.recorded_signals
              (b.document.items.flatMap (registration container.rect.size)) hg
            rw [hc] at hm
            exact Or.inr ⟨container, hm⟩

theorem initCanvas_carries (hw : w.Carries memory) {container : Element} {rest : List Element}
    (hp : page selector = .ok (container :: rest)) (b : Board) (s : σ) :
    (step w (.initCanvas page selector) b s).reply = .bounds container.rect := by
  obtain ⟨m, hm⟩ := Memory.call_canvasCalls_ok container b.document (memory s)
  obtain ⟨s', hc, -⟩ := Wiring.callAll_carries hw hm
  simp only [step, answer, initCanvas, hp, hc]
  rfl

theorem initCanvas_refused_carries (hw : w.Carries memory) {f : Fault}
    (h : (step w (.initCanvas page selector) b s).reply = .refused f) :
    (step w (.initCanvas page selector) b s).outside = s := by
  cases hp : page selector with
  | error f => simp only [step, answer, initCanvas, hp]
  | ok elements =>
    cases elements with
    | nil => simp only [step, answer, initCanvas, hp]
    | cons container rest =>
      rw [initCanvas_carries hw hp] at h
      cases h

theorem setBounds_boxed (hw : w.Carries memory) (bounds : Rect)
    (h : (memory s).Boxed b.document b.surface) :
    (memory (step w (.setBounds bounds) b s).outside).Boxed
      (step w (.setBounds bounds) b s).board.document
      (step w (.setBounds bounds) b s).board.surface := by
  simp only [step, answer, setBounds]
  cases hv : b.surface with
  | none =>
    rw [hv] at h
    simp only [hv]
    exact h
  | some surface =>
    obtain ⟨m, hm, hg⟩ :=
      Memory.call_resize (b.document.items.filter (·.draggable)) bounds.size (memory s)
    obtain ⟨s', hc, rfl⟩ := Wiring.callAll_carries hw hm
    simp only [hc, Surroundings.log, hw.note]
    intro id hid
    obtain ⟨i, hi, hd⟩ := hid
    refine ⟨_, rfl, hg id (Or.inr ⟨i, ?_, Document.find?_id hi⟩)⟩
    exact List.mem_filter.mpr ⟨Document.mem_of_find? hi, hd⟩

end Board

end DiagramEditor
