import DiagramEditor.Proofs.Board.Canvas

/-! Runs in front of a library in memory that may turn any call down: the library never holds
anything that the document does not have, and holds all of it unless a registration of the canvas
broke off. -/
namespace DiagramEditor.Board

open Wiring (Memory Fallible)

/-- A registration of the canvas that failed after the library had let go of everything. -/
def Turn.tears (t : Turn) : Prop :=
  (∃ page selector, t.op = .initCanvas page selector) ∧ (∃ f, t.reply = .refused f) ∧
    ∃ container, .call (.setContainer container) (.ok ()) ∈ t.signals

/-- A registration of the canvas broke off, and none has succeeded since. -/
def Torn (ts : List Turn) : Prop := Unmended Turn.tears ts

section Run
variable {σ : Type} {w : Surroundings σ} {memory : σ → Memory} {settings : Settings} {b : Board}
  {s : σ}

theorem covers_new (hb : Board.new settings = .ok b) (m : Memory) : m.Covers b.document := by
  rw [(new_ok hb).2.2.1]
  refine ⟨fun e he => absurd he List.not_mem_nil, ?_⟩
  intro id hid
  obtain ⟨i, hi, -⟩ := hid
  cases hi

theorem run_within (hb : Board.new settings = .ok b) (hw : w.Fronts memory)
    (h : (memory s).Within b.document) (ops : List Op) :
    (memory (run w ops b s).outside).Within (run w ops b s).board.document := by
  refine run_induction (P := fun _ o => (memory o.outside).Within o.board.document) h ?_ ops
  intro ops op ih
  exact step_upheld (Memory.within_upheld _) hw.recorded (run_orderly hb w ops s).2.sound ih

theorem turn_covers (hw : w.Fronts memory) {ids : List EndpointId} (ho : b.Orderly ids) {op : Op}
    (hn : (ids ++ op.endpointId?.toList).Nodup) (ht : ¬ (turn w op b s).reply.tears)
    (h : (turn w op b s).reply.mends ∨ (memory s).Covers b.document) :
    (memory (turn w op b s).outside).Covers (turn w op b s).board.document := by
  have hd : b.document.Distinct := ho.distinct (List.nodup_append.mp hn).1
  by_cases hc : ∃ page selector, op = .initCanvas page selector
  · obtain ⟨page, selector, rfl⟩ := hc
    simp only [turn] at ht h ⊢
    rcases initCanvas_reply w.recorded page selector b ⟨s, []⟩ with ⟨r, hr⟩ | ⟨f, hr⟩
    · obtain ⟨container, rest, -, -, hboard, hm⟩ := initCanvas_bounds hw.recorded ho.sound hd hr
      rw [hboard, hm]
      exact Memory.mirror_covers ho.sound hd
    · rw [initCanvas_board hr]
      rcases initCanvas_refused hw hr with hm | ⟨container, hm⟩
      · rw [hm]
        exact h.resolve_left fun hr' => by
          obtain ⟨-, r, hr'⟩ := hr'
          cases hr.symm.trans hr'
      · exact absurd ⟨⟨page, selector, rfl⟩, ⟨f, hr⟩, container, hm⟩ ht
  · have hP := Memory.covers_upheld (ho.attaches_fresh hn)
      (conduct_setContainer fun page selector he => hc ⟨page, selector, he⟩)
    have hm : (memory s).Covers b.document :=
      h.resolve_left fun hr => hc hr.1
    exact (step_upheld hP hw.recorded ho.sound (s := ⟨s, []⟩) ⟨hd, hm⟩).2

theorem run_covers (hb : Board.new settings = .ok b) (hw : w.Fronts memory) {ops : List Op}
    (hf : Fresh ops) (ht : ¬ Torn (run w ops b s).reply) :
    (memory (run w ops b s).outside).Covers (run w ops b s).board.document := by
  refine run_induction (P := fun ops o => Fresh ops → ¬ Torn o.reply →
    (memory o.outside).Covers o.board.document) (fun _ _ => covers_new hb _) ?_ ops hf ht
  intro ops op ih hf ht
  have ho := (run_orderly hb w ops s).2
  have hn : (endpointIds ops ++ op.endpointId?.toList).Nodup := endpointIds_concat ops op ▸ hf
  refine turn_covers hw ho hn (fun h => ht (unmended_concat.mpr (Or.inl h))) ?_
  by_cases hm : (turn w op (run w ops b s).board (run w ops b s).outside).reply.mends
  · exact Or.inl hm
  · exact Or.inr (ih (List.nodup_append.mp hn).1 fun h => ht (unmended_concat.mpr (Or.inr ⟨h, hm⟩)))

theorem step_boxed (hw : w.Carries memory) {ids : List EndpointId} (ho : b.Orderly ids) {op : Op}
    (hn : ids.Nodup) (h : (memory s).Boxed b.document b.surface) :
    (memory (step w op b s).outside).Boxed (step w op b s).board.document
      (step w op b s).board.surface := by
  have hd : b.document.Distinct := ho.distinct hn
  -- An operation that changes the surface resizes every item, so the old size need not last.
  cases hr : op.reframes with
  | true =>
    cases op with
    | initCanvas page selector =>
      rcases initCanvas_reply w page selector b s with ⟨r, hr⟩ | ⟨f, hr⟩
      · obtain ⟨container, rest, -, -, hboard, hm⟩ := initCanvas_bounds hw.toFronts ho.sound hd hr
        rw [hboard, hm]
        exact fun id hid => ⟨_, rfl, Memory.mirror_get?_draggables ho.sound hid⟩
      · rw [initCanvas_board hr, initCanvas_refused_carries hw hr]
        exact h
    | setBounds bounds => exact setBounds_boxed hw bounds h
    | _ => cases hr
  | false =>
    have hc : ∀ page selector, op ≠ .initCanvas page selector := by
      intro page selector he
      subst he
      cases hr
    rw [step_surface w b s hr]
    have hP : (b.conduct op).Upholds fun m d => m.Boxed d b.surface :=
      Memory.boxed_upheld (conduct_setContainer hc) (conduct_makeDraggable hr)
    exact step_upheld hP hw.toFronts ho.sound h

theorem run_boxed (hb : Board.new settings = .ok b) (hw : w.Carries memory) {ops : List Op}
    (hf : Fresh ops) :
    (memory (run w ops b s).outside).Boxed (run w ops b s).board.document
      (run w ops b s).board.surface := by
  have hstart : (memory s).Boxed b.document b.surface := by
    intro id hid
    obtain ⟨i, hi, -⟩ := hid
    rw [(new_ok hb).2.2.1] at hi
    cases hi
  refine run_induction (P := fun ops o => Fresh ops →
    (memory o.outside).Boxed o.board.document o.board.surface) (fun _ => hstart) ?_ ops hf
  intro ops op ih hf
  have hn : (endpointIds ops ++ op.endpointId?.toList).Nodup := endpointIds_concat ops op ▸ hf
  have hids := (List.nodup_append.mp hn).1
  exact step_boxed hw.recorded (run_orderly hb w ops s).2 hids (ih hids)

end Run

/-- Board and library never drift apart, whichever calls fail. -/
theorem library_agrees {settings : Settings} {b : Board} (hb : Board.new settings = .ok b)
    (plan : Nat → Option Fault) (ops : List Op) (hf : Fresh ops) :
    let o := run (Fallible.surroundings plan) ops b .start
    let m := o.outside.memory
    let d := o.board.document
    (∀ id e, m.endpoints.get? id = some e →
      e.id = id ∧ ∃ i, d.find? e.item = some i ∧ e ∈ i.endpoints) ∧
    (∀ id box, m.draggables.get? id = some box → ∃ i, d.find? id = some i ∧ i.draggable = true) ∧
    (¬ Torn o.reply →
      (∀ i ∈ d.items, ∀ e ∈ i.endpoints, e.item = i.id ∧ m.endpoints.get? e.id = some e) ∧
      ∀ i ∈ d.items, i.draggable = true → ∃ box, m.draggables.get? i.id = some box) ∧
    ((∀ n, plan n = none) → ∀ i ∈ d.items, i.draggable = true →
      ∃ surface, o.board.surface = some surface ∧
        m.draggables.get? i.id = some surface.bounds.size) := by
  intro o m d
  have hs : d.Sound := (run_orderly hb _ ops _).2.sound
  have hw : m.Within d := run_within hb (Fallible.fronts plan) (Memory.within_empty _) ops
  refine ⟨?_, ?_, fun ht => ⟨?_, ?_⟩, ?_⟩
  · intro id e he
    obtain ⟨hid, hm⟩ := hw.endpoints (Table.mem_of_get? he)
    exact ⟨hid.symm, hs.holder hm⟩
  · intro id box hbox
    exact hw.draggables (Table.mem_of_get? hbox)
  · intro i hi e he
    have hc : m.Covers d := run_covers hb (Fallible.fronts plan) hf ht
    exact ⟨hs.owned i hi e he, hc.endpoints e (Document.mem_endpoints.mpr ⟨i, hi, he⟩)⟩
  · intro i hi hd
    have hc : m.Covers d := run_covers hb (Fallible.fronts plan) hf ht
    exact Table.has_iff.mp (hc.draggables i.id (hs.draggable_of_mem hi hd))
  · intro hp i hi hd
    exact run_boxed hb (Fallible.carries hp) hf i.id (hs.draggable_of_mem hi hd)

/-- An endpoint whose call failed is on neither side, one whose call went through on both. -/
theorem library_agrees_past_failure :
    let ops : List Op :=
      [.initCanvas sheet "#canvas", .append "Step" ⟨10, 20⟩,
        .attach ⟨1⟩ ⟨"canvasItem0"⟩ .source, .attach ⟨2⟩ ⟨"canvasItem0"⟩ .target]
    let o := run (Fallible.surroundings fun n => if n = 2 then some .canvasNotInitialized else none)
      ops standard .start
    Fresh ops ∧ ¬ Torn o.reply ∧
      o.outside.memory.endpoints = [(⟨1⟩, ⟨⟨1⟩, ⟨"canvasItem0"⟩, .source, .source⟩)] ∧
      (∃ i, o.board.document.find? ⟨"canvasItem0"⟩ = some i ∧
        ⟨⟨1⟩, ⟨"canvasItem0"⟩, .source, .source⟩ ∈ i.endpoints) ∧
      ∀ i ∈ o.board.document.items, ∀ e ∈ i.endpoints,
        e.item = i.id ∧ o.outside.memory.endpoints.get? e.id = some e := by
  intro ops o
  have hagree := library_agrees new_standard
    (fun n => if n = 2 then some .canvasNotInitialized else none) ops (by decide)
  have htorn : ¬ Torn o.reply := by
    intro h
    obtain ⟨past, t, future, h, ⟨⟨page, selector, ho⟩, ⟨f, hr⟩, -⟩, -⟩ := h
    have ht : t ∈ o.reply := by simp [h]
    change t ∈ [_, _, _, _] at ht
    simp only [List.mem_cons, List.not_mem_nil, or_false] at ht
    rcases ht with rfl | rfl | rfl | rfl
    · cases hr
    · cases ho
    · cases ho
    · cases ho
  exact ⟨by decide, htorn, rfl, (hagree.1 ⟨1⟩ _ rfl).2, (hagree.2.2.1 htorn).1⟩

end DiagramEditor.Board
