import DiagramEditor.Proofs.Board.Accord
import DiagramEditor.Proofs.Board.Gestures
import DiagramEditor.Proofs.Wiring.Positions

/-! What is left of an item after its removal. Nothing is, but for one thing: a drag of it that
another drag abandons still puts it back, on the page and in the library. -/
namespace DiagramEditor.Board

open Wiring (Call Memory Fallible)

/-- An item that is no longer there is put back. -/
def Straying (op : Op) (b : Board) (id : ItemId) : Prop :=
  Abandoning op b id ∧ b.document.find? id = none

def Turn.strays (t : Turn) (id : ItemId) : Prop := Straying t.op t.before id

/-- An item that was gone was put back, and no registration of the canvas has succeeded since. -/
def Strayed (ts : List Turn) (id : ItemId) : Prop := Unmended (fun t => t.strays id) ts

section Gesture
variable {σ : Type} (w : Surroundings σ) (b : Board) (s : σ) {id : ItemId} {grab p : Point}

theorem startFresh_gesture {source : DragSource} {page : Point}
    (h : (startFresh w source page b s).board.gesture = .item id grab p) :
    (startFresh w source page b s).board.document.Draggable id := by
  rcases startFresh_cases w b s source page with
    ⟨kind, t, -, -, -, hb⟩ | ⟨other, v, i, -, -, hi, hd, -, hb⟩ | ⟨-, hb⟩
  · rw [hb] at h
    cases h
  · rw [hb] at h ⊢
    obtain ⟨rfl, -, -⟩ := Gesture.item.inj h
    exact ⟨i, hi, hd⟩
  · rw [hb] at h
    cases h

theorem step_gesture {op : Op} (h : (step w op b s).board.gesture = .item id grab p) :
    b.gesture = .item id grab p ∨ (step w op b s).board.document.Draggable id := by
  cases op with
  | start source page => exact Or.inr (startFresh_gesture w _ _ h)
  | move page =>
    rcases moveDrag_cases w b s page with
      ⟨-, -, hb⟩ | ⟨kind, last, -, -, hb⟩ | ⟨other, grab', start, q, -, -, -, hb⟩ |
        ⟨other, grab', start, -, -, -, hb⟩
    · rw [step, answer, hb] at h
      exact Or.inl h
    · rw [step, answer, hb] at h
      cases h
    · rw [step, answer, hb] at h
      exact Or.inl h
    · rw [step, answer, hb] at h
      cases h
  | stop page =>
    rw [step, answer, stopDrag_idle] at h
    cases h
  | _ =>
    rw [(step_keeps w b s _).gesture rfl] at h
    exact Or.inl h

end Gesture

section Positions
variable {σ : Type} {w : Surroundings σ} {memory : σ → Memory} {b : Board} {s : σ} {op : Op}

theorem startFresh_memory (hw : w.Fronts memory) (source : DragSource) (page : Point) :
    memory (startFresh w source page b s).outside = memory s := by
  cases source with
  | foreign => rfl
  | template kind =>
    simp only [startFresh, startTemplate, noteStart]
    repeat' split
    all_goals simp only [Surroundings.log, hw.note]
  | item id =>
    simp only [startFresh, startItem]
    repeat' split
    all_goals simp only [Surroundings.log, hw.note]

theorem step_minted {id : ItemId} (hm : b.document.Minted id) :
    (step w op b s).board.document.Minted id :=
  (step_trail w b s op).keeps (P := fun x => x.1.Minted id) Effect.minted hm

theorem abandon_held (hw : w.Carries memory) {id : ItemId} (h : Abandoning op b id) :
    (memory (step w op b s).outside).positions.has id = true := by
  obtain ⟨⟨source, page, rfl⟩, grab, p, hg⟩ := h
  have hm : memory (step w (.start source page) b s).outside = memory (abandon w b s).outside :=
    startFresh_memory hw.toFronts source page
  rw [hm]
  simp only [abandon, hg, place]
  split
  · next s' hc =>
    rw [hw.toFronts.memory_eq hc rfl]
    exact Table.has_set (Or.inl rfl)
  · next f s' hc => cases hw.carried hc

/-- The library's positions are in order, up to those of the strays. -/
structure Charted (b : Board) (m : Memory) (strays : ItemId → Prop) : Prop where
  dragged : ∀ id grab p, b.gesture = .item id grab p → b.document.Minted id
  places : m.Places b.document strays
  gone : ∀ id, strays id → b.document.Gone id
  held : ∀ id, strays id → m.positions.has id = true

theorem Charted.congr {m : Memory} {strays others : ItemId → Prop} (h : Charted b m strays)
    (hs : ∀ id, strays id ↔ others id) : Charted b m others := by
  obtain rfl : strays = others := funext fun id => propext (hs id)
  exact h

theorem step_places (hw : w.Carries memory) (hs : b.document.Sound) {strays : ItemId → Prop}
    (h : (memory s).Places b.document strays) (hm : ∀ id, strays id → b.document.Minted id)
    (hmore : ∀ id, Straying op b id → strays id) :
    (memory (step w op b s).outside).Places (step w op b s).board.document strays := by
  have hmove : ∀ {d id p}, d.Sound → (b.conduct op).sends d (.call (.moveItem id p) (.ok ())) →
      (∃ i, d.find? id = some i) ∨ strays id := by
    intro d id p hs hsend
    rcases sends_known hs hsend rfl with hi | ⟨ha, rfl⟩
    · exact Or.inl hi
    · cases hf : b.document.find? id with
      | none => exact Or.inr (hmore id ⟨ha, hf⟩)
      | some i => exact Or.inl ⟨i, rfl⟩
  have hend := (step_trail w b s op).keeps
    (P := fun x => x.1.Sound ∧ (∀ id, strays id → x.1.Minted id) ∧ (memory x.2).Places x.1 strays)
    (fun hxy ⟨hs, hm, hx⟩ =>
      ⟨hxy.sound hs, fun id hid => hxy.minted (hm id hid), hxy.places hw hs hmove hm hx⟩)
    ⟨hs, hm, h⟩
  exact hend.2.2

theorem step_held (hw : w.Fronts memory) (hs : b.document.Sound) {id : ItemId}
    (hc : ∀ page selector, op ≠ .initCanvas page selector) (hg : b.document.Gone id)
    (h : (memory s).positions.has id = true) :
    (memory (step w op b s).outside).positions.has id = true := by
  have hend := (step_trail w b s op).keeps
    (P := fun x => x.1.Sound ∧ x.1.Gone id ∧ (memory x.2).positions.has id = true)
    (fun hxy ⟨hs, hg, hx⟩ =>
      ⟨hxy.sound hs, (hxy.follows hs).gone id hg, hxy.held hw (conduct_setContainer hc) hg hx⟩)
    ⟨hs, hg, h⟩
  exact hend.2.2

theorem Charted.step (hw : w.Carries memory) (hs : b.document.Sound) {strays : ItemId → Prop}
    (h : Charted b (memory s) strays) (hc : ∀ page selector, op ≠ .initCanvas page selector) :
    Charted (step w op b s).board (memory (step w op b s).outside) fun id =>
      Straying op b id ∨ strays id := by
  have hs' : (Board.step w op b s).board.document.Sound := step_sound hs
  have hgone : ∀ id, Straying op b id ∨ strays id → b.document.Gone id := by
    intro id hid
    rcases hid with ⟨⟨-, grab, p, hg⟩, hf⟩ | hstray
    · exact ⟨h.dragged id grab p hg, hf⟩
    · exact h.gone id hstray
  refine ⟨?_, ?_, fun id hid => (step_follows hs).gone id (hgone id hid), ?_⟩
  · intro id grab p hg
    rcases step_gesture w b s hg with hg | ⟨i, hi, -⟩
    · exact step_minted (h.dragged id grab p hg)
    · exact Document.find?_id hi ▸ hs'.minted i (Document.mem_of_find? hi)
  · have hp : (memory s).Places b.document fun id => Straying op b id ∨ strays id :=
      h.places.mono fun _ => Or.inr
    exact step_places hw hs hp (fun id hid => (hgone id hid).minted) fun _ => Or.inl
  · intro id hid
    rcases hid with ⟨ha, -⟩ | hstray
    · exact abandon_held hw ha
    · exact step_held hw.toFronts hs hc (h.gone id hstray) (h.held id hstray)

theorem Charted.turn (hw : w.Carries memory) (hs : b.document.Sound) {strays : ItemId → Prop}
    (h : Charted b (memory s) strays) :
    let u := turn w op b s
    Charted u.board (memory u.outside) fun id =>
      u.reply.strays id ∨ (strays id ∧ ¬ u.reply.mends) := by
  intro u
  -- A registration that is carried out clears the strays, one that is refused changes nothing.
  by_cases hc : ∃ page selector, op = .initCanvas page selector
  · obtain ⟨page, selector, rfl⟩ := hc
    have hstray : ∀ id, ¬ u.reply.strays id := by
      intro id hid
      obtain ⟨⟨⟨source, p, ho⟩, -⟩, -⟩ := hid
      cases ho
    rcases initCanvas_reply w.recorded page selector b ⟨s, []⟩ with ⟨r, hr⟩ | ⟨f, hr⟩
    · have hmends : u.reply.mends := ⟨⟨page, selector, rfl⟩, r, hr⟩
      obtain ⟨container, rest, s', e, -, -, hcalls, hstep⟩ := initCanvas_ok hr
      have hm := Wiring.callAll_fronts hw.toFronts.recorded hcalls
      have hboard : u.board = { b with surface := some ⟨selector, r⟩ } :=
        congrArg Outcome.board hstep
      have hmem : memory u.outside = memory s'.inner := by
        simp only [u, Board.turn, hstep, Surroundings.log, hw.recorded.note]
      rw [hboard, hmem]
      have hnone : ∀ id, ¬ (u.reply.strays id ∨ (strays id ∧ ¬ u.reply.mends)) := by
        intro id hid
        rcases hid with hid | hid
        · exact hstray id hid
        · exact hid.2 hmends
      exact ⟨h.dragged, Memory.places_canvasCalls hs hm, fun id hid => absurd hid (hnone id),
        fun id hid => absurd hid (hnone id)⟩
    · have hmends : ¬ u.reply.mends := by
        intro hm
        obtain ⟨-, r, hr'⟩ := hm
        cases hr.symm.trans hr'
      have hboard : u.board = b := initCanvas_board hr
      have hout : u.outside = s :=
        congrArg Recorded.inner (initCanvas_refused_carries hw.recorded hr)
      rw [hboard, hout]
      exact h.congr fun id => by simp [hstray id, hmends]
  · have hmends : ¬ u.reply.mends := fun hm => hc hm.1
    have hne : ∀ page selector, op ≠ .initCanvas page selector := fun page selector he =>
      hc ⟨page, selector, he⟩
    have hstep := h.step hw.recorded hs (s := ⟨s, []⟩) hne
    exact hstep.congr fun id => or_congr Iff.rfl (and_iff_left hmends).symm

theorem run_charted {settings : Settings} (hb : Board.new settings = .ok b) (hw : w.Carries memory)
    (h : memory s = .empty) (ops : List Op) :
    Charted (run w ops b s).board (memory (run w ops b s).outside)
      (Strayed (run w ops b s).reply) := by
  have hstart : Charted b (memory s) (Strayed []) := by
    obtain ⟨-, -, -, hg, -⟩ := new_ok hb
    refine ⟨fun id grab p hd => ?_, h ▸ Memory.places_empty _ _, ?_, ?_⟩
    · cases hg.symm.trans hd
    · exact fun id hid => absurd hid (not_unmended_nil _)
    · exact fun id hid => absurd hid (not_unmended_nil _)
  refine run_induction (P := fun _ o => Charted o.board (memory o.outside) (Strayed o.reply))
    hstart ?_ ops
  intro ops op ih
  have hs := (run_orderly hb w ops s).2.sound
  exact (ih.turn hw hs).congr fun id => (unmended_concat (P := fun t => t.strays id)).symm

end Positions

def Turn.removes (t : Turn) (id : ItemId) : Prop := t.op = .remove id ∧ ∃ i, t.reply = .removed i

section Removal
variable {σ : Type} {w : Surroundings σ} {b : Board} {s : σ} {op : Op} {id : ItemId}

theorem remove_gone (hs : b.document.Sound) {i : Item}
    (h : (step w (.remove id) b s).reply = .removed i) :
    (step w (.remove id) b s).board.document.Gone id := by
  simp only [step, answer] at h ⊢
  rcases removeItem_cases w b s id with ⟨-, ho⟩ | ⟨j, hj, ⟨f, s', -, ho⟩ | ⟨s', -, ho⟩⟩
  · rw [ho] at h
    cases h
  · rw [ho] at h
    cases h
  · rw [ho]
    exact hs.gone_remove hj

theorem run_removed {settings : Settings} (hb : Board.new settings = .ok b) (ops : List Op) :
    (run w ops b s).reply.Pairwise
      (fun t u => ∀ id, t.removes id → (u.Names id ↔ u.Abandons id)) ∧
    ∀ t ∈ (run w ops b s).reply, ∀ id, t.removes id →
      (run w ops b s).board.document.Gone id := by
  refine run_induction (P := fun _ o => o.reply.Pairwise
    (fun t u => ∀ id, t.removes id → (u.Names id ↔ u.Abandons id)) ∧
      ∀ t ∈ o.reply, ∀ id, t.removes id → o.board.document.Gone id)
    ⟨List.Pairwise.nil, fun _ ht => absurd ht List.not_mem_nil⟩ ?_ ops
  intro ops op ih
  obtain ⟨hpair, hgone⟩ := ih
  have hs := (run_orderly hb w ops s).2.sound
  refine ⟨List.pairwise_append.mpr ⟨hpair, List.pairwise_singleton _ _, ?_⟩, ?_⟩
  · intro t ht u hu id hid
    obtain rfl := List.mem_singleton.mp hu
    exact turn_names hs (hgone t ht id hid) _
  · intro t ht id hid
    rcases List.mem_append.mp ht with ht | ht
    · exact (step_follows hs).gone id (hgone t ht id hid)
    · obtain rfl := List.mem_singleton.mp ht
      obtain ⟨rfl, i, hi⟩ := hid
      exact remove_gone hs hi

end Removal

/-- A removed item leaves no trace, but for drags of it that are abandoned. -/
theorem removal_leaves_no_trace {settings : Settings} {b : Board} (hb : Board.new settings = .ok b)
    (plan : Nat → Option Fault) (ops : List Op) :
    let o := run (Fallible.surroundings plan) ops b .start
    let m := o.outside.memory
    let d := o.board.document
    o.reply.Pairwise (fun t u => ∀ id, t.removes id → (u.Names id ↔ u.Abandons id)) ∧
    (∀ id box, m.draggables.get? id = some box → ∃ i, d.find? id = some i) ∧
    (∀ id e, m.endpoints.get? id = some e → ∃ i, d.find? e.item = some i) ∧
    ((∀ n, plan n = none) →
      (∀ id i p, d.find? id = some i → m.positions.get? id = some p → i.position = p) ∧
      ∀ id, d.find? id = none → ((∃ p, m.positions.get? id = some p) ↔ Strayed o.reply id)) := by
  intro o m d
  have hs : d.Sound := (run_orderly hb _ ops _).2.sound
  have hw : m.Within d := run_within hb (Fallible.fronts plan) (Memory.within_empty _) ops
  refine ⟨(run_removed hb ops).1, ?_, ?_, fun hplan => ?_⟩
  · intro id box hbox
    obtain ⟨i, hi, -⟩ := hw.draggables (Table.mem_of_get? hbox)
    exact ⟨i, hi⟩
  · intro id e he
    obtain ⟨i, hi, -⟩ := hs.holder (hw.endpoints (Table.mem_of_get? he)).2
    exact ⟨i, hi⟩
  · have hc : Charted o.board m (Strayed o.reply) := run_charted hb (Fallible.carries hplan) rfl ops
    refine ⟨?_, ?_⟩
    · intro id i p hi hp
      rcases hc.places id p hp with ⟨j, hj, rfl⟩ | ⟨hn, -⟩
      · rw [Option.some.inj (hi.symm.trans hj)]
      · cases hi.symm.trans hn
    · intro id hn
      constructor
      · intro hheld
        obtain ⟨p, hp⟩ := hheld
        rcases hc.places id p hp with ⟨j, hj, -⟩ | ⟨-, hstray⟩
        · cases hn.symm.trans hj
        · exact hstray
      · exact fun hstray => Table.has_iff.mp (hc.held id hstray)

/-- An item that is removed while it is dragged does not follow the pointer any more. -/
theorem removal_leaves_no_trace_on_move :
    let ops : List Op :=
      [.initCanvas sheet "#canvas", .append "Step" ⟨10, 20⟩, .enable sheet ".canvas-item",
        .start (.item ⟨"canvasItem0"⟩) ⟨15, 25⟩, .remove ⟨"canvasItem0"⟩, .move ⟨40, 40⟩]
    let o := run (Fallible.surroundings fun _ => none) ops standard .start
    o.board.document.find? ⟨"canvasItem0"⟩ = none ∧
      ∃ t u, o.reply[4]? = some t ∧ o.reply[5]? = some u ∧ t.removes ⟨"canvasItem0"⟩ ∧
        ¬ u.Names ⟨"canvasItem0"⟩ := by
  intro ops o
  refine ⟨rfl, _, _, rfl, rfl, ⟨rfl, _, rfl⟩, fun hnames => ?_⟩
  have htrace := (removal_leaves_no_trace new_standard (fun _ => none) ops).1
  have hpair := List.pairwise_iff_getElem.mp htrace 4 5 (by decide) (by decide) (by decide)
  obtain ⟨⟨source, page, ho⟩, -⟩ := (hpair ⟨"canvasItem0"⟩ ⟨rfl, _, rfl⟩).mp hnames
  have hmove : Op.move ⟨40, 40⟩ = .start source page := ho
  cases hmove

/-- An item that is removed while it is dragged is put back when another drag starts. -/
theorem abandoned_drag_restores_removed_item :
    let ops : List Op :=
      [.initCanvas sheet "#canvas", .append "Step" ⟨10, 20⟩, .enable sheet ".canvas-item",
        .start (.item ⟨"canvasItem0"⟩) ⟨15, 25⟩, .remove ⟨"canvasItem0"⟩, .start .foreign ⟨0, 0⟩]
    let o := run (Fallible.surroundings fun _ => none) ops standard .start
    ¬ o.reply.Pairwise (fun t u => ∀ id, t.removes id → ¬ u.Names id) ∧
      o.board.document.find? ⟨"canvasItem0"⟩ = none ∧
      o.outside.memory.positions.get? ⟨"canvasItem0"⟩ = some ⟨10, 20⟩ := by
  intro ops o
  refine ⟨fun h => ?_, rfl, rfl⟩
  have hpair := List.pairwise_iff_getElem.mp h 4 5 (by decide) (by decide) (by decide)
  have hnames : (o.reply.get ⟨5, by decide⟩).Names ⟨"canvasItem0"⟩ :=
    Or.inr ⟨_, rfl, _, List.mem_singleton_self _, rfl⟩
  exact hpair ⟨"canvasItem0"⟩ ⟨rfl, _, rfl⟩ hnames

end DiagramEditor.Board
