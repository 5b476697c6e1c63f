import DiagramEditor.Proofs.Board.Dragging

/-! Events along a run. A template that is released where its canvas takes it raises one placement,
an item that is released raises one move with its index at that time, and nothing else raises
any. -/
namespace DiagramEditor

open Wiring (Fallible)

namespace Bus
variable {η : Type}

structure Ordered (bus : Bus η) : Prop where
  rising : (bus.live.map (·.1)).Pairwise (· < ·)
  below : ∀ n ∈ bus.live.map (·.1), n < bus.next

theorem ordered_empty : (empty : Bus η).Ordered :=
  ⟨List.Pairwise.nil, fun _ hn => absurd hn List.not_mem_nil⟩

theorem Ordered.subscribe {bus : Bus η} (h : bus.Ordered) (who : η) :
    (bus.subscribe who).2.Ordered where
  rising := by
    simp only [Bus.subscribe, List.map_append, List.map_cons, List.map_nil]
    refine List.pairwise_append.mpr ⟨h.rising, List.pairwise_singleton _ _, ?_⟩
    intro n hn m hm
    rw [List.mem_singleton.mp hm]
    exact h.below n hn
  below := by
    intro n hn
    simp only [Bus.subscribe, List.map_append, List.map_cons, List.map_nil, List.mem_append,
      List.mem_singleton] at hn ⊢
    rcases hn with hn | rfl
    · exact Nat.lt_succ_of_lt (h.below n hn)
    · exact Nat.lt_succ_self _

theorem Ordered.unsubscribe {bus : Bus η} (h : bus.Ordered) (id : Nat) :
    (bus.unsubscribe id).2.Ordered where
  rising := h.rising.sublist (List.filter_sublist.map _)
  below n hn := h.below n ((List.filter_sublist.map _).subset hn)

end Bus

namespace Board

def Turn.enrol (live : List (Nat × Subscriber)) (t : Turn) : List (Nat × Subscriber) :=
  match t.op, t.reply with
  | .onPlacement who, .subscribed id => live ++ [(id, who)]
  | .offPlacement id, _ => live.filter fun s => s.1 != id
  | _, _ => live

/-- The ids of the items in order after a turn, given those before it. -/
def Turn.replay (ids : List ItemId) (t : Turn) : List ItemId :=
  match t.op, t.reply with
  | .insert index _ _, .placed id => ids.insertIdx index id
  | .append _ _, .placed id => ids ++ [id]
  | .remove id, .removed _ => ids.erase id
  | _, _ => ids

def Op.rearranges : Op → Bool
  | .append _ _ | .insert _ _ _ | .remove _ => true
  | _ => false

section Step
variable {σ : Type} (w : Surroundings σ) (op : Op) (b : Board) (s : σ)

theorem turn_placements : let t := (turn w op b s).reply
    t.after.placements.live = t.enrol b.placements.live ∧
      (b.placements.Ordered → t.after.placements.Ordered) := by
  intro t
  cases op with
  | onPlacement who => exact ⟨rfl, fun h => h.subscribe who⟩
  | offPlacement n => exact ⟨rfl, fun h => h.unsubscribe n⟩
  | _ =>
    have hkept : t.after.placements = b.placements :=
      (step_keeps w.recorded b ⟨s, []⟩ _).placements rfl
    rw [hkept]
    exact ⟨rfl, id⟩

section Lasts
variable {w op b s} {α : Type} {g : Document → α} (hg : Document.Lasts g)
include hg

theorem gesture_lasts (h : op.isGesture = true) :
    g (step w op b s).board.document = g b.document := by
  cases op with
  | start source page =>
    have hfresh : (startDrag w source page b s).board.document =
        (abandon w b s).board.document :=
      startFresh_document w (abandon w b s).board (abandon w b s).outside source page
    refine (congrArg g hfresh).trans ?_
    rcases abandon_cases w b s with
      ⟨-, -, hb⟩ | ⟨kind, last, -, -, hb⟩ | ⟨id, grab, p, -, -, hb⟩
    · rw [hb]
    · rw [hb]
    · rw [hb, hg.setPosition]
  | move page =>
    rcases moveDrag_cases w b s page with
      ⟨-, -, hb⟩ | ⟨kind, last, -, -, hb⟩ | ⟨id, grab, start, p, -, -, -, hb⟩ |
        ⟨id, grab, start, -, -, -, hb⟩
    · rw [step, answer, hb]
    · rw [step, answer, hb]
    · rw [step, answer, hb, hg.setPosition]
    · rw [step, answer, hb]
  | stop page =>
    rcases stopDrag_cases w b s page with
      ⟨-, -, hb⟩ | ⟨kind, last, -, -, hb⟩ | ⟨id, grab, start, p, -, -, -, hb⟩ |
        ⟨id, grab, start, -, -, -, hb⟩
    · rw [step, answer, hb]
    · rw [step, answer, hb]
    · rw [step, answer, hb, hg.setPosition]
    · rw [step, answer, hb]
  | _ => cases h

theorem enableAll_lasts (box : Size) (count : Nat) (elements : List Element) (d : Document) :
    g (enableAll w box count elements d s).2.1 = g d := by
  induction elements generalizing count d s with
  | nil => rfl
  | cons e rest ih =>
    rw [enableAll]
    split
    · exact ih _ _
    · next i _ =>
      have hm : g (d.update i.id (measured e.rect)) = g d := hg d i.id _ (measured_id e.rect)
      dsimp only
      split
      · exact hm
      · have he := hg (d.update i.id (measured e.rect)) i.id Item.enable fun _ => rfl
        exact (ih _ _).trans (he.trans hm)

theorem step_lasts (h : op.rearranges = false) :
    g (step w op b s).board.document = g b.document := by
  cases op with
  | start source page => exact gesture_lasts hg rfl
  | move page => exact gesture_lasts hg rfl
  | stop page => exact gesture_lasts hg rfl
  | append kind p => cases h
  | insert index kind p => cases h
  | remove id => cases h
  | attach eid item role =>
    simp only [step, answer, attach]
    split
    · rfl
    · split
      · rfl
      · exact hg _ _ _ fun _ => rfl
  | enable page selector =>
    simp only [step, answer, enableDragging]
    split
    · rfl
    · next v _ =>
      split
      · rfl
      · next elements _ =>
        have hall := enableAll_lasts (w := w) (s := s) hg v.bounds.size 0 elements b.document
        split
        · next he => rw [← hall, he]
        · next he => rw [← hall, he]
  | _ =>
    simp only [step, answer, initPalette, initCanvas, setBounds, connect]
    repeat' split
    all_goals rfl

end Lasts

theorem turn_ids : let t := (turn w op b s).reply
    t.after.document.ids = t.replay b.document.ids := by
  intro t
  cases op with
  | append kind p => exact Document.ids_push _ _
  | insert index kind p =>
    rcases insertItem_cases w.recorded b ⟨s, []⟩ index kind p with ⟨-, ho⟩ | ⟨d, hd, ho⟩
    · simp only [t, turn, step, answer, ho, Reply.ofExcept, Turn.replay]
    · simp only [t, turn, step, answer, ho, Reply.ofExcept, Turn.replay]
      exact Document.ids_insert _ hd
  | remove id =>
    rcases removeItem_cases w.recorded b ⟨s, []⟩ id with
      ⟨-, ho⟩ | ⟨i, -, ⟨f, s', -, ho⟩ | ⟨s', -, ho⟩⟩
    · simp only [t, turn, step, answer, ho, Reply.ofExcept, Turn.replay]
    · simp only [t, turn, step, answer, ho, Reply.ofExcept, Turn.replay]
    · simp only [t, turn, step, answer, ho, Reply.ofExcept, Turn.replay]
      exact Document.ids_remove _ _
  | _ => exact step_lasts Document.ids_lasts rfl

end Step

section Run
variable {σ : Type} {settings : Settings} {b : Board} (hb : Board.new settings = .ok b)
  (w : Surroundings σ) (s : σ) (ops : List Op)
include hb

theorem run_placements : let o := run w ops b s
    o.board.placements.live = o.reply.foldl Turn.enrol [] ∧ o.board.placements.Ordered := by
  have hempty : b.placements = .empty := by
    rw [Board.new] at hb
    split at hb
    · cases hb
    · rw [← Except.ok.inj hb]
  refine run_induction (P := fun _ o => o.board.placements.live = o.reply.foldl Turn.enrol [] ∧
    o.board.placements.Ordered) ?_ ?_ ops
  · rw [hempty]
    exact ⟨rfl, Bus.ordered_empty⟩
  · intro ops op ih
    obtain ⟨hlive, hordered⟩ :=
      turn_placements w op (run w ops b s).board (run w ops b s).outside
    simp only [extend, List.foldl_append, List.foldl_cons, List.foldl_nil, ← ih.1]
    exact ⟨hlive, hordered ih.2⟩

theorem run_ids : let o := run w ops b s
    o.board.document.ids = o.reply.foldl Turn.replay [] := by
  refine run_induction (P := fun _ o => o.board.document.ids = o.reply.foldl Turn.replay [])
    ?_ ?_ ops
  · rw [(new_ok hb).2.2.1]
    rfl
  · intro ops op ih
    simp only [extend, List.foldl_append, List.foldl_cons, List.foldl_nil, ← ih]
    exact turn_ids w op _ _

end Run

/-- A template is dragged and the canvas of its palette lies under this point of the page, edges
included. -/
structure Drop (b : Board) (page : Point) (kind : String) (v : Surface) : Prop where
  dragged : ∃ last, b.gesture = .template kind last
  surface : b.surface = some v
  palette : ∃ q, b.palette = some q ∧ q.canvasSelector = v.selector
  left : v.bounds.x ≤ page.x
  right : page.x ≤ v.bounds.x + v.bounds.width
  top : v.bounds.y ≤ page.y
  bottom : page.y ≤ v.bounds.y + v.bounds.height

theorem drop_iff {b : Board} (hp : b.palette.isSome = true) {page : Point} {kind : String}
    {v : Surface} :
    b.Drop page kind v ↔ (∃ last, b.gesture = .template kind last) ∧ b.Takes v page := by
  obtain ⟨q, hq⟩ := Option.isSome_iff_exists.mp hp
  have hother : b.paletteOfOther v = false ↔ q.canvasSelector = v.selector := by
    simp [paletteOfOther, hq]
  have hin : v.bounds.contains page = true ↔
      ((v.bounds.x ≤ page.x ∧ page.x ≤ v.bounds.x + v.bounds.width) ∧ v.bounds.y ≤ page.y) ∧
        page.y ≤ v.bounds.y + v.bounds.height := by
    simp [Rect.contains]
  constructor
  · intro h
    obtain ⟨q', hq', hsel⟩ := h.palette
    obtain rfl : q = q' := Option.some.inj (hq.symm.trans hq')
    exact ⟨h.dragged, h.surface, hother.mpr hsel, hin.mpr ⟨⟨⟨h.left, h.right⟩, h.top⟩, h.bottom⟩⟩
  · intro h
    obtain ⟨hdragged, ht⟩ := h
    obtain ⟨⟨⟨hleft, hright⟩, htop⟩, hbottom⟩ := hin.mp ht.inside
    exact ⟨hdragged, ht.surface, ⟨q, hq, hother.mp ht.palette⟩, hleft, hright, htop, hbottom⟩

/-- A drop publishes one placement, to every subscriber in order, with the kind that its drag was
started with. Nothing else publishes a placement, and no gesture inserts an item. -/
theorem placement_per_drop {σ : Type} {settings : Settings} {b : Board}
    (hb : Board.new settings = .ok b) (w : Surroundings σ) (s : σ) (ops : List Op) (op : Op) :
    let o := run w ops b s
    let t := (turn w op o.board o.outside).reply
    (∀ page kind v, op = .stop page → o.board.Drop page kind v →
      t.bulletins = Placement.bulletin o.board.placements
        ⟨kind, ⟨page.x - v.bounds.x, page.y - v.bounds.y⟩⟩ ∧
      Since (fun op => ∃ page, op = .start (.template kind) page)
        (fun op => op.isStart = true ∨ op.isStop = true) ops) ∧
    ((¬ ∃ page kind v, op = .stop page ∧ o.board.Drop page kind v) →
      (t.bulletins = [] ∨ ∃ m, t.bulletins = Move.bulletin o.board.moves m) ∧
      ∀ who p, .note (.placement who p) ∉ t.signals) ∧
    (o.board.placements.live = o.reply.foldl Turn.enrol [] ∧
      (o.board.placements.live.map (·.1)).Pairwise (· < ·)) ∧
    (op.isGesture = true → t.after.document.ids = o.board.document.ids) := by
  intro o t
  obtain ⟨hlive, hordered⟩ := run_placements hb w s ops
  have hidle : b.gesture = .idle := (new_ok hb).2.2.2.1
  refine ⟨?_, ?_, ⟨hlive, hordered.rising⟩, gesture_lasts Document.ids_lasts⟩
  · intro page kind v hop hdrop
    obtain ⟨last, hg⟩ := hdrop.dragged
    obtain ⟨hpalette, hsince⟩ := run_template w s ops hidle hg
    have htakes : o.board.Takes v page := ((drop_iff hpalette).mp hdrop).2
    refine ⟨?_, hsince⟩
    -- of the three kinds of turns only the one that publishes a placement fits this board
    rcases turn_bulletins w op o.board o.outside with
      ⟨page', kind', last', v', hop', hg', htakes', ht⟩ | ⟨page', id, grab, start, p, -, hg', -⟩ |
        ⟨hnot, -⟩
    · obtain rfl := Op.stop.inj (hop.symm.trans hop')
      obtain ⟨rfl, -⟩ := Gesture.template.inj (hg.symm.trans hg')
      obtain rfl := Option.some.inj (htakes.surface.symm.trans htakes'.surface)
      exact ht
    · cases hg.symm.trans hg'
    · exact absurd htakes (hnot page kind last v hop hg)
  · intro hnot
    have hquiet : t.bulletins = [] ∨ ∃ m, t.bulletins = Move.bulletin o.board.moves m := by
      rcases turn_bulletins w op o.board o.outside with
        ⟨page, kind, last, v, hop, hg, htakes, -⟩ | ⟨page, id, grab, start, p, -, -, -, ht⟩ |
          ⟨-, -, ht⟩
      · have hpalette := (run_template w s ops hidle hg).1
        exact absurd ⟨page, kind, v, hop, (drop_iff hpalette).mpr ⟨⟨last, hg⟩, htakes⟩⟩ hnot
      · exact Or.inr ⟨_, ht⟩
      · exact Or.inl ht
    exact ⟨hquiet, placement_not_mem hquiet⟩

/-- A drop on the corner of the canvas, with two subscribers. -/
theorem placement_per_drop_on_corner :
    let ops : List Op :=
      [.initPalette shelf "#palette" "#canvas", .initCanvas shelf "#canvas", .onPlacement .outbox,
        .onPlacement (.listener 7), .start (.template "Step") ⟨1, 2⟩]
    let o := run (Fallible.surroundings fun _ => none) ops standard .start
    let p : Placement := ⟨"Step", ⟨800, 600⟩⟩
    (turn (Fallible.surroundings fun _ => none) (.stop ⟨800, 600⟩) o.board
      o.outside).reply.bulletins =
      [.note (.log (Entries.placementRequested "Step" ⟨800, 600⟩)),
        .note (.log (Entries.publishing 2)), .note (.placement .outbox p),
        .note (.placement (.listener 7) p)] := by
  intro ops o p
  have hdrop : o.board.Drop ⟨800, 600⟩ "Step" ⟨"#canvas", ⟨0, 0, 800, 600⟩⟩ :=
    ⟨⟨⟨1, 2⟩, rfl⟩, rfl, ⟨_, rfl, rfl⟩, by decide, by decide, by decide, by decide⟩
  exact ((placement_per_drop new_standard (Fallible.surroundings fun _ => none) .start ops
    (.stop ⟨800, 600⟩)).1 _ _ _ rfl hdrop).1

/-- The end of a drag publishes one move, with the index that the item has among the insertions and
removals up to then. Nothing else publishes a move. -/
theorem move_per_drag {σ : Type} {settings : Settings} {b : Board}
    (hb : Board.new settings = .ok b) (w : Surroundings σ) (s : σ) (ops : List Op) (op : Op) :
    let o := run w ops b s
    let t := (turn w op o.board o.outside).reply
    let ids := o.reply.foldl Turn.replay []
    (o.board.document.ids = ids ∧ ids.Nodup) ∧
    (∀ page id grab start, op = .stop page → o.board.gesture = .item id grab start → id ∈ ids →
      ∃ i, t.after.document.find? id = some i ∧
        t.bulletins = Move.bulletin o.board.moves ⟨ids.idxOf id, id, ⟨i.x, i.y⟩⟩) ∧
    ((¬ ∃ page id grab start, op = .stop page ∧ o.board.gesture = .item id grab start ∧ id ∈ ids) →
      (t.bulletins = [] ∨ ∃ p, t.bulletins = Placement.bulletin o.board.placements p) ∧
      ∀ who m, .note (.move who m) ∉ t.signals) := by
  intro o t ids
  have hids : o.board.document.ids = ids := run_ids hb w s ops
  have hsound : o.board.document.Sound := (run_orderly hb w ops s).2.sound
  refine ⟨⟨hids, hids ▸ hsound.nodup_ids⟩, ?_, ?_⟩
  · intro page id grab start hop hg hmem
    rw [← hids] at hmem ⊢
    obtain ⟨i, hi⟩ := Document.mem_ids.mp hmem
    obtain ⟨v, hv⟩ := run_item w s ops (new_ok hb).2.2.2.1 hg
    have hp := containedPosition?_eq hv hi page grab
    obtain ⟨hpositions, ht⟩ := stop_positions w o.outside hg hp
    obtain ⟨j, hj, hjp⟩ := hpositions.stored
    subst hop
    refine ⟨j, hj, ?_⟩
    rw [← hjp] at ht
    exact ht
  · intro hnot
    have hquiet :
        t.bulletins = [] ∨ ∃ p, t.bulletins = Placement.bulletin o.board.placements p := by
      rcases turn_bulletins w op o.board o.outside with
        ⟨page, kind, last, v, -, -, -, ht⟩ | ⟨page, id, grab, start, p, hop, hg, hp, -⟩ | ⟨-, -, ht⟩
      · exact Or.inr ⟨_, ht⟩
      · have hmem : id ∈ ids := hids ▸ Document.mem_ids.mpr (containedPosition?_some hp)
        exact absurd ⟨page, id, grab, start, hop, hg, hmem⟩ hnot
      · exact Or.inl ht
    exact ⟨hquiet, move_not_mem hquiet⟩

/-- An item that was appended as the first is the second at the end of its drag. -/
theorem move_per_drag_past_insertion :
    let ops : List Op :=
      [.initCanvas sheet "#canvas", .append "Step" ⟨10, 20⟩, .enable sheet ".canvas-item",
        .onMove .outbox, .start (.item ⟨"canvasItem0"⟩) ⟨10, 20⟩, .insert 0 "Note" ⟨0, 0⟩]
    let o := run (Fallible.surroundings fun _ => none) ops standard .start
    let t := (turn (Fallible.surroundings fun _ => none) (.stop ⟨50, 60⟩) o.board o.outside).reply
    o.reply.foldl Turn.replay [] = [⟨"canvasItem1"⟩, ⟨"canvasItem0"⟩] ∧
      ∃ i, t.after.document.find? ⟨"canvasItem0"⟩ = some i ∧
        t.bulletins = [.note (.log (Entries.publishing 1)),
          .note (.move .outbox ⟨1, ⟨"canvasItem0"⟩, ⟨i.x, i.y⟩⟩)] := by
  intro ops o t
  have hids : o.reply.foldl Turn.replay [] = [⟨"canvasItem1"⟩, ⟨"canvasItem0"⟩] := rfl
  have hdrag : o.board.gesture = .item ⟨"canvasItem0"⟩ ⟨0, 0⟩ ⟨10, 20⟩ := rfl
  have hmem : ⟨"canvasItem0"⟩ ∈ o.reply.foldl Turn.replay [] := by
    rw [hids]
    simp
  obtain ⟨i, hi, ht⟩ := (move_per_drag new_standard (Fallible.surroundings fun _ => none) .start
    ops (.stop ⟨50, 60⟩)).2.1 _ _ _ _ rfl hdrag hmem
  rw [hids] at ht
  exact ⟨hids, i, hi, ht⟩

end Board

end DiagramEditor
