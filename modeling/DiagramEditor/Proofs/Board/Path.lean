import DiagramEditor.Proofs.Board.Dragging
import DiagramEditor.Proofs.Board.Events

/-! Drags of an item do not depend on the path of the pointer: every move puts the item where the
pointer has it, whatever moves came before, so only the start and the end of the drag count. -/
namespace DiagramEditor

open Wiring (Memory Fallible)

namespace Wiring.Memory

def moved (m : Memory) (id : ItemId) (p : Point) : Memory :=
  { m with positions := m.positions.set id p }

theorem moved_moved (m : Memory) (id : ItemId) (p q : Point) :
    (m.moved id p).moved id q = m.moved id q := by
  rw [moved, moved, Table.set_set]
  rfl

end Wiring.Memory

namespace Board

def placed (b : Board) (id : ItemId) (p : Point) : Board :=
  { b with document := b.document.setPosition id p }

theorem placed_placed (b : Board) (id : ItemId) (p q : Point) :
    (b.placed id p).placed id q = b.placed id q := by
  simp only [placed, Document.setPosition_setPosition]

def reverted (b : Board) (i : Item) : Item :=
  match b.gesture with
  | .item id _ start => if i.id = id then i.moved start else i
  | _ => i

section Memory
variable {σ : Type} {w : Surroundings σ} {memory : σ → Memory} (hw : w.Carries memory)
include hw

theorem place_memory (id : ItemId) (p : Point) (b : Board) (s : σ) :
    memory (place w id p b s).2 = (memory s).moved id p := by
  simp only [place]
  split
  · next s' hc => exact hw.memory_eq hc rfl
  · next f s' hc => cases hw.carried hc

theorem publishMove_memory (b : Board) (m : Move) (s : σ) :
    memory (publishMove w b m s) = memory s := by
  have hnotes : ∀ (audience : List Subscriber) (s : σ),
      memory (audience.foldl (fun s who => w.note (.move who m) s) s) = memory s := by
    intro audience
    induction audience with
    | nil => intro s; rfl
    | cons who rest ih =>
      intro s
      rw [List.foldl_cons, ih, hw.note]
  exact (hnotes _ _).trans (hw.note _ s)

end Memory

/-- The pointer holds an item of this size at this point of it. -/
structure Holds (b : Board) (v : Surface) (id : ItemId) (grab : Point) (box : Size) : Prop where
  surface : b.surface = some v
  gesture : ∃ start, b.gesture = .item id grab start
  item : ∃ i, b.document.find? id = some i ∧ i.size = box

/-- Where an item lands that the pointer holds and releases. -/
def landing (v : Surface) (grab : Point) (box : Size) (page : Point) : Point :=
  contain ((v.bounds.toLocal page).sub grab) box v.bounds.size

section Holds
variable {b : Board} {v : Surface} {id : ItemId} {grab : Point} {box : Size}

theorem Holds.contained (h : b.Holds v id grab box) (page : Point) :
    b.containedPosition? id page grab = some (landing v grab box page) := by
  obtain ⟨i, hi, hbox⟩ := h.item
  rw [containedPosition?_eq h.surface hi, hbox]
  rfl

theorem Holds.placed (h : b.Holds v id grab box) (p : Point) :
    (b.placed id p).Holds v id grab box where
  surface := h.surface
  gesture := h.gesture
  item := by
    obtain ⟨i, hi, hbox⟩ := h.item
    exact ⟨i.moved p, Document.find?_setPosition hi p, hbox⟩

variable {σ : Type} {w : Surroundings σ} {memory : σ → Memory} (hw : w.Carries memory) (s : σ)
include hw

theorem Holds.move (h : b.Holds v id grab box) (page : Point) :
    let t := turn w (.move page) b s
    let p := landing v grab box page
    t.board = b.placed id p ∧ memory t.outside = (memory s).moved id p ∧
      t.reply.bulletins = [] := by
  intro t p
  obtain ⟨start, hg⟩ := h.gesture
  have ho : moveDrag w.recorded page b ⟨s, []⟩ =
      ⟨[.itemPositioned id p], (place w.recorded id p b ⟨s, []⟩).1,
        (place w.recorded id p b ⟨s, []⟩).2⟩ := by
    simp only [moveDrag, hg, h.contained, p]
  refine ⟨?_, ?_, moveDrag_bulletins w b ⟨s, []⟩ page⟩
  · exact move_board w s hg (h.contained page)
  · simp only [t, turn, step, answer, ho]
    exact place_memory hw.recorded id p b ⟨s, []⟩

theorem Holds.stop (h : b.Holds v id grab box) (page : Point) :
    let t := turn w (.stop page) b s
    let p := landing v grab box page
    t.board = { b.placed id p with gesture := .idle } ∧
      memory t.outside = (memory s).moved id p ∧ t.reply.reply = .actions [.itemPositioned id p] ∧
      t.reply.bulletins = Move.bulletin b.moves ⟨b.document.ids.idxOf id, id, p⟩ := by
  intro t p
  obtain ⟨start, hg⟩ := h.gesture
  have hp := h.contained page
  have hidle : containedPosition? { b with gesture := .idle } id page grab = some p := hp
  have hindex := Document.indexOf?_eq (Document.mem_ids.mpr (containedPosition?_some hp))
  obtain ⟨hpositions, hmoved⟩ := stop_positions w s hg hp
  refine ⟨?_, ?_, hpositions.reply, hmoved⟩
  · exact stop_board w s hg hp
  · simp only [t, turn, step, answer, stopDrag, hg, stopItem, hidle, hindex]
    rw [publishMove_memory hw.recorded, ← place_memory hw.recorded id p _ ⟨s, []⟩]
    exact hw.note _ _

end Holds

section Start
variable {σ : Type} (w : Surroundings σ) {b : Board} (s : σ) {v : Surface} {id : ItemId} {i : Item}

theorem abandon_reverted (hi : b.document.find? id = some i) :
    (abandon w b s).board.document.find? id = some (b.reverted i) := by
  have hid := Document.find?_id hi
  cases hg : b.gesture with
  | item dragged grab start =>
    have hb : (abandon w b s).board.document = b.document.setPosition dragged start := by
      simp only [abandon, hg, place_board]
    rw [hb, Document.setPosition, Document.find?_update (f := fun i => i.moved start) fun _ => rfl,
      hi]
    by_cases hsame : id = dragged
    · simp [reverted, hg, hid, hsame]
    · simp [reverted, hg, hid, hsame]
  | _ => simp only [abandon, reverted, hg, hi]

theorem reverted_size (b : Board) (i : Item) : (b.reverted i).size = i.size := by
  simp only [reverted]
  repeat' split
  all_goals rfl

theorem reverted_draggable (b : Board) (i : Item) : (b.reverted i).draggable = i.draggable := by
  simp only [reverted]
  repeat' split
  all_goals rfl

theorem start_holds (hv : b.surface = some v) (hi : b.document.find? id = some i)
    (hd : i.draggable = true) (page : Point) :
    let t := turn w (.start (.item id) page) b s
    t.board.Holds v id ((v.bounds.toLocal page).sub (b.reverted i).position) i.size ∧
      t.board.moves = b.moves ∧ t.board.document.ids = b.document.ids ∧
      t.reply.bulletins = [] := by
  intro t
  have hkept := step_keeps w.recorded b ⟨s, []⟩ (.start (.item id) page)
  have hids : t.board.document.ids = b.document.ids := gesture_lasts Document.ids_lasts rfl
  refine ⟨?_, hkept.moves rfl, hids, startDrag_bulletins w b ⟨s, []⟩ (.item id) page⟩
  let o := abandon w.recorded b ⟨s, []⟩
  have hsurface : o.board.surface = some v := by
    obtain ⟨d, g, ho⟩ := abandon_frame w.recorded b ⟨s, []⟩
    rw [ho, ← hv]
  have hitem : o.board.document.find? id = some (b.reverted i) :=
    abandon_reverted w.recorded ⟨s, []⟩ hi
  have hdrag : (b.reverted i).draggable = true := (reverted_draggable b i).trans hd
  have ht : t.board = { o.board with
      gesture := .item id ((v.bounds.toLocal page).sub (b.reverted i).position)
        (b.reverted i).position } := by
    simp only [t, turn, step, answer, startDrag, startFresh, startItem]
    simp only [o] at hsurface hitem
    simp only [hsurface, hitem, hdrag, if_true, o]
  rw [ht]
  exact ⟨hsurface, ⟨_, rfl⟩, _, hitem, reverted_size b i⟩

end Start

/-- One run ends like another but for where an item lies in the document and in the library. -/
structure Strays {σ : Type} (memory : σ → Memory) (id : ItemId) (o u : Outcome σ (List Turn)) :
    Prop where
  board : ∀ p, o.board.placed id p = u.board.placed id p
  memory : ∀ p, (memory o.outside).moved id p = (memory u.outside).moved id p
  bulletins : o.reply.flatMap Turn.bulletins = u.reply.flatMap Turn.bulletins

section Path
variable {σ : Type} {w : Surroundings σ} {memory : σ → Memory} (hw : w.Carries memory)
  {v : Surface} {id : ItemId} {grab : Point} {box : Size}
include hw

theorem Strays.move {o u : Outcome σ (List Turn)} (ho : o.board.Holds v id grab box)
    (hs : Strays memory id o u) (page : Point) :
    let e := extend w o (.move page)
    e.board.Holds v id grab box ∧ Strays memory id e u := by
  intro e
  obtain ⟨hboard, hmemory, hquiet⟩ := ho.move hw o.outside page
  have hplaced : e.board = o.board.placed id (landing v grab box page) := hboard
  have hmoved : Wiring.Memory.moved (memory o.outside) id (landing v grab box page) =
    memory e.outside := hmemory.symm
  refine ⟨hplaced ▸ ho.placed _, ?_, ?_, ?_⟩
  · intro p
    rw [hplaced, placed_placed, hs.board]
  · intro p
    rw [← hmoved, Memory.moved_moved, hs.memory]
  · simp only [e, extend, List.flatMap_append, List.flatMap_singleton, hquiet, List.append_nil]
    exact hs.bulletins

theorem moves_stray {o u : Outcome σ (List Turn)} (ho : o.board.Holds v id grab box)
    (hs : Strays memory id o u) (path : List Point) :
    let e := (path.map Op.move).foldl (extend w) o
    e.board.Holds v id grab box ∧ Strays memory id e u := by
  induction path generalizing o with
  | nil => exact ⟨ho, hs⟩
  | cons page rest ih =>
    obtain ⟨hold, hstray⟩ := hs.move hw ho page
    exact ih hold hstray

theorem stop_strayed {o u : Outcome σ (List Turn)} (ho : o.board.Holds v id grab box)
    (hs : Strays memory id o u) (page : Point) :
    let e := extend w o (.stop page)
    let p := landing v grab box page
    e.board = { u.board.placed id p with gesture := .idle } ∧
      memory e.outside = (memory u.outside).moved id p ∧
      e.reply.flatMap Turn.bulletins = u.reply.flatMap Turn.bulletins ++
        Move.bulletin u.board.moves ⟨u.board.document.ids.idxOf id, id, p⟩ ∧
      e.reply.getLast?.map Turn.reply = some (.actions [.itemPositioned id p]) := by
  intro e p
  obtain ⟨hboard, hmemory, hreply, hmoved⟩ := ho.stop hw o.outside page
  have hmoves : o.board.moves = u.board.moves := by
    have hplaced := congrArg Board.moves (hs.board p)
    exact hplaced
  have hids : o.board.document.ids = u.board.document.ids := by
    have hplaced := congrArg (·.document.ids) (hs.board p)
    simpa only [Board.placed, Document.ids_lasts.setPosition] using hplaced
  refine ⟨?_, ?_, ?_, ?_⟩
  · rw [← hs.board p]
    exact hboard
  · rw [← hs.memory p]
    exact hmemory
  · rw [hmoves, hids] at hmoved
    simp only [e, extend, List.flatMap_append, List.flatMap_singleton, hmoved, hs.bulletins]
    rfl
  · simp only [e, extend, List.getLast?_concat, Option.map_some, hreply]
    rfl

end Path

/-- A drag of an item does not depend on the path of the pointer: with any moves on the way it ends
as it does without them, on the board, in the library, in what is published and in the last reply.
The item lands where the pointer has it at the end, kept inside the canvas. -/
theorem drag_path_independent {σ : Type} {w : Surroundings σ} {memory : σ → Memory}
    (hw : w.Carries memory) {b : Board} (s : σ) {v : Surface} {id : ItemId} {i : Item}
    (hv : b.surface = some v) (hi : b.document.find? id = some i) (hd : i.draggable = true)
    (first last : Point) (path : List Point) :
    let long := run w (.start (.item id) first :: (path.map .move ++ [.stop last])) b s
    let short := run w [.start (.item id) first, .stop last] b s
    let p := contain ((v.bounds.toLocal last).sub
      ((v.bounds.toLocal first).sub (b.reverted i).position)) i.size v.bounds.size
    let moved := Move.bulletin b.moves ⟨b.document.ids.idxOf id, id, p⟩
    (long.board = short.board ∧ ∃ j, short.board.document.find? id = some j ∧ j.position = p) ∧
      memory long.outside = memory short.outside ∧
      (long.reply.flatMap Turn.bulletins = moved ∧ short.reply.flatMap Turn.bulletins = moved) ∧
      long.reply.getLast?.map Turn.reply = some (.actions [.itemPositioned id p]) ∧
      short.reply.getLast?.map Turn.reply = some (.actions [.itemPositioned id p]) := by
  intro long short p moved
  let u := run w [.start (.item id) first] b s
  obtain ⟨hold, hmoves, hids, hquiet⟩ := start_holds w s hv hi hd first
  have hbulletins : u.reply.flatMap Turn.bulletins = [] := by
    simp only [u, run, List.foldl_cons, List.foldl_nil, extend, List.nil_append,
      List.flatMap_singleton, hquiet]
  have hend : ∀ path : List Point,
      let e := run w (.start (.item id) first :: (path.map .move ++ [.stop last])) b s
      e.board = { u.board.placed id p with gesture := .idle } ∧
        memory e.outside = (memory u.outside).moved id p ∧
        e.reply.flatMap Turn.bulletins = moved ∧
        e.reply.getLast?.map Turn.reply = some (.actions [.itemPositioned id p]) := by
    intro path e
    have hself : Strays memory id u u := ⟨fun _ => rfl, fun _ => rfl, rfl⟩
    obtain ⟨hstill, hstray⟩ := moves_stray hw (o := u) hold hself path
    have he : e = extend w ((path.map Op.move).foldl (extend w) u) (.stop last) := by
      simp only [e, u, run, List.foldl_cons, List.foldl_append, List.foldl_nil]
    obtain ⟨hboard, hmemory, hpublic, hreply⟩ := stop_strayed hw hstill hstray last
    rw [he]
    refine ⟨hboard, hmemory, hpublic.trans ?_, hreply⟩
    rw [hbulletins, List.nil_append]
    exact congrArg₂ Move.bulletin hmoves (by rw [← hids]; rfl)
  obtain ⟨hlong, hmlong, hblong, hrlong⟩ := hend path
  obtain ⟨hshort, hmshort, hbshort, hrshort⟩ := hend []
  refine ⟨⟨hlong.trans hshort.symm, ?_⟩, hmlong.trans hmshort.symm, ⟨hblong, hbshort⟩, hrlong,
    hrshort⟩
  obtain ⟨j, hj, -⟩ := hold.item
  have hmoved : short.board.document = u.board.document.setPosition id p :=
    congrArg Board.document hshort
  exact ⟨j.moved p, hmoved ▸ Document.find?_setPosition hj p, rfl⟩

/-- A drag of the item is in progress when the next one starts, and the pointer leaves the canvas on
the way. -/
theorem drag_path_independent_on_restart :
    let ops : List Op :=
      [.initCanvas sheet "#canvas", .append "Step" ⟨10, 20⟩, .enable sheet ".canvas-item",
        .start (.item ⟨"canvasItem0"⟩) ⟨15, 25⟩, .move ⟨0, 0⟩]
    let o := run (Fallible.surroundings fun _ => none) ops standard .start
    let e := run (Fallible.surroundings fun _ => none)
      [.start (.item ⟨"canvasItem0"⟩) ⟨200, 100⟩, .move ⟨-50, 0⟩, .move ⟨900, 900⟩,
        .stop ⟨215, 110⟩] o.board o.outside
    let u := run (Fallible.surroundings fun _ => none)
      [.start (.item ⟨"canvasItem0"⟩) ⟨200, 100⟩, .stop ⟨215, 110⟩] o.board o.outside
    e.board = u.board ∧ e.outside.memory = u.outside.memory ∧
      ∃ j, e.board.document.find? ⟨"canvasItem0"⟩ = some j ∧ j.position = ⟨25, 30⟩ := by
  intro ops o e u
  let i : Item := ⟨⟨"canvasItem0"⟩, "Step", 0, 0, 120, 50, ["canvas-item"], true, []⟩
  have hi : o.board.document.find? ⟨"canvasItem0"⟩ = some i := rfl
  have horigin : (o.board.reverted i).position = ⟨10, 20⟩ := rfl
  have hcorner : (Rect.toLocal ⟨0, 0, 800, 600⟩ ⟨215, 110⟩).sub
      ((Rect.toLocal ⟨0, 0, 800, 600⟩ ⟨200, 100⟩).sub ⟨10, 20⟩) = ⟨25, 30⟩ := rfl
  have hinside : contain ⟨25, 30⟩ ⟨120, 50⟩ ⟨800, 600⟩ = ⟨25, 30⟩ := rfl
  obtain ⟨⟨hboard, j, hj, hp⟩, hmemory, -⟩ := drag_path_independent (Fallible.carries fun _ => rfl)
    (b := o.board) o.outside (v := ⟨"#canvas", ⟨0, 0, 800, 600⟩⟩) rfl hi rfl
    ⟨200, 100⟩ ⟨215, 110⟩ [⟨-50, 0⟩, ⟨900, 900⟩]
  have he : e.board = u.board := hboard
  rw [horigin] at hp
  have hlands : j.position = contain ⟨25, 30⟩ ⟨120, 50⟩ ⟨800, 600⟩ :=
    hp.trans (congrArg (fun corner => contain corner ⟨120, 50⟩ ⟨800, 600⟩) hcorner)
  refine ⟨he, hmemory, j, ?_, ?_⟩
  · rw [he]
    exact hj
  · exact hlands.trans hinside

end Board

end DiagramEditor
