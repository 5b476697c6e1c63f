import DiagramEditor.Proofs.Board.Bulletins
import DiagramEditor.Proofs.Board.Demands
import DiagramEditor.Proofs.Board.Orderly
import DiagramEditor.Proofs.Wiring.Fallible

/-! What making items draggable changes. Each item becomes what the elements that carry its id say,
whichever other elements the page has, and the library is told of it once for each of them. -/
namespace DiagramEditor

open Wiring (Fallible)

def Rect.isProper (r : Rect) : Bool := 0 < r.width && 0 < r.height

namespace Item

def isShownBy (i : Item) (e : Element) : Bool := e.id == some i.id.text

theorem isShownBy_iff {i : Item} {e : Element} :
    i.isShownBy e = true ↔ e.id = some i.id.text := by
  simp [isShownBy]

/-- The extent of the last element that shows the item and has one, else the size of the item. -/
def sizeOn (i : Item) (elements : List Element) : Size :=
  ((elements.filter fun e => i.isShownBy e && e.rect.isProper).getLast?.map (·.rect.size)).getD
    i.size

def shownOn (i : Item) (elements : List Element) : Item :=
  { i with
    width := (i.sizeOn elements).width
    height := (i.sizeOn elements).height
    draggable := i.draggable || elements.any i.isShownBy }

def meet (i : Item) (e : Element) : Item :=
  if i.isShownBy e then (Board.measured e.rect i).enable else i

@[simp] theorem meet_id (i : Item) (e : Element) : (i.meet e).id = i.id := by
  rw [meet]
  split
  · exact Board.measured_id e.rect i
  · rfl

@[simp] theorem shownOn_nil (i : Item) : i.shownOn [] = i := by
  simp [shownOn, sizeOn, size]

theorem sizeOn_concat (i : Item) (elements : List Element) (e : Element) :
    i.sizeOn (elements ++ [e]) =
      if i.isShownBy e && e.rect.isProper then e.rect.size else i.sizeOn elements := by
  rw [sizeOn, List.filter_append]
  split
  · next h => simp [h]
  · next h => simp [h, sizeOn]

theorem meet_eq (i : Item) (e : Element) :
    let extent := if i.isShownBy e && e.rect.isProper then e.rect.size else i.size
    i.meet e =
      { i with
        width := extent.width
        height := extent.height
        draggable := i.draggable || i.isShownBy e } := by
  rw [meet, Board.measured, ← Rect.isProper]
  cases i.isShownBy e <;> cases e.rect.isProper <;> simp [enable, size, Rect.size]

theorem shownOn_concat (i : Item) (elements : List Element) (e : Element) :
    i.shownOn (elements ++ [e]) = (i.shownOn elements).meet e := by
  have hid : (i.shownOn elements).isShownBy e = i.isShownBy e := rfl
  have hsize : (i.shownOn elements).size = i.sizeOn elements := rfl
  rw [meet_eq, hid, hsize, ← sizeOn_concat]
  simp [shownOn, Bool.or_assoc]

end Item

namespace Document

def shownAmong (d : Document) (elements : List Element) : List Element :=
  elements.filter fun e => d.items.any (·.isShownBy e)

def meet (d : Document) (e : Element) : Document :=
  { d with items := d.items.map (·.meet e) }

def shownOn (d : Document) (elements : List Element) : Document :=
  { d with items := d.items.map (·.shownOn elements) }

theorem foldl_meet (d : Document) (elements : List Element) :
    elements.foldl meet d = d.shownOn elements := by
  induction elements using List.reverseRecOn with
  | nil => simp [shownOn]
  | append_singleton elements e ih =>
    rw [List.foldl_concat, ih]
    simp [meet, shownOn, Item.shownOn_concat]

theorem meet_ids (d : Document) (e : Element) :
    (d.meet e).items.map (·.id) = d.items.map (·.id) := by
  simp [meet]

theorem shownAmong_meet (d : Document) (e : Element) (elements : List Element) :
    (d.meet e).shownAmong elements = d.shownAmong elements := by
  simp [shownAmong, meet, Item.isShownBy, Function.comp_def]

section Find
variable {d : Document} {e : Element}

theorem find?_shown {i : Item} (h : (e.id.bind fun id => d.find? ⟨id⟩) = some i) :
    i ∈ d.items ∧ e.id = some i.id.text := by
  obtain ⟨name, hname, hi⟩ := Option.bind_eq_some_iff.mp h
  exact ⟨mem_of_find? hi, by rw [hname, find?_id hi]⟩

theorem not_shown (h : (e.id.bind fun id => d.find? ⟨id⟩) = none) :
    ∀ i ∈ d.items, i.isShownBy e = false := by
  intro i hi
  rw [← Bool.not_eq_true, Item.isShownBy_iff]
  intro he
  rw [he] at h
  exact find?_eq_none.mp h i hi rfl

theorem meet_of_unknown (h : (e.id.bind fun id => d.find? ⟨id⟩) = none) : d.meet e = d := by
  have hitems : d.items.map (·.meet e) = d.items.map fun i => i :=
    List.map_congr_left fun i hi => if_neg (by simp [not_shown h i hi])
  rw [meet, hitems, List.map_id']

theorem meet_of_known (hn : (d.items.map (·.id)).Nodup) {i : Item}
    (h : (e.id.bind fun id => d.find? ⟨id⟩) = some i) :
    d.meet e = (d.update i.id (Board.measured e.rect)).update i.id Item.enable := by
  have hshown := (find?_shown h).2
  have hsame : ∀ j : Item, j.isShownBy e = true ↔ j.id = i.id := by
    intro j
    rw [Item.isShownBy_iff, hshown, Option.some.injEq, eq_comm]
    exact ⟨congrArg ItemId.mk, congrArg ItemId.text⟩
  have hids : ((d.update i.id (Board.measured e.rect)).items.map (·.id)).Nodup := by
    rw [update, map_updateFirst (Board.measured_id e.rect)]
    exact hn
  rw [update_eq_map hids, update_eq_map hn, meet]
  simp only [List.map_map, mk.injEq, and_true]
  refine List.map_congr_left fun j _ => ?_
  by_cases hj : j.id = i.id
  · simp [Item.meet, hsame, hj, Board.measured_id]
  · simp [Item.meet, hsame, hj]

theorem shownAmong_of_unknown (h : (e.id.bind fun id => d.find? ⟨id⟩) = none)
    (rest : List Element) : d.shownAmong (e :: rest) = d.shownAmong rest :=
  List.filter_cons_of_neg (by simpa using not_shown h)

theorem shownAmong_of_known {i : Item} (h : (e.id.bind fun id => d.find? ⟨id⟩) = some i)
    (rest : List Element) : d.shownAmong (e :: rest) = e :: d.shownAmong rest := by
  obtain ⟨hi, he⟩ := find?_shown h
  exact List.filter_cons_of_pos (List.any_eq_true.mpr ⟨i, hi, Item.isShownBy_iff.mpr he⟩)

end Find

end Document

namespace Signal

def isCall (g : Signal) : Bool := g.call?.isSome

/-- The library has made the item that an element shows draggable. -/
def Registers (box : Size) (e : Element) (g : Signal) : Prop :=
  ∃ id, e.id = some id ∧ g = granted (.makeDraggable ⟨id⟩ box)

end Signal

namespace Board

variable {σ : Type} {w : Surroundings σ}

theorem enableAll_ok {box : Size} {count n : Nat} {elements : List Element} {d d' : Document}
    {s s' : Recorded σ} (hn : (d.items.map (·.id)).Nodup)
    (h : enableAll w.recorded box count elements d s = (.ok n, d', s')) :
    n = count + (d.shownAmong elements).length ∧ d' = elements.foldl Document.meet d ∧
      ∃ past, s'.signals = s.signals ++ past ∧
        List.Forall₂ (Signal.Registers box) (d.shownAmong elements)
          (past.filter Signal.isCall) := by
  induction elements generalizing count d s with
  | nil =>
    obtain ⟨hc, h⟩ := Prod.mk.inj h
    obtain ⟨rfl, rfl⟩ := Prod.mk.inj h
    exact ⟨(Except.ok.inj hc).symm, rfl, [], (List.append_nil _).symm, .nil⟩
  | cons e rest ih =>
    rw [enableAll] at h
    rw [List.foldl_cons]
    split at h
    · next hi =>
      obtain ⟨hcount, hd, past, hs, hpast⟩ := ih hn h
      rw [Document.shownAmong_of_unknown hi, Document.meet_of_unknown hi]
      refine ⟨hcount, hd, .note (.log (Entries.elementSkipped e.tag e.id)) :: past, ?_, hpast⟩
      rw [hs]
      exact List.append_assoc _ _ _
    · next i hi =>
      dsimp only at h
      split at h
      · cases h
      · next t hc =>
        -- the two updates of the loop are one meeting, for no two items share an id
        change enableAll w.recorded box (count + 1) rest
          ((d.update i.id (measured e.rect)).update i.id Item.enable) t = _ at h
        rw [← Document.meet_of_known hn hi] at h
        obtain ⟨hcount, hd, past, hs, hpast⟩ := ih (by rwa [Document.meet_ids]) h
        rw [Document.shownAmong_meet] at hcount hpast
        rw [Document.shownAmong_of_known hi]
        refine ⟨?_, hd, Signal.granted (.makeDraggable i.id box) :: past, ?_, ?_⟩
        · rw [hcount, List.length_cons, Nat.add_assoc, Nat.add_comm 1]
        · rw [hs, (Surroundings.recorded_call hc).2]
          exact List.append_assoc _ _ _
        · exact .cons ⟨i.id.text, (Document.find?_shown hi).2, rfl⟩ hpast

theorem enable_ok {page : Page} {selector : String} {b : Board} {s : Recorded σ} {n : Nat}
    (hn : (b.document.items.map (·.id)).Nodup)
    (h : (step w.recorded (.enable page selector) b s).reply = .count n) :
    let o := step w.recorded (.enable page selector) b s
    ∃ surface elements, b.surface = some surface ∧ page selector = .ok elements ∧
      n = (b.document.shownAmong elements).length ∧
      o.board = { b with document := b.document.shownOn elements } ∧
      ∃ past, o.outside.signals = s.signals ++ past ∧
        List.Forall₂ (Signal.Registers surface.bounds.size) (b.document.shownAmong elements)
          (past.filter Signal.isCall) := by
  simp only [step, answer, enableDragging] at h ⊢
  cases hv : b.surface with
  | none => simp [hv, Reply.ofExcept] at h
  | some surface =>
    cases hp : page selector with
    | error f => simp [hv, hp, Reply.ofExcept] at h
    | ok elements =>
      simp only [hv, hp] at h ⊢
      split at h
      · cases h
      · next count d t hall =>
        obtain rfl := Reply.count.inj h
        obtain ⟨hcount, rfl, past, hs, hpast⟩ := enableAll_ok hn hall
        refine ⟨surface, elements, rfl, rfl, ?_, ?_,
          past ++ [.note (.log (Entries.itemsEnabled count selector))], ?_, ?_⟩
        · exact hcount.trans (Nat.zero_add _)
        · rw [Document.foldl_meet]
        · change t.signals ++ [_] = _
          rw [hs, List.append_assoc]
        · rw [List.filter_append]
          exact (List.append_nil (past.filter Signal.isCall)).symm ▸ hpast

/-- What a call that makes items draggable has done once it returns a count: it has counted the
elements whose id is that of an item, every item is as the elements with its id show it, in the old
order, and the library has made a draggable for each of the counted elements in turn, inside the
canvas, and nothing else. -/
theorem enabling_counts_and_resizes_shown_items {settings : Settings} {b : Board}
    (hb : Board.new settings = .ok b) (w : Surroundings σ) (ops : List Op) (s : σ) (page : Page)
    (selector : String) (n : Nat) :
    let o := run w ops b s
    let t := (turn w (.enable page selector) o.board o.outside).reply
    t.reply = .count n → ∃ surface elements,
      t.before.surface = some surface ∧ page selector = .ok elements ∧
        n = (t.before.document.shownAmong elements).length ∧
        t.after = { t.before with document := t.before.document.shownOn elements } ∧
        List.Forall₂ (Signal.Registers surface.bounds.size)
          (t.before.document.shownAmong elements) (t.signals.filter Signal.isCall) := by
  intro o t h
  obtain ⟨surface, elements, hv, hp, hcount, hafter, past, hs, hpast⟩ :=
    enable_ok (run_orderly hb w ops s).2.sound.ids_nodup h
  have hsignals : t.signals = past := hs
  exact ⟨surface, elements, hv, hp, hcount, hafter, hsignals ▸ hpast⟩

def crowded : Page := fun selector =>
  if selector = "#canvas" then sheet selector
  else .ok [
    { tag := "div", id := some "canvasItem0", rect := ⟨0, 0, 200, 80⟩ },
    { tag := "div", id := some "legend", rect := ⟨0, 0, 90, 90⟩ },
    { tag := "div", id := some "canvasItem0", rect := ⟨0, 0, 160, 70⟩ },
    { tag := "div", rect := ⟨0, 0, 90, 90⟩ },
    { tag := "div", id := some "canvasItem0", rect := ⟨0, 0, 300, 0 / 0⟩ }]

theorem enabling_crowded_page :
    let w := Fallible.surroundings fun _ => none
    let ops : List Op :=
      [.initCanvas crowded "#canvas", .append "Step" ⟨10, 20⟩, .append "Task" ⟨30, 40⟩]
    let o := run w ops standard .start
    let t := (turn w (.enable crowded ".canvas-item") o.board o.outside).reply
    t.reply = .count 3 ∧
      t.after.document.items.map (fun i => (i.width, i.height, i.draggable)) =
        [(160, 70, true), (120, 50, false)] ∧
      (t.signals.filter Signal.isCall).length = 3 := by
  intro w ops o t
  have h : t.reply = .count 3 := by with_unfolding_all rfl
  obtain ⟨surface, elements, -, hp, hcount, hafter, hcalls⟩ :=
    enabling_counts_and_resizes_shown_items new_standard w _ .start crowded ".canvas-item" 3 h
  obtain rfl := Except.ok.inj hp
  refine ⟨h, ?_, hcalls.length_eq.symm.trans hcount.symm⟩
  rw [hafter]
  decide

end Board

end DiagramEditor
