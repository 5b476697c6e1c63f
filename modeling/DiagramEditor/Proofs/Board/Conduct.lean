import DiagramEditor.Proofs.Board.Demands
import DiagramEditor.Proofs.Board.Effect

/-! The conduct of a board: which calls and notes each operation may send out, and that every
operation leaves a trail of effects that keeps to them. -/
namespace DiagramEditor.Board

open Wiring (Call)

variable {σ : Type}

/-- The calls that an operation may make on a board while the document is `d`. -/
def Calls (b : Board) (d : Document) : Op → Call → Prop
  | .initCanvas page selector, c =>
    ∃ container rest, page selector = .ok (container :: rest) ∧ c ∈ canvasCalls container d
  | .enable _ _, .makeDraggable id box =>
    (∃ i, d.find? id = some i) ∧ ∃ surface, b.surface = some surface ∧ box = surface.bounds.size
  | .setBounds bounds, .makeDraggable id box =>
    box = bounds.size ∧ ∃ i ∈ d.items, i.id = id ∧ i.draggable = true
  | .remove id, .removeElement other => other = id ∧ ∃ i, d.find? id = some i
  | .attach id item role, .addEndpoint e =>
    e = ⟨id, item, role, b.settings.style role⟩ ∧ ∃ i, d.find? item = some i
  | .connect id source target, .connect other s t =>
    other = id ∧ d.endpoint? source = some s ∧ d.endpoint? target = some t
  | .start _ _, .moveItem id p => d = b.document ∧ ∃ grab, b.gesture = .item id grab p
  | .move _, .moveItem id _ | .stop _, .moveItem id _ =>
    (∃ i, d.find? id = some i) ∧ ∃ grab start, b.gesture = .item id grab start
  | _, _ => False

def Notes (b : Board) (d : Document) : Op → Note → Prop
  | _, .log _ => True
  | .start _ _, .dragStarted _ _ => True
  | .stop _, .dragStopped _ _ _ => True
  | .stop _, .placement _ _ => True
  | .stop _, .move _ m =>
    (∃ i, d.find? m.id = some i) ∧ ∃ grab start, b.gesture = .item m.id grab start
  | _, _ => False

def Sends (b : Board) (op : Op) (d : Document) : Signal → Prop
  | .call c _ => Calls b d op c
  | .note n => Notes b d op n

def Attaches (b : Board) (d : Document) : Op → Endpoint → Prop
  | .attach id item role, e => e = ⟨id, item, role, b.settings.style role⟩ ∧ d = b.document
  | _, _ => False

def conduct (b : Board) (op : Op) : Conduct where
  settings := b.settings
  sends := Sends b op
  attaches d := Attaches b d op

theorem sends_log (b : Board) (op : Op) (d : Document) (e : Log.Entry) :
    (b.conduct op).sends d (.note (.log e)) := by
  cases op <;> trivial

/-- An operation that may put another canvas or other bounds in place. -/
def Op.reframes : Op → Bool
  | .initCanvas _ _ | .setBounds _ => true
  | _ => false

theorem conduct_setContainer {b : Board} {op : Op}
    (h : ∀ page selector, op ≠ .initCanvas page selector) (d : Document) (container : Element) :
    ¬ (b.conduct op).sends d (.call (.setContainer container) (.ok ())) := by
  cases op with
  | initCanvas page selector => exact absurd rfl (h page selector)
  | _ => exact id

theorem conduct_makeDraggable {b : Board} {op : Op} (h : op.reframes = false) (d : Document)
    (id : ItemId) (box : Size)
    (hs : (b.conduct op).sends d (.call (.makeDraggable id box) (.ok ()))) :
    ∃ v, b.surface = some v ∧ box = v.bounds.size := by
  cases op with
  | initCanvas page selector => cases h
  | setBounds bounds => cases h
  | enable page selector => exact hs.2
  | _ => exact hs.elim

theorem measured_id (bounds : Rect) (i : Item) : (measured bounds i).id = i.id := by
  rw [measured]
  split <;> rfl

variable (w : Surroundings σ)

section Trail
variable {r : Conduct}

theorem log_trail (hl : ∀ d e, r.sends d (.note (.log e))) (d : Document) (e : Log.Entry) (s : σ) :
    Trail w r (d, s) (d, w.log e s) :=
  .single (.noted (.log e) (hl d e))

theorem announce_trail {α : Type} {toNote : α → Note} {d : Document}
    (hs : ∀ a, r.sends d (.note (toNote a))) (as : List α) (s : σ) :
    Trail w r (d, s) (d, as.foldl (fun s a => w.note (toNote a) s) s) := by
  rw [← List.foldl_map (g := fun s n => w.note n s)]
  exact Trail.notes d (fun n hn => by obtain ⟨a, -, rfl⟩ := List.mem_map.mp hn; exact hs a) s

theorem noteSkipped_trail (hl : ∀ d e, r.sends d (.note (.log e))) (kindAttribute : String)
    (elements : List Element) (d : Document) (s : σ) :
    Trail w r (d, s) (d, noteSkipped w kindAttribute elements s) := by
  rw [noteSkipped_eq]
  exact announce_trail w (hl d) (skippedEntries kindAttribute elements) s

theorem place_trail (hl : ∀ d e, r.sends d (.note (.log e))) {b : Board} {id : ItemId} {p : Point}
    (hs : ∀ answer, r.sends b.document (.call (.moveItem id p) answer)) (s : σ) :
    Trail w r (b.document, s)
      ((place w id p b s).1.document, (place w id p b s).2) := by
  simp only [place]
  split
  · next s' h => exact .single (.placed (hs _) h)
  · next f s' h => exact .head (.slipped (hs _) h) (log_trail w hl _ _ _)

theorem enableAll_trail (hl : ∀ d e, r.sends d (.note (.log e))) {box : Size}
    (hs : ∀ d id answer, (∃ i, d.find? id = some i) →
      r.sends d (.call (.makeDraggable id box) answer))
    (count : Nat) (elements : List Element) (d : Document) (s : σ) :
    Trail w r (d, s)
      ((enableAll w box count elements d s).2.1, (enableAll w box count elements d s).2.2) := by
  induction elements generalizing count d s with
  | nil => exact .refl
  | cons e rest ih =>
    rw [enableAll]
    split
    · exact (log_trail w hl _ _ _).trans (ih _ _ _)
    · next i h =>
      obtain ⟨name, -, hi⟩ := Option.bind_eq_some_iff.mp h
      have hid : i.id = ⟨name⟩ := Document.find?_id hi
      have hm : ∃ j, (d.update i.id (measured e.rect)).find? i.id = some j := by
        rw [Document.find?_update (measured_id e.rect), hid, hi]
        exact ⟨measured e.rect i, by simp⟩
      have hr : Effect w r (d, s) (d.update i.id (measured e.rect), s) :=
        .resized i.id e.rect
      dsimp only
      split
      · next f s' hc => exact .head hr (.single (.refused (hs _ _ _ hm) hc))
      · next s' hc => exact .head hr (.head (.enabled (hs _ _ _ hm) hm hc) (ih _ _ _))

end Trail

variable (b : Board) (s : σ)

theorem initCanvas_trail (page : Page) (selector : String) :
    let o := initCanvas w page selector b s
    Trail w (b.conduct (.initCanvas page selector)) (b.document, s)
      (o.board.document, o.outside) := by
  intro o
  have hl := sends_log b (.initCanvas page selector)
  cases hp : page selector with
  | error f => simpa only [o, initCanvas, hp] using .refl
  | ok elements =>
    cases elements with
    | nil => simpa only [o, initCanvas, hp] using .refl
    | cons container rest =>
      have hc : ∀ c ∈ canvasCalls container b.document, b.document.Warrants c ∧
          ∀ answer, (b.conduct (.initCanvas page selector)).sends b.document (.call c answer) := by
        intro c hc
        refine ⟨?_, fun _ => ⟨container, rest, hp, hc⟩⟩
        rcases List.mem_cons.mp hc with rfl | hc
        · trivial
        · exact Document.warrants_registration hc
      have ht : Trail w (b.conduct (.initCanvas page selector)) _ _ :=
        Trail.calls b.document hc s
      simp only [o, initCanvas, hp]
      split
      · next f s' h =>
        rw [h] at ht
        exact ht
      · next s' h =>
        rw [h] at ht
        exact ht.trans (log_trail w hl _ _ _)

theorem setBounds_trail (bounds : Rect) :
    let o := setBounds w bounds b s
    Trail w (b.conduct (.setBounds bounds)) (b.document, s) (o.board.document, o.outside) := by
  intro o
  have hl := sends_log b (.setBounds bounds)
  cases hb : b.surface with
  | none => simpa only [o, setBounds, hb] using .refl
  | some surface =>
    have hc : ∀ c ∈ (b.document.items.filter (·.draggable)).map fun i =>
        Call.makeDraggable i.id bounds.size, b.document.Warrants c ∧
          ∀ answer, (b.conduct (.setBounds bounds)).sends b.document (.call c answer) := by
      intro c hc
      obtain ⟨i, hi, rfl⟩ := List.mem_map.mp hc
      obtain ⟨hi, hd⟩ := List.mem_filter.mp hi
      exact ⟨⟨i, hi, rfl, hd⟩, fun _ => ⟨rfl, i, hi, rfl, hd⟩⟩
    have ht : Trail w (b.conduct (.setBounds bounds)) _ _ := Trail.calls b.document hc s
    simp only [o, setBounds, hb]
    split
    · next f s' h =>
      rw [h] at ht
      exact ht
    · next s' h =>
      rw [h] at ht
      exact ht.trans (log_trail w hl _ _ _)

theorem enableDragging_trail (page : Page) (selector : String) :
    let o := enableDragging w page selector b s
    Trail w (b.conduct (.enable page selector)) (b.document, s)
      (o.board.document, o.outside) := by
  intro o
  have hl := sends_log b (.enable page selector)
  cases hb : b.surface with
  | none => simpa only [o, enableDragging, hb] using .refl
  | some surface =>
    cases hp : page selector with
    | error f => simpa only [o, enableDragging, hb, hp] using .refl
    | ok elements =>
      have ht : Trail w (b.conduct (.enable page selector)) (b.document, s) _ :=
        enableAll_trail w hl (fun d id _ hi => ⟨hi, surface, hb, rfl⟩) 0 elements b.document s
      simp only [o, enableDragging, hb, hp]
      split
      · next f d s' h =>
        rw [h] at ht
        exact ht
      · next count d s' h =>
        rw [h] at ht
        exact ht.trans (log_trail w hl _ _ _)

theorem initPalette_trail (page : Page) (selector canvasSelector : String) :
    let o := initPalette w page selector canvasSelector b s
    Trail w (b.conduct (.initPalette page selector canvasSelector)) (b.document, s)
      (o.board.document, o.outside) := by
  intro o
  have hl := sends_log b (.initPalette page selector canvasSelector)
  simp only [o, initPalette]
  split
  · exact .refl
  · exact .refl
  · split
    · exact .refl
    · exact .refl
    · exact (noteSkipped_trail w hl _ _ _ _).trans (log_trail w hl _ _ _)

theorem insertItem_cases (index : Nat) (kind : String) (p : Point) :
    let o := insertItem w index kind p b s
    let id := b.document.mint.1
    (b.document.items.length < index ∧
      o = ⟨.error (.indexOutOfRange index b.document.items.length), b, s⟩) ∨
    ∃ d, b.document.mint.2.insert index (newItem b.settings id kind p) = .ok d ∧
      o = ⟨.ok id, { b with document := d }, w.log (Entries.itemInserted id kind index p) s⟩ := by
  intro o id
  by_cases h : b.document.items.length < index
  · exact Or.inl ⟨h, if_pos h⟩
  · right
    simp only [o, insertItem, if_neg h]
    have hmint : ¬ b.document.mint.2.items.length < index := h
    refine ⟨_, if_neg hmint, ?_⟩
    simp only [Document.insert, if_neg hmint]
    rfl

theorem insertItem_trail (index : Nat) (kind : String) (p : Point) :
    let o := insertItem w index kind p b s
    Trail w (b.conduct (.insert index kind p)) (b.document, s)
      (o.board.document, o.outside) := by
  intro o
  have hl := sends_log b (.insert index kind p)
  rcases insertItem_cases w b s index kind p with ⟨-, ho⟩ | ⟨d, hd, ho⟩
  · simpa only [o, ho] using .refl
  · simpa only [o, ho] using .head (.inserted index kind p hd) (log_trail w hl _ _ _)

theorem appendItem_trail (kind : String) (p : Point) :
    let o := appendItem w kind p b s
    Trail w (b.conduct (.append kind p)) (b.document, s) (o.board.document, o.outside) := by
  intro o
  have hl := sends_log b (.append kind p)
  exact .head (.inserted _ kind p (Document.push_eq_insert _ _)) (log_trail w hl _ _ _)

theorem removeItem_cases (id : ItemId) :
    let o := removeItem w id b s
    (b.document.find? id = none ∧ o = ⟨.error (.unknownItem id), b, s⟩) ∨
    ∃ i, b.document.find? id = some i ∧
      ((∃ f s', w.call (.removeElement id) s = (.error f, s') ∧ o = ⟨.error f, b, s'⟩) ∨
      ∃ s', w.call (.removeElement id) s = (.ok (), s') ∧
        o = ⟨.ok i, { b with document := b.document.remove id },
          w.log (Entries.itemRemoved id) s'⟩) := by
  intro o
  cases hi : b.document.find? id with
  | none => exact Or.inl ⟨rfl, by simp only [o, removeItem, hi]⟩
  | some i =>
    refine Or.inr ⟨i, rfl, ?_⟩
    simp only [o, removeItem, hi]
    rcases w.call (.removeElement id) s with ⟨f | _, s'⟩
    · exact Or.inl ⟨f, s', rfl, rfl⟩
    · exact Or.inr ⟨s', rfl, rfl⟩

theorem removeItem_trail (id : ItemId) :
    let o := removeItem w id b s
    Trail w (b.conduct (.remove id)) (b.document, s) (o.board.document, o.outside) := by
  intro o
  have hl := sends_log b (.remove id)
  have hs : ∀ {i}, b.document.find? id = some i → ∀ answer,
      (b.conduct (.remove id)).sends b.document (.call (.removeElement id) answer) :=
    fun hi _ => ⟨rfl, _, hi⟩
  rcases removeItem_cases w b s id with
    ⟨-, ho⟩ | ⟨i, hi, ⟨f, s', hc, ho⟩ | ⟨s', hc, ho⟩⟩
  · simpa only [o, ho] using .refl
  · simpa only [o, ho] using .single (.refused (hs hi _) hc)
  · simpa only [o, ho] using .head (.removed (hs hi _) ⟨i, hi⟩ hc) (log_trail w hl _ _ _)

theorem attach_trail (id : EndpointId) (item : ItemId) (role : Role) :
    let o := attach w id item role b s
    Trail w (b.conduct (.attach id item role)) (b.document, s)
      (o.board.document, o.outside) := by
  intro o
  have hl := sends_log b (.attach id item role)
  cases hi : b.document.find? item with
  | none => simpa only [o, attach, hi] using .refl
  | some i =>
    have hs : ∀ answer, (b.conduct (.attach id item role)).sends b.document
        (.call (.addEndpoint ⟨id, item, role, b.settings.style role⟩) answer) :=
      fun _ => ⟨rfl, i, hi⟩
    simp only [o, attach, hi]
    split
    · next f s' h => exact .single (.refused (hs _) h)
    · next s' h => exact .head (.attached (hs _) ⟨i, hi⟩ ⟨rfl, rfl⟩ h) (log_trail w hl _ _ _)

theorem connect_trail (id : ConnectionId) (source target : EndpointId) :
    let o := connect w id source target b s
    Trail w (b.conduct (.connect id source target)) (b.document, s)
      (o.board.document, o.outside) := by
  intro o
  have hl := sends_log b (.connect id source target)
  cases hf : b.document.endpoint? source with
  | none => simpa only [o, connect, hf] using .refl
  | some first =>
    cases ht : b.document.endpoint? target with
    | none => simpa only [o, connect, hf, ht] using .refl
    | some second =>
      by_cases hr : first.role ≠ .source ∨ second.role ≠ .target
      · simpa only [o, connect, hf, ht, if_pos hr] using .refl
      · simp only [o, connect, hf, ht, if_neg hr]
        obtain ⟨hs, hg⟩ := not_or.mp hr
        have hd : b.document.Warrants (.connect id first second) :=
          ⟨⟨(Document.endpoint?_some hf).1, not_not.mp hs⟩,
            (Document.endpoint?_some ht).1, not_not.mp hg⟩
        have hc : ∀ answer, (b.conduct (.connect id source target)).sends b.document
            (.call (.connect id first second) answer) := fun _ => ⟨rfl, hf, ht⟩
        split
        · next f s' h => exact .single (.refused (hc _) h)
        · next s' h => exact .head (.told (hc _) hd h) (log_trail w hl _ _ _)

theorem abandon_trail (source : DragSource) (page : Point) :
    let o := abandon w b s
    Trail w (b.conduct (.start source page)) (b.document, s)
      (o.board.document, o.outside) := by
  intro o
  have hl := sends_log b (.start source page)
  cases hg : b.gesture with
  | idle => simpa only [o, abandon, hg] using .refl
  | ignored => simpa only [o, abandon, hg] using .refl
  | template kind last => simpa only [o, abandon, hg] using log_trail w hl _ _ _
  | item id grab start =>
    simp only [o, abandon, hg]
    exact (log_trail w hl _ _ _).trans
      (place_trail w hl (b := { b with gesture := .idle }) (fun _ => ⟨rfl, grab, hg⟩) _)

theorem startFresh_trail {r : Conduct}
    (hl : ∀ d e, r.sends d (.note (.log e))) (hd : ∀ d h t, r.sends d (.note (.dragStarted h t)))
    (source : DragSource) (page : Point) :
    let o := startFresh w source page b s
    Trail w r (b.document, s) (o.board.document, o.outside) := by
  intro o
  cases source with
  | foreign => exact .refl
  | template kind =>
    simp only [o, startFresh, startTemplate]
    split
    · exact log_trail w hl _ _ _
    · rw [noteStart]
      split
      · exact log_trail w hl _ _ _
      · exact .head (.noted _ (hd _ _ _)) (log_trail w hl _ _ _)
  | item id =>
    simp only [o, startFresh, startItem]
    split
    · exact log_trail w hl _ _ _
    · split
      · exact log_trail w hl _ _ _
      · split <;> exact log_trail w hl _ _ _

theorem startDrag_trail (source : DragSource) (page : Point) :
    let o := startDrag w source page b s
    Trail w (b.conduct (.start source page)) (b.document, s)
      (o.board.document, o.outside) := by
  intro o
  have ha := abandon_trail w b s source page
  have hd : ∀ d h t, (b.conduct (.start source page)).sends d (.note (.dragStarted h t)) :=
    fun _ _ _ => trivial
  exact ha.trans (startFresh_trail w _ _ (sends_log b (.start source page)) hd source page)

theorem containedPosition?_some {b : Board} {id : ItemId} {page grab p : Point}
    (h : b.containedPosition? id page grab = some p) : ∃ i, b.document.find? id = some i := by
  rw [containedPosition?] at h
  split at h
  · next surface i _ hi => exact ⟨i, hi⟩
  · cases h

theorem moveDrag_trail (page : Point) :
    let o := moveDrag w page b s
    Trail w (b.conduct (.move page)) (b.document, s) (o.board.document, o.outside) := by
  intro o
  have hl := sends_log b (.move page)
  cases hg : b.gesture with
  | idle => simpa only [o, moveDrag, hg] using .refl
  | ignored => simpa only [o, moveDrag, hg] using .refl
  | template kind last => simpa only [o, moveDrag, hg] using .refl
  | item id grab start =>
    simp only [o, moveDrag, hg]
    split
    · exact log_trail w hl _ _ _
    · next p hp =>
      exact place_trail w hl (fun _ => ⟨containedPosition?_some hp, grab, start, hg⟩) s

theorem publishPlacement_trail {r : Conduct}
    (hl : ∀ d e, r.sends d (.note (.log e))) {d : Document} {p : Placement}
    (hp : ∀ who, r.sends d (.note (.placement who p))) :
    Trail w r (d, s) (d, publishPlacement w b p s) :=
  (log_trail w hl _ _ _).trans (announce_trail w hp _ _)

theorem publishMove_trail {r : Conduct}
    (hl : ∀ d e, r.sends d (.note (.log e))) {d : Document} {m : Move}
    (hm : ∀ who, r.sends d (.note (.move who m))) :
    Trail w r (d, s) (d, publishMove w b m s) :=
  (log_trail w hl _ _ _).trans (announce_trail w hm _ _)

theorem dropTemplate_trail {r : Conduct}
    (hl : ∀ d e, r.sends d (.note (.log e))) {d : Document}
    (hp : ∀ who p, r.sends d (.note (.placement who p))) (kind : String) (page : Point) :
    Trail w r (d, s) (d, (dropTemplate w kind page b s).2) := by
  simp only [dropTemplate]
  split
  · exact log_trail w hl _ _ _
  · split
    · exact log_trail w hl _ _ _
    · split
      · exact (log_trail w hl _ _ _).trans (publishPlacement_trail w b _ hl fun who => hp who _)
      · exact log_trail w hl _ _ _

theorem stopTemplate_trail {r : Conduct}
    (hl : ∀ d e, r.sends d (.note (.log e))) (hp : ∀ d who p, r.sends d (.note (.placement who p)))
    (hd : ∀ d h t dropped, r.sends d (.note (.dragStopped h t dropped))) (kind : String)
    (page : Point) :
    let o := stopTemplate w kind page b s
    Trail w r (b.document, s) (o.board.document, o.outside) := by
  intro o
  have ht : Trail w r (b.document, s) (b.document, _) :=
    dropTemplate_trail w b s hl (hp b.document) kind page
  simp only [o, stopTemplate]
  split
  · exact ht
  · rw [noteStop]
    split
    · exact ht
    · exact ht.tail (.noted _ (hd _ _ _ _))

theorem stopItem_trail {r : Conduct}
    (hl : ∀ d e, r.sends d (.note (.log e)))
    (id : ItemId) (hc : ∀ p answer, (∃ i, b.document.find? id = some i) →
      r.sends b.document (.call (.moveItem id p) answer))
    (hm : ∀ d who index p, (∃ i, d.find? id = some i) →
      r.sends d (.note (.move who ⟨index, id, p⟩)))
    (grab start page : Point) :
    let o := stopItem w id grab start page b s
    Trail w r (b.document, s) (o.board.document, o.outside) := by
  intro o
  simp only [o, stopItem]
  split
  · next p index hp _ =>
    have hi := containedPosition?_some hp
    have ht : Trail w r (b.document, s) _ :=
      place_trail w hl (fun answer => hc p answer hi) s
    have hd : (place w id p b s).1.document = b.document.setPosition id p := by
      simp only [place]
      split <;> rfl
    have hi' : ∃ i, (place w id p b s).1.document.find? id = some i := by
      rw [hd, ← Option.isSome_iff_exists, Document.setPosition, Document.isSome_find?_update]
      · exact Option.isSome_iff_exists.mpr hi
      · intro i
        rfl
    have hn := ht.trans (log_trail w hl _ (Entries.itemFinished id index start p) _)
    exact hn.trans (publishMove_trail w _ _ hl fun who => hm _ who index p hi')
  · exact log_trail w hl _ _ _

theorem stopDrag_trail (page : Point) :
    let o := stopDrag w page b s
    Trail w (b.conduct (.stop page)) (b.document, s) (o.board.document, o.outside) := by
  intro o
  have hl := sends_log b (.stop page)
  cases hg : b.gesture with
  | idle => simpa only [o, stopDrag, hg] using log_trail w hl _ _ _
  | ignored => simpa only [o, stopDrag, hg] using .refl
  | template kind last =>
    simp only [o, stopDrag, hg]
    exact stopTemplate_trail w { b with gesture := .idle } s hl (fun _ _ _ => trivial)
      (fun _ _ _ _ => trivial) kind page
  | item id grab start =>
    simp only [o, stopDrag, hg]
    refine stopItem_trail w { b with gesture := .idle } s hl id ?_ ?_ grab start page
    · exact fun p answer hi => ⟨hi, grab, start, hg⟩
    · exact fun d who index p hi => ⟨hi, grab, start, hg⟩

theorem step_trail (op : Op) :
    let o := step w op b s
    Trail w (b.conduct op) (b.document, s) (o.board.document, o.outside) := by
  cases op with
  | initPalette page selector canvas => exact initPalette_trail w b s page selector canvas
  | initCanvas page selector => exact initCanvas_trail w b s page selector
  | enable page selector => exact enableDragging_trail w b s page selector
  | setBounds bounds => exact setBounds_trail w b s bounds
  | append kind p => exact appendItem_trail w b s kind p
  | insert index kind p => exact insertItem_trail w b s index kind p
  | remove id => exact removeItem_trail w b s id
  | attach id item role => exact attach_trail w b s id item role
  | connect id source target => exact connect_trail w b s id source target
  | start source page => exact startDrag_trail w b s source page
  | move page => exact moveDrag_trail w b s page
  | stop page => exact stopDrag_trail w b s page
  | _ => exact .refl

end DiagramEditor.Board
