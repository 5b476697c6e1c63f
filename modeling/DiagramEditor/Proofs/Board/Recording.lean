import DiagramEditor.Proofs.Board.History

/-! What a board does on surroundings does not depend on what else these keep: seen through a
function that calls and notes respect, a board does the same on both sides. So it does when it is
recorded. A gesture asks for less, because it takes no notice of what the library answers. -/
namespace DiagramEditor

/-- Written to the log only when the library turns down to move an item. -/
def Log.Entry.reportsRefusal (e : Log.Entry) : Bool :=
  e.message == "connection library failed to move item"

def Note.reportsRefusal : Note → Bool
  | .log e => e.reportsRefusal
  | _ => false

variable {σ τ : Type}

/-- Calls and notes on `w` show through `f` as calls and notes on `v`. -/
structure Surroundings.Shows (w : Surroundings σ) (v : Surroundings τ) (f : σ → τ) : Prop where
  call : ∀ c s, v.call c (f s) = ((w.call c s).1, f (w.call c s).2)
  note : ∀ n s, v.note n (f s) = f (w.note n s)

/-- Placing an item shows through `f`, whatever comes of the call, and so do the notes that do not
report what came of it. -/
structure Surroundings.ShowsGestures (w : Surroundings σ) (v : Surroundings τ) (f : σ → τ) :
    Prop where
  place : ∀ id p b s, Board.place v id p b (f s) =
    ((Board.place w id p b s).1, f (Board.place w id p b s).2)
  note : ∀ {n}, n.reportsRefusal = false → ∀ s, v.note n (f s) = f (w.note n s)

theorem Surroundings.ShowsGestures.log {w : Surroundings σ} {v : Surroundings τ} {f : σ → τ}
    (h : w.ShowsGestures v f) {e : Log.Entry} (he : e.reportsRefusal = false) (s : σ) :
    v.log e (f s) = f (w.log e s) :=
  h.note (n := .log e) he s

theorem Surroundings.recorded_shows (w : Surroundings σ) :
    w.recorded.Shows w Recorded.inner where
  call := fun _ _ => rfl
  note := fun _ _ => rfl

def Outcome.seen {α : Type} (f : σ → τ) (o : Outcome σ α) : Outcome τ α :=
  ⟨o.reply, o.board, f o.outside⟩

namespace Board

variable {w : Surroundings σ} {v : Surroundings τ} {f : σ → τ}

section Gesture
variable (h : w.ShowsGestures v f) (b : Board) (s : σ)
include h

theorem publishPlacement_seen (p : Placement) :
    publishPlacement v b p (f s) = f (publishPlacement w b p s) := by
  simp only [publishPlacement]
  rw [h.log rfl]
  exact List.foldl_hom f fun s who => h.note rfl s

theorem publishMove_seen (m : Move) : publishMove v b m (f s) = f (publishMove w b m s) := by
  simp only [publishMove]
  rw [h.log rfl]
  exact List.foldl_hom f fun s who => h.note rfl s

theorem noteStart_seen (t : Template) : noteStart v b t (f s) = f (noteStart w b t s) := by
  simp only [noteStart]
  split
  · rfl
  · exact h.note rfl s

theorem noteStop_seen (t : Template) (dropped : Bool) :
    noteStop v b t dropped (f s) = f (noteStop w b t dropped s) := by
  simp only [noteStop]
  split
  · rfl
  · exact h.note rfl s

theorem abandon_seen : abandon v b (f s) = (abandon w b s).seen f := by
  cases hg : b.gesture with
  | item id grab start =>
    simp only [abandon, hg]
    rw [h.log rfl, h.place]
    rfl
  | template kind last =>
    simp only [abandon, hg]
    rw [h.log rfl]
    rfl
  | _ => simp only [abandon, hg, Outcome.seen]

theorem startFresh_seen (source : DragSource) (page : Point) :
    startFresh v source page b (f s) = (startFresh w source page b s).seen f := by
  cases source with
  | foreign => rfl
  | template kind =>
    simp only [startFresh, startTemplate]
    split
    · rw [h.log rfl]
      rfl
    · rw [noteStart_seen h, h.log rfl]
      rfl
  | item id =>
    simp only [startFresh, startItem]
    repeat' split
    all_goals
      rw [h.log rfl]
      rfl

theorem moveDrag_seen (page : Point) :
    moveDrag v page b (f s) = (moveDrag w page b s).seen f := by
  cases hg : b.gesture with
  | item id grab start =>
    simp only [moveDrag, hg]
    split
    · rw [h.log rfl]
      rfl
    · rw [h.place]
      rfl
  | _ => simp only [moveDrag, hg, Outcome.seen]

theorem dropTemplate_seen (kind : String) (page : Point) :
    dropTemplate v kind page b (f s) =
      ((dropTemplate w kind page b s).1, f (dropTemplate w kind page b s).2) := by
  simp only [dropTemplate]
  split
  · exact congrArg _ (h.log rfl s)
  · split
    · exact congrArg _ (h.log rfl s)
    · split
      · rw [h.log rfl, publishPlacement_seen h]
      · exact congrArg _ (h.log rfl s)

theorem stopDrag_seen (page : Point) :
    stopDrag v page b (f s) = (stopDrag w page b s).seen f := by
  cases hg : b.gesture with
  | idle =>
    simp only [stopDrag, hg]
    rw [h.log rfl]
    rfl
  | ignored => simp only [stopDrag, hg, Outcome.seen]
  | template kind last =>
    simp only [stopDrag, hg, stopTemplate]
    rw [dropTemplate_seen h]
    dsimp only
    split
    · rfl
    · rw [noteStop_seen h]
      rfl
  | item id grab start =>
    simp only [stopDrag, hg, stopItem]
    split
    · rw [h.place, h.log rfl, publishMove_seen h]
      rfl
    · rw [h.log rfl]
      rfl

theorem startDrag_seen (source : DragSource) (page : Point) :
    startDrag v source page b (f s) = (startDrag w source page b s).seen f := by
  simp only [startDrag, abandon_seen h]
  simp only [Outcome.seen, startFresh_seen h]

end Gesture

section Shows
variable (h : w.Shows v f) (b : Board) (s : σ)
include h

omit b in
theorem log_seen (e : Log.Entry) : v.log e (f s) = f (w.log e s) := h.note _ s

omit b in
theorem callAll_seen (calls : List Wiring.Call) :
    Wiring.Library.callAll v.call calls (f s) =
      ((Wiring.Library.callAll w.call calls s).1, f (Wiring.Library.callAll w.call calls s).2) := by
  induction calls generalizing s with
  | nil => rfl
  | cons c rest ih =>
    simp only [Wiring.Library.callAll, h.call]
    rcases w.call c s with ⟨_ | _, s'⟩
    · rfl
    · exact ih s'

omit b in
theorem noteSkipped_seen (kindAttribute : String) (elements : List Element) :
    noteSkipped v kindAttribute elements (f s) = f (noteSkipped w kindAttribute elements s) := by
  refine List.foldl_hom f fun s e => ?_
  split
  · rfl
  · exact log_seen h s _

omit b in
theorem enableAll_seen (box : Size) (count : Nat) (elements : List Element) (d : Document) :
    let o := enableAll w box count elements d s
    enableAll v box count elements d (f s) = (o.1, o.2.1, f o.2.2) := by
  intro o
  induction elements generalizing count d s with
  | nil => rfl
  | cons e rest ih =>
    simp only [o, enableAll]
    split
    · rw [log_seen h, ih]
    · next i _ =>
      rw [h.call]
      rcases w.call (.makeDraggable i.id box) s with ⟨_ | _, s'⟩
      · rfl
      · exact ih s' _ _

theorem place_seen (id : ItemId) (p : Point) :
    place v id p b (f s) = ((place w id p b s).1, f (place w id p b s).2) := by
  simp only [place, h.call]
  rcases w.call (.moveItem id p) s with ⟨_ | _, s'⟩
  · exact congrArg _ (log_seen h s' _)
  · rfl

omit b s in
theorem Shows.gestures : w.ShowsGestures v f where
  place := fun id p b s => place_seen h b s id p
  note := fun _ s => h.note _ s

theorem initPalette_seen (page : Page) (selector canvasSelector : String) :
    initPalette v page selector canvasSelector b (f s) =
      (initPalette w page selector canvasSelector b s).seen f := by
  simp only [initPalette]
  repeat' split
  · rfl
  · rfl
  · rfl
  · rfl
  · rw [noteSkipped_seen h, log_seen h]
    rfl

theorem initCanvas_seen (page : Page) (selector : String) :
    initCanvas v page selector b (f s) = (initCanvas w page selector b s).seen f := by
  simp only [initCanvas]
  split
  · rfl
  · rfl
  · next container rest _ =>
    rw [callAll_seen h]
    rcases Wiring.Library.callAll w.call (canvasCalls container b.document) s with ⟨_ | _, s'⟩
    · rfl
    · dsimp only
      rw [log_seen h]
      rfl

theorem enableDragging_seen (page : Page) (selector : String) :
    enableDragging v page selector b (f s) = (enableDragging w page selector b s).seen f := by
  simp only [enableDragging]
  split
  · rfl
  · next surface _ =>
    split
    · rfl
    · next elements _ =>
      rw [enableAll_seen h]
      rcases enableAll w surface.bounds.size 0 elements b.document s with ⟨_ | _, d, s'⟩
      · rfl
      · dsimp only
        rw [log_seen h]
        rfl

theorem setBounds_seen (bounds : Rect) :
    setBounds v bounds b (f s) = (setBounds w bounds b s).seen f := by
  simp only [setBounds]
  split
  · rfl
  · rw [callAll_seen h]
    rcases Wiring.Library.callAll w.call _ s with ⟨_ | _, s'⟩
    · rfl
    · dsimp only
      rw [log_seen h]
      rfl

theorem insertItem_seen (index : Nat) (kind : String) (p : Point) :
    insertItem v index kind p b (f s) = (insertItem w index kind p b s).seen f := by
  simp only [insertItem]
  repeat' split
  · rfl
  · rfl
  · rw [log_seen h]
    rfl

theorem removeItem_seen (id : ItemId) :
    removeItem v id b (f s) = (removeItem w id b s).seen f := by
  simp only [removeItem, h.call]
  split
  · rfl
  · rcases w.call (.removeElement id) s with ⟨_ | _, s'⟩
    · rfl
    · dsimp only
      rw [log_seen h]
      rfl

theorem attach_seen (id : EndpointId) (item : ItemId) (role : Role) :
    attach v id item role b (f s) = (attach w id item role b s).seen f := by
  simp only [attach, h.call]
  split
  · rfl
  · rcases w.call (.addEndpoint _) s with ⟨_ | _, s'⟩
    · rfl
    · dsimp only
      rw [log_seen h]
      rfl

theorem connect_seen (id : ConnectionId) (source target : EndpointId) :
    connect v id source target b (f s) = (connect w id source target b s).seen f := by
  simp only [connect, h.call]
  split
  · rfl
  · split
    · rfl
    · split
      · rfl
      · rcases w.call (.connect id _ _) s with ⟨_ | _, s'⟩
        · rfl
        · dsimp only
          rw [log_seen h]
          rfl

theorem step_seen (op : Op) : step v op b (f s) = (step w op b s).seen f := by
  cases op with
  | initPalette page selector canvas =>
    exact congrArg (answer _) (initPalette_seen h b s page selector canvas)
  | initCanvas page selector => exact congrArg (answer _) (initCanvas_seen h b s page selector)
  | enable page selector => exact congrArg (answer _) (enableDragging_seen h b s page selector)
  | setBounds bounds => exact congrArg (answer _) (setBounds_seen h b s bounds)
  | append kind p =>
    simp only [step, appendItem, log_seen h]
    rfl
  | insert index kind p => exact congrArg (answer _) (insertItem_seen h b s index kind p)
  | remove id => exact congrArg (answer _) (removeItem_seen h b s id)
  | attach id item role => exact congrArg (answer _) (attach_seen h b s id item role)
  | connect id source target => exact congrArg (answer _) (connect_seen h b s id source target)
  | start source page =>
    exact congrArg (answer _) (startDrag_seen (Shows.gestures h) b s source page)
  | move page => exact congrArg (answer _) (moveDrag_seen (Shows.gestures h) b s page)
  | stop page => exact congrArg (answer _) (stopDrag_seen (Shows.gestures h) b s page)
  | _ => rfl

end Shows

theorem step_turn (w : Surroundings σ) (op : Op) (b : Board) (s : σ) :
    step w op b s =
      ⟨(turn w op b s).reply.reply, (turn w op b s).board, (turn w op b s).outside⟩ :=
  step_seen w.recorded_shows b ⟨s, []⟩ op

end Board

end DiagramEditor
