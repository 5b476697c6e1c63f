import DiagramEditor.Proofs.Board.Conduct
import DiagramEditor.Proofs.Document.Growth
import DiagramEditor.Proofs.Settings

/-! Order in the document along a run: it stays sound, every endpoint has the configured style of
its role, and as long as no id is given twice no two endpoints share one. The surroundings may be
any. -/
namespace DiagramEditor

theorem Settings.of_problem?_none {settings : Settings} (h : settings.problem? = none) :
    (isPositive settings.itemWidth = true ∧ isPositive settings.itemHeight = true) ∧
      ∀ role, styleProblem? role (settings.style role) = none := by
  have hc := problem?_eq_none_iff.mp h
  exact ⟨⟨hc.itemWidth, hc.itemHeight⟩, hc.style⟩

theorem Item.endpoints_measured (bounds : Rect) (i : Item) :
    (Board.measured bounds i).endpoints = i.endpoints := by
  rw [Board.measured]
  split <;> rfl

namespace Board

theorem measured_draggable (bounds : Rect) (i : Item) :
    (measured bounds i).draggable = i.draggable := by
  rw [measured]
  split <;> rfl

variable {σ : Type} {w : Surroundings σ}

section Effect
variable {r : Conduct} {x y : Document × σ}

theorem Effect.sound (h : Effect w r x y) (hs : x.1.Sound) : y.1.Sound := by
  cases h with
  | noted n _ => exact hs
  | refused _ _ => exact hs
  | told _ _ _ => exact hs
  | resized id bounds => exact hs.adjust (measured_id bounds) (Item.endpoints_measured bounds)
  | enabled _ _ _ => exact hs.adjust (fun _ => rfl) fun _ => rfl
  | placed _ _ => exact hs.adjust (fun _ => rfl) fun _ => rfl
  | slipped _ _ => exact hs.adjust (fun _ => rfl) fun _ => rfl
  | inserted index kind p h => exact hs.insert h rfl rfl
  | removed _ _ _ => exact hs.remove _
  | attached _ _ _ _ => exact hs.attach _

theorem Effect.follows (h : Effect w r x y) (hs : x.1.Sound) : x.1.Follows y.1 := by
  cases h with
  | noted n _ => exact .refl _
  | refused _ _ => exact .refl _
  | told _ _ _ => exact .refl _
  | resized id bounds =>
    exact Document.follows_update (measured_id bounds)
      (fun i => Item.grows_of_eq (measured_draggable bounds i) (Item.endpoints_measured bounds i))
      _ id
  | enabled _ _ _ =>
    exact Document.follows_update (f := Item.enable) (fun _ => rfl) Item.grows_enable _ _
  | placed _ _ => exact Document.follows_setPosition _ _ _
  | slipped _ _ => exact Document.follows_setPosition _ _ _
  | inserted index kind p h => exact hs.follows_insert h rfl
  | removed _ _ _ => exact hs.follows_remove _
  | @attached _ _ _ e _ _ _ _ =>
    exact Document.follows_update (f := Item.attach e) (fun _ => rfl) (Item.grows_attach e) _ _

theorem Effect.endpoints (h : Effect w r x y) :
    y.1.endpoints.Sublist x.1.endpoints ∨
      ∃ e, r.attaches x.1 e ∧ y.1.endpoints.Perm (e :: x.1.endpoints) := by
  have hupdate : ∀ (d : Document) (id : ItemId) (f : Item → Item),
      (∀ i, (f i).endpoints = i.endpoints) → (d.update id f).endpoints.Sublist d.endpoints := by
    intro d id f hf
    rw [Document.endpoints_update hf]
  cases h with
  | noted n _ => exact Or.inl (List.Sublist.refl _)
  | refused _ _ => exact Or.inl (List.Sublist.refl _)
  | told _ _ _ => exact Or.inl (List.Sublist.refl _)
  | resized id bounds => exact Or.inl (hupdate _ _ _ (Item.endpoints_measured bounds))
  | enabled _ _ _ => exact Or.inl (hupdate _ _ _ fun _ => rfl)
  | placed _ _ => exact Or.inl (hupdate _ _ _ fun _ => rfl)
  | slipped _ _ => exact Or.inl (hupdate _ _ _ fun _ => rfl)
  | inserted index kind p h =>
    left
    rw [Document.endpoints_insert h rfl]
    exact List.Sublist.refl _
  | removed _ _ _ => exact Or.inl (Document.endpoints_remove _ _)
  | attached _ hi ha _ => exact Or.inr ⟨_, ha, Document.endpoints_attach hi⟩

theorem Effect.endpoints_subset (h : Effect w r x y) {e : Endpoint} (he : e ∈ y.1.endpoints) :
    e ∈ x.1.endpoints ∨ r.attaches x.1 e := by
  rcases h.endpoints with hs | ⟨f, hf, hp⟩
  · exact Or.inl (hs.subset he)
  · rcases List.mem_cons.mp (hp.mem_iff.mp he) with rfl | he
    · exact Or.inr hf
    · exact Or.inl he

theorem Effect.distinct (h : Effect w r x y)
    (hr : ∀ {d e}, r.attaches d e → ∀ f ∈ d.endpoints, f.id ≠ e.id) (hd : x.1.Distinct) :
    y.1.Distinct := by
  rcases h.endpoints with hs | ⟨e, he, hp⟩
  · exact hd.sublist hs
  · exact hd.perm_cons (hr he) hp

end Effect

/-- What holds of a board whose endpoints were given ids from a list. -/
structure Orderly (b : Board) (ids : List EndpointId) : Prop where
  sound : b.document.Sound
  styled : ∀ e ∈ b.document.endpoints, e.style = b.settings.style e.role
  known : ∀ e ∈ b.document.endpoints, e.id ∈ ids
  distinct : ids.Nodup → b.document.Distinct

@[simp] theorem place_board (w : Surroundings σ) (id : ItemId) (p : Point) (b : Board) (s : σ) :
    (place w id p b s).1 = { b with document := b.document.setPosition id p } := by
  simp only [place]
  split <;> rfl

namespace Op

def isGesture : Op → Bool
  | .start _ _ | .move _ | .stop _ => true
  | _ => false

def enrols : Op → Bool
  | .onPlacement _ | .offPlacement _ => true
  | _ => false

def follows : Op → Bool
  | .onMove _ | .offMove _ => true
  | _ => false

/-- What an operation leaves of a board as it was. A palette and a canvas once in place may be
replaced, but do not go away. -/
structure Keeps (op : Op) (b c : Board) : Prop where
  settings : c.settings = b.settings
  palette : b.palette.isSome = true → c.palette.isSome = true
  canvas : b.surface.isSome = true → c.surface.isSome = true
  surface : op.reframes = false → c.surface = b.surface
  gesture : op.isGesture = false → c.gesture = b.gesture
  placements : op.enrols = false → c.placements = b.placements
  moves : op.follows = false → c.moves = b.moves

end Op

section Frame
variable (w : Surroundings σ) (b : Board) (s : σ)

theorem abandon_frame : ∃ d g, (abandon w b s).board = { b with document := d, gesture := g } := by
  simp only [abandon]
  split
  · exact ⟨_, _, rfl⟩
  · exact ⟨_, _, rfl⟩
  · exact ⟨_, _, rfl⟩
  · exact ⟨_, _, place_board w _ _ _ _⟩

theorem startFresh_frame (source : DragSource) (page : Point) :
    ∃ d g, (startFresh w source page b s).board = { b with document := d, gesture := g } := by
  cases source with
  | foreign => exact ⟨_, _, rfl⟩
  | template kind =>
    simp only [startFresh, startTemplate]
    split <;> exact ⟨_, _, rfl⟩
  | item id =>
    simp only [startFresh, startItem]
    repeat' split
    all_goals exact ⟨_, _, rfl⟩

theorem startDrag_frame (source : DragSource) (page : Point) :
    ∃ d g, (startDrag w source page b s).board = { b with document := d, gesture := g } := by
  obtain ⟨d, g, h⟩ := abandon_frame w b s
  obtain ⟨d', g', h'⟩ :=
    startFresh_frame w (abandon w b s).board (abandon w b s).outside source page
  exact ⟨d', g', by rw [startDrag, h', h]⟩

theorem moveDrag_frame (page : Point) :
    ∃ d g, (moveDrag w page b s).board = { b with document := d, gesture := g } := by
  simp only [moveDrag]
  split
  · exact ⟨_, _, rfl⟩
  · exact ⟨_, _, rfl⟩
  · exact ⟨_, _, rfl⟩
  · split
    · exact ⟨_, _, rfl⟩
    · exact ⟨_, _, place_board w _ _ b s⟩

theorem stopDrag_frame (page : Point) :
    ∃ d g, (stopDrag w page b s).board = { b with document := d, gesture := g } := by
  simp only [stopDrag]
  split
  · exact ⟨_, _, rfl⟩
  · exact ⟨_, _, rfl⟩
  · exact ⟨_, _, rfl⟩
  · simp only [stopItem]
    split
    · exact ⟨_, _, place_board w _ _ _ s⟩
    · exact ⟨_, _, rfl⟩

theorem step_keeps (op : Op) : op.Keeps b (step w op b s).board := by
  have hgesture : ∀ {c : Board}, (∃ d g, c = { b with document := d, gesture := g }) →
      op.isGesture = true → op.Keeps b c := by
    intro c hc hop
    obtain ⟨d, g, rfl⟩ := hc
    exact ⟨rfl, id, id, fun _ => rfl, fun hne => absurd hop (hne ▸ Bool.false_ne_true),
      fun _ => rfl, fun _ => rfl⟩
  cases op with
  | start source page => exact hgesture (startDrag_frame w b s source page) rfl
  | move page => exact hgesture (moveDrag_frame w b s page) rfl
  | stop page => exact hgesture (stopDrag_frame w b s page) rfl
  | _ =>
    simp only [step, answer, initPalette, initCanvas, enableDragging, setBounds, appendItem,
      insertItem, removeItem, attach, connect]
    repeat' split
    all_goals constructor <;> simp [Op.reframes, Op.enrols, Op.follows]

theorem step_settings (op : Op) : (step w op b s).board.settings = b.settings :=
  (step_keeps w b s op).settings

theorem step_surface {op : Op} (h : op.reframes = false) :
    (step w op b s).board.surface = b.surface :=
  (step_keeps w b s op).surface h

end Frame

theorem new_ok {settings : Settings} {b : Board} (h : Board.new settings = .ok b) :
    settings.problem? = none ∧ b.settings = settings ∧ b.document = .empty settings.idPrefix ∧
      b.gesture = .idle ∧ b.surface = none := by
  rw [Board.new] at h
  split at h
  · cases h
  · next hp =>
    obtain rfl := Except.ok.inj h
    exact ⟨hp, rfl, rfl, rfl, rfl⟩

def standard : Board := ⟨{}, none, none, .empty "canvasItem", .idle, none, .empty, .empty⟩

theorem new_standard : Board.new {} = .ok standard := rfl

def sheet : Page := fun selector =>
  if selector = "#canvas" then .ok [{ tag := "div", id := some "canvas", rect := ⟨0, 0, 800, 600⟩ }]
  else .ok [{ tag := "div", id := some "canvasItem0", rect := ⟨10, 20, 120, 50⟩ }]

theorem orderly_new {settings : Settings} {b : Board} (h : Board.new settings = .ok b) :
    b.Orderly [] := by
  obtain ⟨-, -, hd, -, -⟩ := new_ok h
  refine ⟨hd ▸ Document.sound_empty _, ?_, ?_, fun _ => ?_⟩ <;> rw [hd]
  · exact fun e he => absurd he List.not_mem_nil
  · exact fun e he => absurd he List.not_mem_nil
  · exact List.nodup_nil

theorem attaches_iff {b : Board} {op : Op} {d : Document} {e : Endpoint}
    (h : (b.conduct op).attaches d e) :
    op.endpointId? = some e.id ∧ e.style = b.settings.style e.role ∧ d = b.document := by
  cases op with
  | attach id item role =>
    obtain ⟨rfl, hd⟩ := h
    exact ⟨rfl, rfl, hd⟩
  | _ => exact h.elim

theorem Orderly.attaches_fresh {b : Board} {ids : List EndpointId} (h : b.Orderly ids) {op : Op}
    (hn : (ids ++ op.endpointId?.toList).Nodup) {d : Document} {e : Endpoint}
    (ha : (b.conduct op).attaches d e) : ∀ f ∈ d.endpoints, f.id ≠ e.id := by
  intro f hf
  obtain ⟨hid, -, rfl⟩ := attaches_iff ha
  exact (List.nodup_append.mp hn).2.2 f.id (h.known f hf) e.id
    (by rw [hid]; exact List.mem_singleton_self _)

theorem step_sound {b : Board} {op : Op} {s : σ} (hs : b.document.Sound) :
    (step w op b s).board.document.Sound :=
  (step_trail w b s op).keeps (P := fun x => x.1.Sound) Effect.sound hs

theorem step_follows {b : Board} {op : Op} {s : σ} (hs : b.document.Sound) :
    b.document.Follows (step w op b s).board.document :=
  ((step_trail w b s op).keeps (P := fun x => x.1.Sound ∧ b.document.Follows x.1)
    (fun hxy ⟨hs, hf⟩ => ⟨hxy.sound hs, hf.trans (hxy.follows hs)⟩) ⟨hs, .refl _⟩).2

theorem Orderly.step {b : Board} {ids : List EndpointId} (h : b.Orderly ids) (w : Surroundings σ)
    (op : Op) (s : σ) : (step w op b s).board.Orderly (ids ++ op.endpointId?.toList) := by
  have ht := step_trail w b s op
  have hset := step_settings w b s op
  have hsource : ∀ e ∈ (Board.step w op b s).board.document.endpoints,
      e ∈ b.document.endpoints ∨ ∃ d, (b.conduct op).attaches d e := by
    refine ht.keeps (P := fun x => ∀ e ∈ x.1.endpoints,
      e ∈ b.document.endpoints ∨ ∃ d, (b.conduct op).attaches d e) ?_ fun e he => Or.inl he
    intro x y hxy hx e he
    exact (hxy.endpoints_subset he).elim (hx e) fun ha => Or.inr ⟨_, ha⟩
  refine ⟨step_sound h.sound, ?_, ?_, ?_⟩
  · intro e he
    rw [hset]
    rcases hsource e he with he | ⟨d, ha⟩
    · exact h.styled e he
    · exact (attaches_iff ha).2.1
  · intro e he
    rw [List.mem_append]
    rcases hsource e he with he | ⟨d, ha⟩
    · exact Or.inl (h.known e he)
    · exact Or.inr (by rw [(attaches_iff ha).1]; exact List.mem_singleton_self _)
  · intro hn
    exact ht.keeps (P := fun x => x.1.Distinct) (fun hxy => hxy.distinct (h.attaches_fresh hn))
      (h.distinct (List.nodup_append.mp hn).1)

theorem endpointIds_concat (ops : List Op) (op : Op) :
    endpointIds (ops ++ [op]) = endpointIds ops ++ op.endpointId?.toList := by
  rw [endpointIds, List.filterMap_append, List.filterMap_cons]
  cases op.endpointId? <;> rfl

theorem run_orderly {settings : Settings} {b : Board} (hb : Board.new settings = .ok b)
    (w : Surroundings σ) (ops : List Op) (s : σ) :
    (run w ops b s).board.settings = settings ∧
      (run w ops b s).board.Orderly (endpointIds ops) := by
  refine run_induction (P := fun ops o => o.board.settings = settings ∧
    o.board.Orderly (endpointIds ops)) ⟨(new_ok hb).2.1, orderly_new hb⟩ ?_ ops
  intro ops op ih
  rw [endpointIds_concat]
  exact ⟨(step_settings w.recorded _ _ op).trans ih.1, ih.2.step w.recorded op _⟩

end Board

end DiagramEditor
