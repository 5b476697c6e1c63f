import DiagramEditor.Proofs.Board.Gestures

/-! Bulletins: events for their subscribers with the log entries that announce them. Only the end of
a drag sends any out. -/
namespace DiagramEditor

open Wiring (Call)

def Log.Entry.announces (e : Log.Entry) : Bool :=
  e.message == "publishing event" || e.message == "placement requested"

namespace Signal

def isPublic : Signal → Bool
  | .note (.log e) => e.announces
  | .note (.placement _ _) | .note (.move _ _) => true
  | _ => false

def call? : Signal → Option Call
  | .call c _ => some c
  | _ => none

def bulletins (gs : List Signal) : List Signal := gs.filter isPublic

def calls (gs : List Signal) : List Call := gs.filterMap call?

theorem bulletins_append (gs hs : List Signal) :
    bulletins (gs ++ hs) = bulletins gs ++ bulletins hs :=
  List.filter_append gs hs

theorem calls_append (gs hs : List Signal) : calls (gs ++ hs) = calls gs ++ calls hs :=
  List.filterMap_append

theorem bulletins_concat (gs : List Signal) {g : Signal} (h : g.isPublic = false) :
    bulletins (gs ++ [g]) = bulletins gs := by
  have hquiet : bulletins [g] = [] := by simp [bulletins, h]
  rw [bulletins_append, hquiet, List.append_nil]

end Signal

open Signal

namespace Board

def Turn.bulletins (t : Turn) : List Signal := Signal.bulletins t.signals

def Turn.calls (t : Turn) : List Call := Signal.calls t.signals

/-- An event on its way to the subscribers of a bus, each told once and in their order. -/
def announcement (bus : Bus Subscriber) (toNote : Subscriber → Note) : List Signal :=
  .note (.log (Entries.publishing bus.audience.length)) ::
    bus.audience.map fun who => .note (toNote who)

end Board

def Placement.bulletin (bus : Bus Subscriber) (p : Placement) : List Signal :=
  .note (.log (Board.Entries.placementRequested p.kind p.position)) ::
    Board.announcement bus fun who => .placement who p

def Move.bulletin (bus : Bus Subscriber) (m : Move) : List Signal :=
  Board.announcement bus fun who => .move who m

namespace Board

theorem bulletins_announcement (bus : Bus Subscriber) {toNote : Subscriber → Note}
    (h : ∀ who, (Signal.note (toNote who)).isPublic = true) :
    bulletins (announcement bus toNote) = announcement bus toNote := by
  refine List.filter_eq_self.mpr fun g hg => ?_
  rcases List.mem_cons.mp hg with rfl | hg
  · rfl
  · obtain ⟨who, -, rfl⟩ := List.mem_map.mp hg
    exact h who

theorem calls_announcement (bus : Bus Subscriber) (toNote : Subscriber → Note) :
    calls (announcement bus toNote) = [] := by
  refine List.filterMap_eq_nil_iff.mpr fun g hg => ?_
  rcases List.mem_cons.mp hg with rfl | hg
  · rfl
  · obtain ⟨who, -, rfl⟩ := List.mem_map.mp hg
    rfl

section Quiet
variable {σ : Type} (w : Surroundings σ)

theorem log_bulletins {e : Log.Entry} (h : e.announces = false) (s : Recorded σ) :
    bulletins (w.recorded.log e s).signals = bulletins s.signals :=
  bulletins_concat s.signals h

theorem call_bulletins {c : Call} {answer : Except Fault Unit} {s s' : Recorded σ}
    (h : w.recorded.call c s = (answer, s')) : bulletins s'.signals = bulletins s.signals := by
  rw [(Surroundings.recorded_call h).2]
  exact bulletins_concat s.signals rfl

theorem callAll_bulletins {calls : List Call} {answer : Except Fault Unit} {s s' : Recorded σ}
    (h : Wiring.Library.callAll w.recorded.call calls s = (answer, s')) :
    bulletins s'.signals = bulletins s.signals := by
  induction calls generalizing s with
  | nil => rw [(Prod.mk.inj h).2]
  | cons c rest ih =>
    rw [Wiring.Library.callAll] at h
    split at h
    · next f s₁ hc =>
      rw [← (Prod.mk.inj h).2]
      exact call_bulletins w hc
    · next s₁ hc => exact (ih h).trans (call_bulletins w hc)

theorem noteSkipped_bulletins (kindAttribute : String) (elements : List Element)
    (s : Recorded σ) :
    bulletins (noteSkipped w.recorded kindAttribute elements s).signals = bulletins s.signals := by
  induction elements generalizing s with
  | nil => rfl
  | cons e rest ih =>
    rw [noteSkipped, List.foldl_cons]
    split
    · exact ih s
    · exact (ih _).trans (log_bulletins w rfl s)

theorem enableAll_bulletins (box : Size) (count : Nat) (elements : List Element) (d : Document)
    (s : Recorded σ) :
    bulletins (enableAll w.recorded box count elements d s).2.2.signals = bulletins s.signals := by
  induction elements generalizing count d s with
  | nil => rfl
  | cons e rest ih =>
    rw [enableAll]
    split
    · exact (ih _ _ _).trans (log_bulletins w rfl s)
    · dsimp only
      split
      · next f s₁ hc => exact call_bulletins w hc
      · next s₁ hc => exact (ih _ _ _).trans (call_bulletins w hc)

theorem step_bulletins {op : Op} (h : op.isGesture = false) (b : Board) (s : Recorded σ) :
    bulletins (step w.recorded op b s).outside.signals = bulletins s.signals := by
  cases op with
  | start source page => cases h
  | move page => cases h
  | stop page => cases h
  | initPalette page selector canvas =>
    simp only [step, answer, initPalette]
    repeat' split
    · rfl
    · rfl
    · rfl
    · rfl
    · exact (log_bulletins w rfl _).trans (noteSkipped_bulletins w _ _ s)
  | initCanvas page selector =>
    simp only [step, answer, initCanvas]
    repeat' split
    · rfl
    · rfl
    · next hc => exact callAll_bulletins w hc
    · next hc => exact (log_bulletins w rfl _).trans (callAll_bulletins w hc)
  | enable page selector =>
    simp only [step, answer, enableDragging]
    split
    · rfl
    · next v _ =>
      split
      · rfl
      · next elements _ =>
        have hall := enableAll_bulletins w v.bounds.size 0 elements b.document s
        split
        · next he =>
          rw [he] at hall
          exact hall
        · next he =>
          rw [he] at hall
          exact (log_bulletins w rfl _).trans hall
  | setBounds bounds =>
    simp only [step, answer, setBounds]
    repeat' split
    · rfl
    · next hc => exact callAll_bulletins w hc
    · next hc => exact (log_bulletins w rfl _).trans (callAll_bulletins w hc)
  | _ =>
    -- at most one call, and an entry after it when it succeeds
    simp only [step, answer, appendItem, insertItem, removeItem, attach, connect]
    repeat' split
    all_goals first
      | rfl
      | exact log_bulletins w rfl s
      | exact call_bulletins w ‹_›
      | exact (log_bulletins w rfl _).trans (call_bulletins w ‹_›)

end Quiet

section Gesture
variable {σ : Type} (w : Surroundings σ) (b : Board) (s : Recorded σ)

theorem place_signals (id : ItemId) (p : Point) :
    ∃ gs, (place w.recorded id p b s).2.signals = s.signals ++ gs ∧ bulletins gs = [] ∧
      calls gs = [.moveItem id p] := by
  simp only [place]
  split
  · next s₁ hc =>
    exact ⟨_, (Surroundings.recorded_call hc).2, rfl, rfl⟩
  · next f s₁ hc =>
    refine ⟨[.call (.moveItem id p) (.error f), .note (.log (Entries.moveRefused id f))],
      ?_, rfl, rfl⟩
    change s₁.signals ++ _ = _
    rw [(Surroundings.recorded_call hc).2, List.append_assoc]
    rfl

theorem place_bulletins (id : ItemId) (p : Point) :
    bulletins (place w.recorded id p b s).2.signals = bulletins s.signals := by
  obtain ⟨gs, hgs, hpublic, -⟩ := place_signals w b s id p
  rw [hgs, bulletins_append, hpublic, List.append_nil]

theorem abandon_bulletins :
    bulletins (abandon w.recorded b s).outside.signals = bulletins s.signals := by
  cases hg : b.gesture with
  | idle => simp only [abandon, hg]
  | ignored => simp only [abandon, hg]
  | template kind last =>
    simp only [abandon, hg]
    exact log_bulletins w rfl s
  | item id grab start =>
    simp only [abandon, hg]
    exact (place_bulletins w _ _ id start).trans (log_bulletins w rfl s)

theorem noteStart_bulletins (t : Template) :
    bulletins (noteStart w.recorded b t s).signals = bulletins s.signals := by
  rw [noteStart]
  split
  · rfl
  · exact bulletins_concat s.signals rfl

theorem noteStop_bulletins (t : Template) (dropped : Bool) :
    bulletins (noteStop w.recorded b t dropped s).signals = bulletins s.signals := by
  rw [noteStop]
  split
  · rfl
  · exact bulletins_concat s.signals rfl

theorem startFresh_bulletins (source : DragSource) (page : Point) :
    bulletins (startFresh w.recorded source page b s).outside.signals = bulletins s.signals := by
  cases source with
  | foreign => rfl
  | template kind =>
    simp only [startFresh, startTemplate]
    split
    · exact log_bulletins w rfl s
    · exact (log_bulletins w rfl _).trans (noteStart_bulletins w b s _)
  | item id =>
    simp only [startFresh, startItem]
    repeat' split
    all_goals exact log_bulletins w rfl s

theorem startDrag_bulletins (source : DragSource) (page : Point) :
    bulletins (startDrag w.recorded source page b s).outside.signals = bulletins s.signals :=
  (startFresh_bulletins w _ _ source page).trans (abandon_bulletins w b s)

theorem moveDrag_bulletins (page : Point) :
    bulletins (moveDrag w.recorded page b s).outside.signals = bulletins s.signals := by
  cases hg : b.gesture with
  | idle => simp only [moveDrag, hg]
  | ignored => simp only [moveDrag, hg]
  | template kind last => simp only [moveDrag, hg]
  | item id grab start =>
    simp only [moveDrag, hg]
    split
    · exact log_bulletins w rfl s
    · exact place_bulletins w b s id _

theorem announce_signals (bus : Bus Subscriber) (toNote : Subscriber → Note) :
    (bus.audience.foldl (fun s who => w.recorded.note (toNote who) s)
      (w.recorded.log (Entries.publishing bus.audience.length) s)).signals =
      s.signals ++ announcement bus toNote := by
  have hnotes : ∀ (audience : List Subscriber) (s : Recorded σ),
      (audience.foldl (fun s who => w.recorded.note (toNote who) s) s).signals =
        s.signals ++ audience.map fun who => .note (toNote who) := by
    intro audience
    induction audience with
    | nil => intro s; exact (List.append_nil _).symm
    | cons who rest ih =>
      intro s
      rw [List.foldl_cons, ih, List.map_cons, List.append_cons]
      rfl
  rw [hnotes, announcement, List.append_cons]
  rfl

/-- The canvas takes a template that is released at this point of the page. -/
structure Takes (b : Board) (v : Surface) (page : Point) : Prop where
  surface : b.surface = some v
  palette : b.paletteOfOther v = false
  inside : v.bounds.contains page = true

theorem dropTemplate_cases (kind : String) (page : Point) :
    let o := dropTemplate w.recorded kind page b s
    (∃ v, b.Takes v page ∧ o.1 = true ∧ bulletins o.2.signals =
      bulletins s.signals ++ Placement.bulletin b.placements ⟨kind, v.bounds.toLocal page⟩) ∨
    ((∀ v, ¬ b.Takes v page) ∧ o.1 = false ∧ bulletins o.2.signals = bulletins s.signals) := by
  intro o
  simp only [o, dropTemplate]
  split
  · next hv =>
    refine Or.inr ⟨fun v ht => ?_, rfl, log_bulletins w rfl s⟩
    cases hv.symm.trans ht.surface
  · next v hv =>
    have hself : ∀ {u}, b.Takes u page → u = v := fun ht =>
      Option.some.inj (ht.surface.symm.trans hv)
    split
    · next hp =>
      refine Or.inr ⟨fun u ht => ?_, rfl, log_bulletins w rfl s⟩
      obtain rfl := hself ht
      exact Bool.false_ne_true (ht.palette.symm.trans hp)
    · next hp =>
      split
      · next hin =>
        refine Or.inl ⟨v, ⟨hv, Bool.eq_false_iff.mpr hp, hin⟩, rfl, ?_⟩
        have hevent := announce_signals w
          (w.recorded.log (Entries.placementRequested kind (v.bounds.toLocal page)) s)
          b.placements fun who => .placement who ⟨kind, v.bounds.toLocal page⟩
        rw [publishPlacement, hevent, bulletins_append,
          bulletins_announcement b.placements fun _ => rfl]
        change bulletins (s.signals ++ [_]) ++ _ = _
        rw [bulletins_append, List.append_assoc]
        rfl
      · next hin =>
        refine Or.inr ⟨fun u ht => ?_, rfl, log_bulletins w rfl s⟩
        obtain rfl := hself ht
        exact hin ht.inside

theorem stopTemplate_bulletins (kind : String) (page : Point) :
    bulletins (stopTemplate w.recorded kind page b s).outside.signals =
      bulletins (dropTemplate w.recorded kind page b s).2.signals := by
  simp only [stopTemplate]
  split
  · rfl
  · exact noteStop_bulletins w b _ _ _

theorem stopItem_signals {id : ItemId} {grab page p : Point} (start : Point)
    (hp : b.containedPosition? id page grab = some p) :
    ∃ gs, (stopItem w.recorded id grab start page b s).outside.signals = s.signals ++ gs ∧
      bulletins gs = Move.bulletin b.moves ⟨b.document.ids.idxOf id, id, p⟩ ∧
      calls gs = [.moveItem id p] := by
  have hi := Document.indexOf?_eq (Document.mem_ids.mpr (containedPosition?_some hp))
  obtain ⟨gs, hgs, hpublic, hcalls⟩ := place_signals w b s id p
  have hevent := announce_signals w
    (w.recorded.log (Entries.itemFinished id (b.document.ids.idxOf id) start p)
      (place w.recorded id p b s).2)
    b.moves fun who => .move who ⟨b.document.ids.idxOf id, id, p⟩
  refine ⟨gs ++ ([.note (.log (Entries.itemFinished id (b.document.ids.idxOf id) start p))] ++
    Move.bulletin b.moves ⟨b.document.ids.idxOf id, id, p⟩), ?_, ?_, ?_⟩
  · simp only [stopItem, hp, hi, publishMove, place_board]
    rw [hevent]
    change ((place w.recorded id p b s).2.signals ++ [_]) ++ _ = _
    rw [hgs, List.append_assoc, List.append_assoc]
    rfl
  · rw [bulletins_append, bulletins_append, hpublic]
    exact bulletins_announcement b.moves fun _ => rfl
  · rw [calls_append, calls_append, hcalls]
    exact congrArg _ (calls_announcement b.moves _)

theorem stopDrag_bulletins (page : Point) :
    let o := stopDrag w.recorded page b s
    (∃ kind last v, b.gesture = .template kind last ∧ b.Takes v page ∧
      bulletins o.outside.signals =
        bulletins s.signals ++ Placement.bulletin b.placements ⟨kind, v.bounds.toLocal page⟩) ∨
    (∃ id grab start p, b.gesture = .item id grab start ∧
      b.containedPosition? id page grab = some p ∧ bulletins o.outside.signals =
        bulletins s.signals ++ Move.bulletin b.moves ⟨b.document.ids.idxOf id, id, p⟩) ∨
    ((∀ kind last v, b.gesture = .template kind last → ¬ b.Takes v page) ∧
      (∀ id grab start, b.gesture = .item id grab start →
        b.containedPosition? id page grab = none) ∧
      bulletins o.outside.signals = bulletins s.signals) := by
  intro o
  cases hg : b.gesture with
  | idle =>
    refine Or.inr (Or.inr ⟨fun _ _ _ h => Gesture.noConfusion h,
      fun _ _ _ h => Gesture.noConfusion h, ?_⟩)
    simp only [o, stopDrag, hg]
    exact log_bulletins w rfl s
  | ignored =>
    refine Or.inr (Or.inr ⟨fun _ _ _ h => Gesture.noConfusion h,
      fun _ _ _ h => Gesture.noConfusion h, ?_⟩)
    simp only [o, stopDrag, hg]
  | template kind last =>
    have ho : bulletins o.outside.signals =
        bulletins (dropTemplate w.recorded kind page { b with gesture := .idle } s).2.signals := by
      simp only [o, stopDrag, hg]
      exact stopTemplate_bulletins w _ s kind page
    rcases dropTemplate_cases w { b with gesture := .idle } s kind page with
      ⟨v, hv, -, hout⟩ | ⟨hnot, -, hout⟩
    · exact Or.inl ⟨kind, last, v, rfl, ⟨hv.surface, hv.palette, hv.inside⟩, ho.trans hout⟩
    · refine Or.inr (Or.inr ⟨fun _ _ v _ ht => ?_, fun _ _ _ h => Gesture.noConfusion h,
        ho.trans hout⟩)
      exact hnot v ⟨ht.surface, ht.palette, ht.inside⟩
  | item id grab start =>
    have ho : o = stopItem w.recorded id grab start page { b with gesture := .idle } s := by
      simp only [o, stopDrag, hg]
    cases hp : b.containedPosition? id page grab with
    | none =>
      refine Or.inr (Or.inr ⟨fun _ _ _ h => Gesture.noConfusion h, ?_, ?_⟩)
      · intro id' grab' start' h
        obtain ⟨rfl, rfl, -⟩ := Gesture.item.inj h
        exact hp
      · have hidle : containedPosition? { b with gesture := .idle } id page grab = none := hp
        rw [ho]
        simp only [stopItem, hidle]
        exact log_bulletins w rfl s
    | some p =>
      obtain ⟨gs, hgs, hpublic, -⟩ := stopItem_signals w { b with gesture := .idle } s start hp
      refine Or.inr (Or.inl ⟨id, grab, start, p, rfl, hp, ?_⟩)
      rw [ho, hgs, bulletins_append, hpublic]

end Gesture

section Turn
variable {σ : Type} (w : Surroundings σ) (op : Op) (b : Board) (s : σ)

theorem turn_bulletins :
    let t := (turn w op b s).reply
    (∃ page kind last v, op = .stop page ∧ b.gesture = .template kind last ∧ b.Takes v page ∧
      t.bulletins = Placement.bulletin b.placements ⟨kind, v.bounds.toLocal page⟩) ∨
    (∃ page id grab start p, op = .stop page ∧ b.gesture = .item id grab start ∧
      b.containedPosition? id page grab = some p ∧
      t.bulletins = Move.bulletin b.moves ⟨b.document.ids.idxOf id, id, p⟩) ∨
    ((∀ page kind last v, op = .stop page → b.gesture = .template kind last →
        ¬ b.Takes v page) ∧
      (∀ page id grab start, op = .stop page → b.gesture = .item id grab start →
        b.containedPosition? id page grab = none) ∧
      t.bulletins = []) := by
  intro t
  cases op with
  | stop page =>
    rcases stopDrag_bulletins w b ⟨s, []⟩ page with
      ⟨kind, last, v, hg, hv, ht⟩ | ⟨id, grab, start, p, hg, hp, ht⟩ | ⟨htemplate, hitem, ht⟩
    · exact Or.inl ⟨page, kind, last, v, rfl, hg, hv, ht⟩
    · exact Or.inr (Or.inl ⟨page, id, grab, start, p, rfl, hg, hp, ht⟩)
    · refine Or.inr (Or.inr ⟨?_, ?_, ht⟩)
      · intro page' kind last v hop hg
        obtain rfl := Op.stop.inj hop
        exact htemplate kind last v hg
      · intro page' id grab start hop hg
        obtain rfl := Op.stop.inj hop
        exact hitem id grab start hg
  | start source page =>
    exact Or.inr (Or.inr ⟨fun _ _ _ _ h => Op.noConfusion h, fun _ _ _ _ h => Op.noConfusion h,
      startDrag_bulletins w b ⟨s, []⟩ source page⟩)
  | move page =>
    exact Or.inr (Or.inr ⟨fun _ _ _ _ h => Op.noConfusion h, fun _ _ _ _ h => Op.noConfusion h,
      moveDrag_bulletins w b ⟨s, []⟩ page⟩)
  | _ =>
    exact Or.inr (Or.inr ⟨fun _ _ _ _ h => Op.noConfusion h, fun _ _ _ _ h => Op.noConfusion h,
      step_bulletins w rfl b ⟨s, []⟩⟩)

end Turn

section Notes
variable {t : Turn} {bus : Bus Subscriber}

theorem mem_bulletins {n : Note} (hn : (Signal.note n).isPublic = true) :
    .note n ∈ t.signals ↔ .note n ∈ t.bulletins := by
  rw [Turn.bulletins, Signal.bulletins, List.mem_filter]
  exact ⟨fun h => ⟨h, hn⟩, fun h => h.1⟩

theorem placement_not_mem (h : t.bulletins = [] ∨ ∃ m, t.bulletins = Move.bulletin bus m)
    (who : Subscriber) (p : Placement) : .note (.placement who p) ∉ t.signals := by
  rw [mem_bulletins rfl]
  rcases h with h | ⟨m, h⟩
  · rw [h]
    exact List.not_mem_nil
  · rw [h]
    simp [Move.bulletin, announcement]

theorem move_not_mem (h : t.bulletins = [] ∨ ∃ p, t.bulletins = Placement.bulletin bus p)
    (who : Subscriber) (m : Move) : .note (.move who m) ∉ t.signals := by
  rw [mem_bulletins rfl]
  rcases h with h | ⟨p, h⟩
  · rw [h]
    exact List.not_mem_nil
  · rw [h]
    simp [Placement.bulletin, announcement]

end Notes

end Board

end DiagramEditor
