import DiagramEditor.Proofs.Board.Path
import DiagramEditor.Proofs.Board.Reverting
import DiagramEditor.Proofs.Board.WellFormed
import DiagramEditor.Proofs.Geometry.Numbers

/-! Coordinates that are not numbers. A pointer may take a coordinate from the item that it drags:
when it has none itself, when it held the item nowhere, or when it is as infinitely far away as at
the start of the drag. An item that was released so stays without the coordinate however it is
dragged later, and in all other cases every item keeps numbers. -/
namespace DiagramEditor

open Wiring (Fallible)

def Point.Numeric (p : Point) : Prop := p.x.isNaN = false ∧ p.y.isNaN = false

def Point.Finite (p : Point) : Prop := p.x.isFinite = true ∧ p.y.isFinite = true

def Rect.Finite (r : Rect) : Prop :=
  r.origin.Finite ∧ r.width.isFinite = true ∧ r.height.isFinite = true

theorem Point.Finite.numeric {p : Point} (h : p.Finite) : p.Numeric :=
  ⟨(Axis.isFinite_iff.mp h.1).1, (Axis.isFinite_iff.mp h.2).1⟩

namespace Document

def Numeric (d : Document) : Prop := ∀ i ∈ d.items, i.position.Numeric

theorem Numeric.setPosition {d : Document} (h : d.Numeric) {id : ItemId} {p : Point}
    (hp : (∃ i, d.find? id = some i) → p.Numeric) : (d.setPosition id p).Numeric := by
  intro j hj
  rcases mem_updateFirst hj with hj | ⟨i, hi, rfl, rfl⟩
  · exact h j hj
  · exact hp (exists_find? hi)

end Document

namespace Board

section Effect
variable {σ : Type} {w : Surroundings σ} {r : Conduct} {x y : Document × σ}

def Rests (d : Document) (id : ItemId) (p : Point) : Prop :=
  d.Gone id ∨ ∃ i, d.find? id = some i ∧ i.position = p

theorem Rests.update {d : Document} {id : ItemId} {p : Point} (h : Rests d id p) (other : ItemId)
    {f : Item → Item} (hid : ∀ i, (f i).id = i.id) (hf : ∀ i, (f i).position = i.position) :
    Rests (d.update other f) id p := by
  rcases h with hg | ⟨i, hi, hp⟩
  · exact Or.inl (hg.update hid)
  · right
    rw [Document.find?_update hid, hi]
    by_cases ho : id = other
    · exact ⟨f i, by simp [ho], (hf i).trans hp⟩
    · exact ⟨i, by simp [ho], hp⟩

theorem Effect.rests (h : Effect w r x y)
    (hr : ∀ {d id p answer}, d.Sound → r.sends d (.call (.moveItem id p) answer) →
      ∀ i, d.find? id = some i → i.position = p)
    (hs : x.1.Sound) {id : ItemId} {p : Point} (hx : Rests x.1 id p) : Rests y.1 id p := by
  cases h with
  | noted n _ => exact hx
  | refused _ _ => exact hx
  | told _ _ _ => exact hx
  | resized other bounds => exact hx.update other (measured_id bounds) (measured_position bounds)
  | enabled _ _ _ => exact hx.update _ (fun _ => rfl) fun _ => rfl
  | placed hsend _ => exact (Document.setPosition_eq_self (hr hs hsend)).symm ▸ hx
  | slipped hsend _ => exact (Document.setPosition_eq_self (hr hs hsend)).symm ▸ hx
  | inserted index kind q h =>
    rcases hx with hg | ⟨i, hi, hp⟩
    · exact Or.inl (hg.insert hs h rfl)
    · have hne : id ≠ Prod.fst (Document.mint _) := fun he => by
        cases (he ▸ hs.find?_mint).symm.trans hi
      exact Or.inr ⟨i, by rw [hs.find?_insert h rfl, if_neg hne, hi], hp⟩
  | @removed _ _ _ other _ _ _ =>
    rcases hx with hg | ⟨i, hi, hp⟩
    · exact Or.inl (hg.remove hs)
    · by_cases ho : id = other
      · exact Or.inl (ho ▸ hs.gone_remove hi)
      · exact Or.inr ⟨i, by rw [Document.find?_remove_of_ne ho, hi], hp⟩
  | attached _ _ _ _ => exact hx.update _ (fun _ => rfl) fun _ => rfl

end Effect

theorem step_rests {σ : Type} {w : Surroundings σ} {b : Board} {op : Op} {s : σ}
    (hop : op.isGesture = false) (hs : b.document.Sound) {id : ItemId} {p : Point}
    (h : Rests b.document id p) : Rests (step w op b s).board.document id p := by
  have hr : ∀ {d : Document} {other q answer}, d.Sound →
      (b.conduct op).sends d (.call (.moveItem other q) answer) →
        ∀ i, d.find? other = some i → i.position = q := by
    intro d other q answer hd hsend i hi
    cases op with
    | start source page => cases hop
    | move page => cases hop
    | stop page => cases hop
    | initCanvas page selector =>
      obtain ⟨container, rest, -, hc⟩ := hsend
      rcases List.mem_cons.mp hc with hc | hc
      · cases hc
      · obtain ⟨j, hj, rfl, -, hp⟩ := Document.warrants_registration hc
        obtain rfl := Option.some.inj ((hd.find?_of_mem hj).symm.trans hi)
        exact hp
    | _ => exact hsend.elim
  exact ((step_trail w b s op).keeps (P := fun x => x.1.Sound ∧ Rests x.1 id p)
    (fun hxy ⟨hs, hx⟩ => ⟨hxy.sound hs, hxy.rests hr hs hx⟩) ⟨hs, h⟩).2

def Shows (grab start c : Float) : Prop :=
  start.isNaN = true → grab.isNaN = true ∧ c.isNaN = true

/-- The item that is dragged has a number where the place that the drag goes back to has one. -/
def Faithful (b : Board) : Prop :=
  ∀ id grab start i, b.gesture = .item id grab start → b.document.find? id = some i →
    Shows grab.x start.x i.x ∧ Shows grab.y start.y i.y

theorem containedPosition?_cases {b : Board} {id : ItemId} {page grab p : Point}
    (h : b.containedPosition? id page grab = some p) :
    ∃ v i, b.surface = some v ∧ b.document.find? id = some i ∧
      Fits (page.x - v.bounds.x - grab.x) v.bounds.width i.width p.x ∧
      Fits (page.y - v.bounds.y - grab.y) v.bounds.height i.height p.y := by
  rw [containedPosition?] at h
  split at h
  · next v i hv hi =>
    obtain rfl := Option.some.inj h
    exact ⟨v, i, hv, hi, contain_fits ((v.bounds.toLocal page).sub grab) i.size v.bounds.size⟩
  · cases h

section Faithful
variable {σ : Type} {w : Surroundings σ} {b : Board} {op : Op} {s : σ}

theorem startFresh_faithful (source : DragSource) (page : Point) :
    (startFresh w source page b s).board.Faithful := by
  intro id grab start i hg hi
  rcases startFresh_cases w b s source page with
    ⟨kind, t, -, -, -, hb⟩ | ⟨other, v, j, -, -, hj, -, -, hb⟩ | ⟨-, hb⟩
  · rw [hb] at hg
    cases hg
  · rw [hb] at hg hi
    obtain ⟨rfl, rfl, rfl⟩ := Gesture.item.inj hg
    obtain rfl := Option.some.inj (hj.symm.trans hi)
    exact ⟨fun h => ⟨Axis.sub_isNaN.mpr (Or.inr (Or.inl h)), h⟩,
      fun h => ⟨Axis.sub_isNaN.mpr (Or.inr (Or.inl h)), h⟩⟩
  · rw [hb] at hg
    cases hg

theorem moveDrag_faithful (h : b.Faithful) (page : Point) :
    (moveDrag w page b s).board.Faithful := by
  intro id grab start i hg hi
  rcases moveDrag_cases w b s page with
    ⟨-, -, hb⟩ | ⟨kind, last, -, -, hb⟩ | ⟨other, grab', start', p, hg', hp, -, hb⟩ |
      ⟨other, grab', start', -, -, -, hb⟩
  · rw [hb] at hg hi
    exact h id grab start i hg hi
  · rw [hb] at hg
    cases hg
  · rw [hb] at hg hi
    obtain ⟨rfl, rfl, rfl⟩ := Gesture.item.inj (hg'.symm.trans hg)
    obtain ⟨v, j, -, hj, hx, hy⟩ := containedPosition?_cases hp
    obtain rfl := Option.some.inj ((Document.find?_setPosition hj p).symm.trans hi)
    obtain ⟨hshowsx, hshowsy⟩ := h other grab' start' j hg' hj
    -- a pointer that holds the item nowhere puts it nowhere
    exact ⟨fun hstart => ⟨(hshowsx hstart).1,
        hx.nan (Axis.sub_isNaN.mpr (Or.inr (Or.inl (hshowsx hstart).1)))⟩,
      fun hstart => ⟨(hshowsy hstart).1,
        hy.nan (Axis.sub_isNaN.mpr (Or.inr (Or.inl (hshowsy hstart).1)))⟩⟩
  · rw [hb] at hg
    cases hg

theorem step_faithful_of_not_gesture (hop : op.isGesture = false) (hs : b.document.Sound)
    (hdragged : ∀ id grab start, b.gesture = .item id grab start →
      b.document.Draggable id ∨ b.document.Gone id)
    (h : b.Faithful) : (step w op b s).board.Faithful := by
  intro id grab start j hg hj
  rw [(step_keeps w b s op).gesture hop] at hg
  rcases hdragged id grab start hg with ⟨i, hi, -⟩ | hgone
  · have hrests := step_rests (w := w) (s := s) hop hs (Or.inr ⟨i, hi, rfl⟩)
    rcases hrests with hgone | ⟨k, hk, hp⟩
    · cases hgone.absent.symm.trans hj
    · obtain rfl := Option.some.inj (hk.symm.trans hj)
      obtain ⟨hx, hy⟩ := Point.mk.inj hp
      have hshows := h id grab start i hg hi
      rwa [← hx, ← hy] at hshows
  · cases ((step_follows hs).gone id hgone).absent.symm.trans hj

theorem step_faithful (hs : b.document.Sound)
    (hdragged : ∀ id grab start, b.gesture = .item id grab start →
      b.document.Draggable id ∨ b.document.Gone id)
    (h : b.Faithful) : (step w op b s).board.Faithful := by
  cases op with
  | start source page => exact startFresh_faithful source page
  | move page => exact moveDrag_faithful h page
  | stop page =>
    intro id grab start i hg
    cases (stopDrag_idle w b s page).symm.trans hg
  | _ => exact step_faithful_of_not_gesture rfl hs hdragged h

theorem run_faithful {settings : Settings} {b : Board} (hb : Board.new settings = .ok b)
    (w : Surroundings σ) (s : σ) (ops : List Op) : (run w ops b s).board.Faithful := by
  refine run_induction (P := fun _ o => o.board.Faithful) ?_ ?_ ops
  · intro id grab start i hg
    cases (new_ok hb).2.2.2.1.symm.trans hg
  · intro ops op ih
    exact step_faithful (run_orderly hb w ops s).2.sound
      (fun id grab start hg => run_dragged hb w s ops hg) ih

end Faithful

/-- The pointer leads an item that it holds at this point of it. -/
structure Turn.Leads (t : Turn) (page : Point) (id : ItemId) (grab : Point) (v : Surface) :
    Prop where
  op : t.op = .move page ∨ t.op = .stop page
  gesture : ∃ start, t.before.gesture = .item id grab start
  item : ∃ i, t.before.document.find? id = some i
  surface : t.before.surface = some v

/-- The pointer takes a coordinate from the item that it leads. -/
def Turn.Blurs (t : Turn) : Prop :=
  ∃ page id grab v, t.Leads page id grab v ∧
    (Axis.Blurs page.x v.bounds.x grab.x ∨ Axis.Blurs page.y v.bounds.y grab.y)

theorem containedPosition?_isNaN {b : Board} {id : ItemId} {page grab p : Point} {v : Surface}
    (hv : b.surface = some v) (hf : v.bounds.Finite)
    (h : b.containedPosition? id page grab = some p) :
    (p.x.isNaN = true ↔ Axis.Blurs page.x v.bounds.x grab.x) ∧
      (p.y.isNaN = true ↔ Axis.Blurs page.y v.bounds.y grab.y) := by
  obtain ⟨u, i, hu, -, hx, hy⟩ := containedPosition?_cases h
  obtain rfl := Option.some.inj (hv.symm.trans hu)
  exact ⟨hx.isNaN.trans (Axis.want_isNaN hf.1.1), hy.isNaN.trans (Axis.want_isNaN hf.1.2)⟩

/-- No item has lost a coordinate, and none is to go back to where it would. -/
structure Clear (b : Board) : Prop where
  numeric : b.document.Numeric
  start : ∀ id grab start, b.gesture = .item id grab start →
    (∃ i, b.document.find? id = some i) → start.Numeric

theorem Clear.of_free {b : Board} (hn : b.document.Numeric)
    (hg : ∀ id grab start, b.gesture ≠ .item id grab start) : b.Clear where
  numeric := hn
  start id grab start h _ := absurd h (hg id grab start)

theorem Clear.restored {b : Board} (h : b.Clear) : b.restored.Numeric := by
  cases hg : b.gesture with
  | item id grab start =>
    simp only [Board.restored, hg]
    exact h.numeric.setPosition (h.start id grab start hg)
  | _ =>
    simp only [Board.restored, hg]
    exact h.numeric

theorem Faithful.clear {b : Board} (h : b.Faithful) (hn : b.document.Numeric) : b.Clear where
  numeric := hn
  start id grab start hg hi := by
    obtain ⟨i, hi⟩ := hi
    obtain ⟨hx, hy⟩ := h id grab start i hg hi
    obtain ⟨hnx, hny⟩ := hn i (Document.mem_of_find? hi)
    constructor
    · by_contra hstart
      exact Bool.false_ne_true (hnx.symm.trans (hx (Bool.eq_true_of_not_eq_false hstart)).2)
    · by_contra hstart
      exact Bool.false_ne_true (hny.symm.trans (hy (Bool.eq_true_of_not_eq_false hstart)).2)

section Lead
variable {σ : Type} {w : Surroundings σ} {b : Board} {op : Op} {s : σ}

theorem turn_leads {page grab : Point} {id : ItemId} {v : Surface}
    (h : (turn w op b s).reply.Leads page id grab v) (hf : v.bounds.Finite) :
    ∃ p, (turn w op b s).reply.Positions id p ∧
      (op = .stop page → ∃ index, (turn w op b s).reply.bulletins =
        Move.bulletin b.moves ⟨index, id, p⟩) ∧
      (p.x.isNaN = true ↔ Axis.Blurs page.x v.bounds.x grab.x) ∧
      (p.y.isNaN = true ↔ Axis.Blurs page.y v.bounds.y grab.y) := by
  obtain ⟨start, hg⟩ := h.gesture
  obtain ⟨i, hi⟩ := h.item
  have hp := containedPosition?_eq h.surface hi page grab
  have hnan := containedPosition?_isNaN h.surface hf hp
  rcases h.op with hop | hop
  · obtain rfl : op = .move page := hop
    refine ⟨_, move_positions w s hg hp, fun hstop => ?_, hnan⟩
    cases hstop
  · obtain rfl : op = .stop page := hop
    obtain ⟨hpositions, hbulletins⟩ := stop_positions w s hg hp
    exact ⟨_, hpositions, fun _ => ⟨_, hbulletins⟩, hnan⟩

theorem Clear.place {id : ItemId} {page grab start p : Point} (h : b.Clear)
    (hf : ∀ v, b.surface = some v → v.bounds.Finite) (hg : b.gesture = .item id grab start)
    (hp : b.containedPosition? id page grab = some p)
    (hop : op = .move page ∨ op = .stop page) (hblurs : ¬ (turn w op b s).reply.Blurs) :
    (b.document.setPosition id p).Numeric := by
  obtain ⟨v, i, hv, hi, -⟩ := containedPosition?_cases hp
  obtain ⟨hx, hy⟩ := containedPosition?_isNaN hv (hf v hv) hp
  have hleads : (turn w op b s).reply.Leads page id grab v := ⟨hop, ⟨start, hg⟩, ⟨i, hi⟩, hv⟩
  have hnot : ¬ (Axis.Blurs page.x v.bounds.x grab.x ∨ Axis.Blurs page.y v.bounds.y grab.y) :=
    fun h => hblurs ⟨page, id, grab, v, hleads, h⟩
  rw [← hx, ← hy, not_or, Bool.not_eq_true, Bool.not_eq_true] at hnot
  exact h.numeric.setPosition fun _ => hnot

theorem Clear.turn (h : b.Clear) (hf : ∀ v, b.surface = some v → v.bounds.Finite)
    (hop : op.isGesture = true) (hblurs : ¬ (turn w op b s).reply.Blurs) :
    (turn w op b s).board.Clear := by
  cases op with
  | start source page =>
    have hdocument : (Board.turn w (.start source page) b s).board.document = b.restored :=
      startDrag_document w.recorded b ⟨s, []⟩ source page
    refine ⟨hdocument ▸ h.restored, fun id grab start hg hi => ?_⟩
    rcases turn_grabbed w b s hg with hgrabs | ⟨-, hnot⟩
    · obtain ⟨i, hi, rfl⟩ := hgrabs.item
      have hfound : b.restored.find? id = some i := by
        rw [← hdocument]
        exact hi
      exact h.restored i (Document.mem_of_find? hfound)
    · exact absurd (Or.inl rfl) hnot
  | move page =>
    simp only [Board.turn, step, answer]
    rcases moveDrag_cases w.recorded b ⟨s, []⟩ page with
      ⟨-, -, hb⟩ | ⟨kind, last, -, -, hb⟩ | ⟨id, grab, start, p, hg, hp, -, hb⟩ |
        ⟨id, grab, start, -, -, -, hb⟩
    · rw [hb]
      exact h
    · rw [hb]
      exact .of_free h.numeric (by simp)
    · rw [hb]
      refine ⟨h.place hf hg hp (Or.inl rfl) hblurs, fun id' grab' start' hg' _ => ?_⟩
      obtain ⟨rfl, rfl, rfl⟩ := Gesture.item.inj (hg.symm.trans hg')
      exact h.start id grab start hg (containedPosition?_some hp)
    · rw [hb]
      exact .of_free h.numeric (by simp)
  | stop page =>
    simp only [Board.turn, step, answer]
    rcases stopDrag_cases w.recorded b ⟨s, []⟩ page with
      ⟨-, -, hb⟩ | ⟨kind, last, -, -, hb⟩ | ⟨id, grab, start, p, hg, hp, -, hb⟩ |
        ⟨id, grab, start, -, -, -, hb⟩
    · rw [hb]
      exact .of_free h.numeric (by simp)
    · rw [hb]
      exact .of_free h.numeric (by simp)
    · rw [hb]
      exact .of_free (h.place hf hg hp (Or.inr rfl) hblurs) (by simp)
    · rw [hb]
      exact .of_free h.numeric (by simp)
  | _ => cases hop

end Lead

section Gestures
variable {σ : Type} {w : Surroundings σ} {b : Board} {s : σ} {more : List Op}

theorem gesture_reframes {op : Op} (h : op.isGesture = true) : op.reframes = false := by
  cases op with
  | initCanvas page selector => cases h
  | setBounds bounds => cases h
  | _ => rfl

theorem run_surface (hmore : ∀ op ∈ more, op.isGesture = true) :
    (run w more b s).board.surface = b.surface := by
  induction more using List.reverseRecOn with
  | nil => rfl
  | append_singleton more op ih =>
    rw [run_concat, ← ih fun op hop => hmore op (List.mem_append_left _ hop)]
    exact step_surface _ _ _ (gesture_reframes (hmore op (by simp)))

theorem run_clear (h : b.Clear) (hf : ∀ v, b.surface = some v → v.bounds.Finite)
    (hmore : ∀ op ∈ more, op.isGesture = true)
    (hblurs : ∀ t ∈ (run w more b s).reply, ¬ t.Blurs) :
    (run w more b s).board.Clear ∧ ∀ t ∈ (run w more b s).reply, t.after.document.Numeric := by
  induction more using List.reverseRecOn with
  | nil => exact ⟨h, fun t ht => absurd ht List.not_mem_nil⟩
  | append_singleton more op ih =>
    have hbefore : ∀ op ∈ more, op.isGesture = true :=
      fun op hop => hmore op (List.mem_append_left _ hop)
    rw [run_concat] at hblurs ⊢
    obtain ⟨hclear, hnumeric⟩ := ih hbefore fun t ht => hblurs t (List.mem_append_left _ ht)
    have hsurface : ∀ v, (run w more b s).board.surface = some v → v.bounds.Finite := by
      rw [run_surface hbefore]
      exact hf
    have hnext := hclear.turn (w := w) (s := (run w more b s).outside) hsurface
      (hmore op (by simp)) (hblurs _ (by simp [extend]))
    refine ⟨hnext, fun t ht => ?_⟩
    rcases List.mem_append.mp ht with ht | ht
    · exact hnumeric t ht
    · obtain rfl := List.mem_singleton.mp ht
      exact hnext.numeric

theorem moves_hold {v : Surface} {id : ItemId} {grab : Point} {box : Size}
    (h : b.Holds v id grab box) (path : List Point) :
    (run w (path.map .move) b s).board.Holds v id grab box := by
  induction path generalizing b s with
  | nil => exact h
  | cons page rest ih =>
    obtain ⟨start, hg⟩ := h.gesture
    rw [List.map_cons, run_cons]
    have hmoved := move_board w s hg (h.contained page)
    exact ih (hmoved ▸ h.placed _)

theorem drag_lands {v : Surface} {id : ItemId} {i : Item} (hv : b.surface = some v)
    (hi : b.document.find? id = some i) (hd : i.draggable = true) (first last : Point)
    (path : List Point) :
    let e := run w (.start (.item id) first :: (path.map .move ++ [.stop last])) b s
    ∃ j, e.board.document.find? id = some j ∧
      j.position =
        landing v ((v.bounds.toLocal first).sub (b.reverted i).position) i.size last := by
  rw [run_cons]
  dsimp only
  rw [run_append]
  let t := Board.turn w (.start (.item id) first) b s
  have hold := (start_holds w s hv hi hd first).1
  have hstill : (run w (path.map .move) t.board t.outside).board.Holds v id _ i.size :=
    moves_hold hold path
  obtain ⟨start, hg⟩ := hstill.gesture
  obtain ⟨j, hj, -⟩ := hstill.item
  refine ⟨j.moved (landing v _ i.size last), ?_, rfl⟩
  have hboard := stop_board w (run w (path.map .move) t.board t.outside).outside hg
    (hstill.contained last)
  exact (congrArg (·.document.find? id) hboard).trans (Document.find?_setPosition hj _)

end Gestures

/-- What a drag with finite ends makes of a coordinate: it lies in the canvas, or there was none. -/
structure Recovers (home extent box c : Float) : Prop where
  lost : home.isNaN = true → c.isNaN = true
  inside : home.isNaN = false → 0 ≤ c ∧ c ≤ max 0 (extent - box)

theorem recovers_of_fits {first last home extent box c : Float} (hfirst : first.isFinite = true)
    (hlast : last.isFinite = true) (h : Fits (last - (first - home)) extent box c) :
    Recovers home extent box c where
  lost hhome := h.nan ((Axis.drag_isNaN hfirst hlast).mpr hhome)
  inside hhome := by
    have hwant : (last - (first - home)).isNaN = false := by
      rw [Bool.eq_false_iff, ne_eq, Axis.drag_isNaN hfirst hlast, hhome]
      exact Bool.false_ne_true
    exact ⟨h.nonneg hwant, h.le hwant⟩

/-- On a canvas with finite bounds whose items lie at finite places, gestures leave numbers unless a
pointer takes a coordinate from the item that it leads. An item that a drag leaves without one does
not get it back: a later drag with finite ends puts it into the canvas on the axes on which it had a
coordinate to start from, and on no other. -/
theorem gestures_blur {σ : Type} {settings : Settings} {b : Board}
    (hb : Board.new settings = .ok b) (w : Surroundings σ) (s : σ) (ops : List Op) {more : List Op}
    (hmore : ∀ op ∈ more, op.isGesture = true) :
    let o := run w ops b s
    let e := run w more o.board o.outside
    (∀ i ∈ o.board.document.items, i.position.Finite) →
    (∀ v, o.board.surface = some v → v.bounds.Finite) →
    (∀ t ∈ e.reply, ∀ page id grab v, t.Leads page id grab v →
      ∃ p, t.Positions id p ∧
        (t.op = .stop page → ∃ index, t.bulletins = Move.bulletin t.before.moves ⟨index, id, p⟩) ∧
        (p.x.isNaN = true ↔ Axis.Blurs page.x v.bounds.x grab.x) ∧
        (p.y.isNaN = true ↔ Axis.Blurs page.y v.bounds.y grab.y)) ∧
    ((∀ t ∈ e.reply, t.after.document.Numeric) ↔ ∀ t ∈ e.reply, ¬ t.Blurs) ∧
    ∀ v id i (first last : Point) (path : List Point), e.board.surface = some v →
      e.board.document.find? id = some i → i.draggable = true →
      (v.bounds.toLocal first).Finite → (v.bounds.toLocal last).Finite →
        let u := run w (.start (.item id) first :: (path.map .move ++ [.stop last])) e.board
          e.outside
        ∃ j, u.board.document.find? id = some j ∧
          Recovers (e.board.reverted i).x v.bounds.width i.width j.x ∧
          Recovers (e.board.reverted i).y v.bounds.height i.height j.y := by
  intro o e hitems hbounds
  have hturn : ∀ t ∈ e.reply, ∃ op c u, (turn w op c u).reply = t ∧
      ∀ v, c.surface = some v → v.bounds.Finite := by
    intro t ht
    obtain ⟨xs, op, ys, rfl, hlast⟩ := run_mem ht
    have hsurface : (run w xs o.board o.outside).board.surface = o.board.surface :=
      run_surface fun op hop => hmore op (List.mem_append_left _ hop)
    refine ⟨op, _, _, hlast, ?_⟩
    rw [hsurface]
    exact hbounds
  refine ⟨?_, ⟨?_, ?_⟩, ?_⟩
  · intro t ht page id grab v hleads
    obtain ⟨op, c, u, rfl, hfinite⟩ := hturn t ht
    exact turn_leads hleads (hfinite v hleads.surface)
  · intro hnumeric t ht hblurs
    obtain ⟨page, id, grab, v, hleads, hblurs⟩ := hblurs
    obtain ⟨op, c, u, rfl, hfinite⟩ := hturn t ht
    obtain ⟨p, hpositions, -, hx, hy⟩ := turn_leads hleads (hfinite v hleads.surface)
    obtain ⟨i, hi, rfl⟩ := hpositions.stored
    obtain ⟨hnx, hny⟩ := hnumeric _ ht i (Document.mem_of_find? hi)
    rcases hblurs with hblurs | hblurs
    · exact Bool.false_ne_true (hnx.symm.trans (hx.mpr hblurs))
    · exact Bool.false_ne_true (hny.symm.trans (hy.mpr hblurs))
  · intro hblurs
    have hclear : o.board.Clear :=
      (run_faithful hb w s ops).clear fun i hi => (hitems i hi).numeric
    exact (run_clear hclear hbounds hmore hblurs).2
  · intro v id i first last path hv hi hd hfirst hlast u
    obtain ⟨j, hj, hp⟩ := drag_lands (w := w) (s := e.outside) hv hi hd first last path
    obtain ⟨hx, hy⟩ := contain_fits ((v.bounds.toLocal last).sub
      ((v.bounds.toLocal first).sub (e.board.reverted i).position)) i.size v.bounds.size
    obtain ⟨hjx, hjy⟩ := Point.mk.inj hp
    refine ⟨j, hj, ?_, ?_⟩
    · rw [hjx]
      exact recovers_of_fits hfirst.1 hlast.1 hx
    · rw [hjy]
      exact recovers_of_fits hfirst.2 hlast.2 hy

theorem sheet_finite :
    let o := run (Fallible.surroundings fun _ => none)
      [.initCanvas sheet "#canvas", .append "Step" ⟨10, 20⟩, .enable sheet ".canvas-item"]
      standard .start
    (∀ i ∈ o.board.document.items, i.position.Finite) ∧
      ∀ v, o.board.surface = some v → v.bounds.Finite := by
  intro o
  refine ⟨fun i hi => ?_, fun v hv => ?_⟩
  · obtain rfl := List.mem_singleton.mp hi
    exact ⟨by decide, by decide⟩
  · obtain rfl : ⟨"#canvas", ⟨0, 0, 800, 600⟩⟩ = v := Option.some.inj hv
    exact ⟨⟨by decide, by decide⟩, by decide, by decide⟩

/-- The pointer is infinitely far to the right where it takes hold of the item and lets go of it. -/
theorem gestures_blur_at_infinity :
    let ops : List Op :=
      [.initCanvas sheet "#canvas", .append "Step" ⟨10, 20⟩, .enable sheet ".canvas-item"]
    let more : List Op :=
      [.start (.item ⟨"canvasItem0"⟩) ⟨1 / 0, 25⟩, .stop ⟨1 / 0, 30⟩]
    let o := run (Fallible.surroundings fun _ => none) ops standard .start
    let e := run (Fallible.surroundings fun _ => none) more o.board o.outside
    let u := run (Fallible.surroundings fun _ => none)
      [.start (.item ⟨"canvasItem0"⟩) ⟨15, 25⟩, .move ⟨0 / 0, 0⟩, .stop ⟨20, 30⟩] e.board e.outside
    ¬ (∀ t ∈ e.reply, t.after.document.Numeric) ∧
      ∃ j, u.board.document.find? ⟨"canvasItem0"⟩ = some j ∧ j.x.isNaN = true ∧ 0 ≤ j.y := by
  intro ops more o e u
  have hmore : ∀ op ∈ more, op.isGesture = true := by simp [more, Op.isGesture]
  obtain ⟨-, hnumeric, hlater⟩ := gestures_blur new_standard
    (Fallible.surroundings fun _ => none) .start ops hmore sheet_finite.1 sheet_finite.2
  let v : Surface := ⟨"#canvas", ⟨0, 0, 800, 600⟩⟩
  refine ⟨fun h => ?_, ?_⟩
  · -- both times the pointer lies at the same infinite distance, and the difference is no number
    have hinfinite : Axis.Blurs (1 / 0) 0 (1 / 0 - 0 - 10) :=
      Or.inr (Or.inr ⟨by decide +kernel, by decide +kernel⟩)
    refine hnumeric.mp h (e.reply.get ⟨1, by decide⟩) (List.get_mem _ _) ?_
    exact ⟨⟨1 / 0, 30⟩, _, _, v, ⟨Or.inr rfl, ⟨_, rfl⟩, ⟨_, rfl⟩, rfl⟩, Or.inl hinfinite⟩
  · obtain ⟨j, hj, hx, hy⟩ := hlater v ⟨"canvasItem0"⟩ _ ⟨15, 25⟩ ⟨20, 30⟩ [⟨0 / 0, 0⟩] rfl rfl rfl
      ⟨by decide, by decide⟩ ⟨by decide, by decide⟩
    exact ⟨j, hj, hx.lost (by decide +kernel), (hy.inside (by decide +kernel)).1⟩

/-- A release nowhere takes a coordinate from the item, and a later drag does not give it back. -/
theorem release_nowhere_blurs :
    let ops : List Op :=
      [.initCanvas sheet "#canvas", .append "Step" ⟨10, 20⟩, .enable sheet ".canvas-item"]
    let more : List Op :=
      [.start (.item ⟨"canvasItem0"⟩) ⟨15, 25⟩, .stop ⟨0 / 0, 25⟩,
        .start (.item ⟨"canvasItem0"⟩) ⟨15, 25⟩, .stop ⟨20, 30⟩]
    let o := run (Fallible.surroundings fun _ => none) ops standard .start
    let e := run (Fallible.surroundings fun _ => none) more o.board o.outside
    (∀ i ∈ o.board.document.items, i.position.Finite) ∧
      (∀ v, o.board.surface = some v → v.bounds.Finite) ∧ (∀ op ∈ more, op.isGesture = true) ∧
      ∃ i, e.board.document.find? ⟨"canvasItem0"⟩ = some i ∧ i.x.isNaN = true := by
  intro ops more o e
  refine ⟨sheet_finite.1, sheet_finite.2, by simp [more, Op.isGesture], ?_⟩
  have hend : (e.board.document.find? ⟨"canvasItem0"⟩).map (fun i => i.x.isNaN) = some true := by
    decide +kernel
  exact Option.map_eq_some_iff.mp hend

end Board

end DiagramEditor
