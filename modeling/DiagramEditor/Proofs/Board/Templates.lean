import DiagramEditor.Proofs.Board.Hooks
import DiagramEditor.Proofs.Board.Independence
import DiagramEditor.Proofs.Palette.Kinds

/-! Drags of templates after a palette was read: which of them are accepted, what the hooks are told
of them, and that the others are swallowed up to their end. -/
namespace DiagramEditor

open Wiring (Call Fallible)
open Element (Kind FirstOf)

namespace Gesture

/-- What the page is asked for when the gesture is given up. -/
def farewell : Gesture → List Action
  | .template _ _ => [.removeHelper]
  | .item id _ start => [.itemPositioned id start]
  | _ => []

def farewellCalls : Gesture → List Call
  | .item id _ start => [.moveItem id start]
  | _ => []

end Gesture

namespace Board

def Turn.readsPalette (t : Turn) : Bool :=
  match t.reply with
  | .palette _ => true
  | _ => false

variable {σ : Type} (w : Surroundings σ) (b : Board) (s : σ)

theorem initPalette_cases (page : Page) (selector canvasSelector : String) :
    let o := initPalette w page selector canvasSelector b s
    (∃ f, o.reply = .error f ∧ o.board = b) ∨ ∃ elements p, page selector = .ok elements ∧
      p.templates = elements.filterMap (Template.ofElement? b.settings.kindAttribute) ∧
      o.reply = .ok p ∧ o.board = { b with palette := some p } := by
  simp only [initPalette]
  split
  · exact Or.inl ⟨_, rfl, rfl⟩
  · exact Or.inl ⟨_, rfl, rfl⟩
  · next elements _ hp =>
    split
    · exact Or.inl ⟨_, rfl, rfl⟩
    · exact Or.inl ⟨_, rfl, rfl⟩
    · exact Or.inr ⟨elements, _, hp, rfl, rfl, rfl⟩

theorem turn_initPalette {page : Page} {selector canvasSelector : String} {p : Palette}
    (h : (turn w (.initPalette page selector canvasSelector) b s).reply.reply = .palette p) :
    ∃ elements, page selector = .ok elements ∧
      p.templates = elements.filterMap (Template.ofElement? b.settings.kindAttribute) ∧
      (turn w (.initPalette page selector canvasSelector) b s).board.palette = some p := by
  simp only [turn, step, answer] at h ⊢
  rcases initPalette_cases w.recorded b ⟨s, []⟩ page selector canvasSelector with
    ⟨f, hr, -⟩ | ⟨elements, q, hp, ht, hr, hb⟩
  · rw [hr] at h
    cases h
  · rw [hr] at h
    obtain rfl := Reply.palette.inj h
    exact ⟨elements, hp, ht, by rw [hb]⟩

theorem turn_palette {op : Op} (h : (turn w op b s).reply.readsPalette = false) :
    (turn w op b s).board.palette = b.palette := by
  simp only [turn]
  cases op with
  | initPalette page selector canvas =>
    rcases initPalette_cases w.recorded b ⟨s, []⟩ page selector canvas with
      ⟨f, -, hb⟩ | ⟨elements, p, -, -, hr, -⟩
    · exact congrArg Board.palette hb
    · simp only [Turn.readsPalette, turn, step, answer, hr, Reply.ofExcept] at h
      cases h
  | start source page =>
    obtain ⟨d, g, hb⟩ := startDrag_frame w.recorded b ⟨s, []⟩ source page
    exact (congrArg Board.palette hb).trans rfl
  | move page =>
    obtain ⟨d, g, hb⟩ := moveDrag_frame w.recorded b ⟨s, []⟩ page
    exact (congrArg Board.palette hb).trans rfl
  | stop page =>
    obtain ⟨d, g, hb⟩ := stopDrag_frame w.recorded b ⟨s, []⟩ page
    exact (congrArg Board.palette hb).trans rfl
  | _ =>
    simp only [step, answer, initCanvas, enableDragging, setBounds, appendItem, insertItem,
      removeItem, attach, connect]
    repeat' split
    all_goals rfl

theorem run_palette {ops : List Op}
    (h : ∀ u ∈ (run w ops b s).reply, u.readsPalette = false) :
    (run w ops b s).board.palette = b.palette := by
  induction ops generalizing b s with
  | nil => rfl
  | cons op ops ih =>
    rw [run_cons] at h ⊢
    obtain ⟨hfirst, hrest⟩ := List.forall_mem_cons.mp h
    exact (ih _ _ hrest).trans (turn_palette w b s hfirst)

theorem abandon_reply : (abandon w b s).reply = b.gesture.farewell := by
  cases hg : b.gesture with
  | _ => simp only [abandon, hg, Gesture.farewell]

theorem start_farewellCalls (source : DragSource) (page : Point) :
    (turn w (.start source page) b s).reply.calls = b.gesture.farewellCalls := by
  rw [start_calls]
  cases b.gesture with
  | _ => rfl

theorem start_known {kind : String} {t : Template} (h : b.template? kind = some t) (page : Point) :
    let u := (turn w (.start (.template kind) page) b s).reply
    u.reply = .actions (b.gesture.farewell ++ [.showHelper kind page]) ∧
      u.heard = b.hooks.toList.map (fun tag => (tag, .started t)) ∧
      u.after.gesture = .template kind page := by
  intro u
  obtain ⟨d, g, hboard⟩ := abandon_frame w.recorded b ⟨s, []⟩
  have hfound : (abandon w.recorded b ⟨s, []⟩).board.template? kind = some t := by
    rw [hboard]
    exact h
  refine ⟨?_, ?_, ?_⟩
  · simp only [u, turn, step, answer, startDrag, startFresh, startTemplate, hfound, abandon_reply]
  · have hcalls : u.hookCalls = [.started t] := by
      simp only [u, Turn.hookCalls, turn, h]
      rfl
    rw [turn_heard, hcalls]
    cases b.hooks with
    | _ => rfl
  · simp only [u, turn, step, answer, startDrag, startFresh, startTemplate, hfound]

theorem start_unknown {kind : String} (h : b.template? kind = none) (page : Point) :
    let u := (turn w (.start (.template kind) page) b s).reply
    u.reply = .actions b.gesture.farewell ∧ u.heard = [] ∧ u.bulletins = [] ∧
      u.calls = b.gesture.farewellCalls ∧ u.after.gesture = .ignored := by
  intro u
  obtain ⟨d, g, hboard⟩ := abandon_frame w.recorded b ⟨s, []⟩
  have hmissed : (abandon w.recorded b ⟨s, []⟩).board.template? kind = none := by
    rw [hboard]
    exact h
  refine ⟨?_, ?_, startDrag_bulletins w b ⟨s, []⟩ _ page, start_farewellCalls w b s _ page, ?_⟩
  · simp only [u, turn, step, answer, startDrag, startFresh, startTemplate, hmissed, abandon_reply,
      List.append_nil]
  · have hcalls : u.hookCalls = [] := by
      simp only [u, Turn.hookCalls, turn, h]
      rfl
    rw [turn_heard, hcalls]
    exact List.flatMap_eq_nil_iff.mpr fun _ _ => rfl
  · simp only [u, turn, step, answer, startDrag, startFresh, startTemplate, hmissed, ignoring]

/-- The turn does nothing that can be seen from outside. -/
structure Turn.Silent (t : Turn) : Prop where
  reply : t.reply = .actions []
  signals : t.signals = []

theorem ignored_turn (hg : b.gesture = .ignored) {op : Op} (hop : ¬ (turn w op b s).reply.Turns) :
    (turn w op b s).board.gesture = .ignored ∧
      (op.isGesture = true → (turn w op b s).reply.Silent) := by
  cases op with
  | start source page => exact absurd (Or.inl rfl) hop
  | stop page => exact absurd (Or.inr rfl) hop
  | move page =>
    refine ⟨by simp only [turn, step, answer, moveDrag, hg], fun _ => ⟨?_, ?_⟩⟩
    · simp only [turn, step, answer, moveDrag, hg]
    · simp only [turn, step, answer, moveDrag, hg]
  | _ =>
    refine ⟨?_, fun h => absurd h Bool.false_ne_true⟩
    simp only [turn]
    rw [(step_keeps w.recorded b ⟨s, []⟩ _).gesture rfl, hg]

theorem ignored_stop (hg : b.gesture = .ignored) (page : Point) :
    (turn w (.stop page) b s).reply.Silent ∧
      (turn w (.stop page) b s).board = { b with gesture := .idle } := by
  refine ⟨⟨?_, ?_⟩, ?_⟩
  · simp only [turn, step, answer, stopDrag, hg]
  · simp only [turn, step, answer, stopDrag, hg]
  · simp only [turn, step, answer, stopDrag, hg]

theorem ignored_run (hg : b.gesture = .ignored) {ops : List Op}
    (hquiet : ∀ u ∈ (run w ops b s).reply, ¬ u.Turns) :
    (run w ops b s).board.gesture = .ignored ∧
      ∀ u ∈ (run w ops b s).reply, u.op.isGesture = true → u.Silent := by
  induction ops generalizing b s with
  | nil => exact ⟨hg, fun _ hu => absurd hu List.not_mem_nil⟩
  | cons op ops ih =>
    rw [run_cons] at hquiet ⊢
    obtain ⟨hfirst, hrest⟩ := List.forall_mem_cons.mp hquiet
    obtain ⟨hstays, hsilent⟩ := ignored_turn w b s hg hfirst
    obtain ⟨hend, hall⟩ := ih _ _ hstays hrest
    exact ⟨hend, List.forall_mem_cons.mpr ⟨hsilent, hall⟩⟩

/-- A palette that was read has a template for each selected element with a kind, in order of the
document, whose label is the text of its element. As long as no other palette is read, a drag of a
template of a kind is accepted just when an element has that kind, and the hooks in use are told of
the first such element. Any other drag of a template is swallowed up to its end: all that comes of
it is the end of the gesture before it. -/
theorem palette_resolves_drags (page : Page) (selector canvasSelector : String) (p : Palette) :
    let kindAttribute := b.settings.kindAttribute
    let t := turn w (.initPalette page selector canvasSelector) b s
    t.reply.reply = .palette p → ∃ elements, page selector = .ok elements ∧
      List.Forall₂ (fun e x => e.Kind kindAttribute x.kind ∧ x.label = e.text)
        (elements.filter fun e => !e.isKindless kindAttribute) p.templates ∧
      (∀ e ∈ elements, e.isKindless kindAttribute = true ↔ ∀ kind, ¬ e.Kind kindAttribute kind) ∧
      (∀ x ∈ p.templates, x.kind ≠ "") ∧
      ∀ ops,
        let o := run w ops t.board t.outside
        (∀ u ∈ o.reply, u.readsPalette = false) → ∀ kind pointer,
        let u := turn w (.start (.template kind) pointer) o.board o.outside
        ((∃ e ∈ elements, e.Kind kindAttribute kind) →
          ∃ first, FirstOf kindAttribute kind elements first ∧
            u.reply.reply = .actions (o.board.gesture.farewell ++ [.showHelper kind pointer]) ∧
            u.reply.heard =
              o.board.hooks.toList.map (fun tag => (tag, .started ⟨kind, first.text⟩)) ∧
            u.board.gesture = .template kind pointer) ∧
        ((∀ e ∈ elements, ¬ e.Kind kindAttribute kind) →
          u.reply.reply = .actions o.board.gesture.farewell ∧ u.reply.heard = [] ∧
            u.reply.bulletins = [] ∧ u.reply.calls = o.board.gesture.farewellCalls ∧
            u.board.gesture = .ignored ∧
            ∀ more,
              let m := run w more u.board u.outside
              (∀ v ∈ m.reply, ¬ v.Turns) →
                (∀ v ∈ m.reply, v.op.isGesture = true → v.Silent) ∧ ∀ release,
                  let stop := turn w (.stop release) m.board m.outside
                  stop.reply.Silent ∧ stop.board = { m.board with gesture := .idle }) := by
  intro kindAttribute t h
  obtain ⟨elements, hp, htemplates, hpalette⟩ := turn_initPalette w b s h
  have hmade := Palette.templates_forall₂ kindAttribute elements
  rw [← htemplates] at hmade
  refine ⟨elements, hp, hmade, fun e _ => Element.isKindless_iff, fun x hx => ?_, ?_⟩
  · rw [htemplates] at hx
    obtain ⟨e, -, he⟩ := List.mem_filterMap.mp hx
    exact (Template.ofElement?_eq_some_iff.mp he).1.ne_empty
  · intro ops o hkept kind pointer u
    have hfind : o.board.template? kind = p.template? kind := by
      rw [template?, run_palette w _ _ hkept, hpalette]
      rfl
    refine ⟨fun ⟨e, he, hk⟩ => ?_, fun hnone => ?_⟩
    · obtain ⟨first, hfirst, hfound⟩ := Palette.template?_first htemplates he hk
      exact ⟨first, hfirst, start_known w _ _ (hfind.trans hfound) pointer⟩
    · have hmissed := hfind.trans (Palette.template?_none htemplates hnone)
      obtain ⟨hreply, hheard, hbulletins, hcalls, hgesture⟩ :=
        start_unknown w _ o.outside hmissed pointer
      refine ⟨hreply, hheard, hbulletins, hcalls, hgesture, ?_⟩
      intro more m hquiet
      obtain ⟨hstays, hsilent⟩ := ignored_run w _ _ hgesture hquiet
      exact ⟨hsilent, fun release => ignored_stop w _ _ hstays release⟩

def mixed : List Element :=
  [{ tag := "li", attributes := [("data-type", "Step")], text := "First" },
    { tag := "li", id := some "", attributes := [("data-type", "")] },
    { tag := "li", id := some "Step", text := "Second" }, { tag := "li", text := "Note" }]

def rack : Page := fun selector => if selector = "#canvas" then sheet selector else .ok mixed

/-- Hooks are set after the palette was read, and a drag of an unknown kind follows one that goes
on. -/
theorem palette_resolves_drags_of_rack :
    let w := Fallible.surroundings fun _ => none
    let t := turn w (.initPalette rack ".template" "#canvas") standard .start
    let o := run w [.setHooks "hooks"] t.board t.outside
    let u := turn w (.start (.template "Step") ⟨1, 2⟩) o.board o.outside
    let v := turn w (.start (.template "First") ⟨3, 4⟩) u.board u.outside
    u.reply.reply = .actions [.showHelper "Step" ⟨1, 2⟩] ∧
      u.reply.heard = [("hooks", .started ⟨"Step", "First"⟩)] ∧
      v.reply.reply = .actions [.removeHelper] ∧ v.reply.heard = [] ∧
      (turn w (.stop ⟨5, 6⟩) v.board v.outside).reply.Silent := by
  intro w t o u v
  obtain ⟨elements, hp, -, -, -, hdrags⟩ :=
    palette_resolves_drags w standard .start rack ".template" "#canvas" _ rfl
  obtain rfl : mixed = elements := Except.ok.inj hp
  have hstep : (mixed.head (by decide)).Kind "data-type" "Step" := .ofAttribute rfl (by decide)
  have hnone : ∀ e ∈ mixed, ¬ e.Kind "data-type" "First" := by
    simp [mixed, Element.kind_iff, Element.naming, Element.attribute?, Attributes.get?]
  obtain ⟨first, ⟨before, after, hsplit, -, hbefore⟩, hreply, hheard, -⟩ :=
    (hdrags [.setHooks "hooks"] (by decide) "Step" ⟨1, 2⟩).1 ⟨_, List.mem_cons_self, hstep⟩
  have htext : first.text = "First" := by
    cases before with
    | nil => exact congrArg Element.text (List.cons.inj hsplit).1.symm
    | cons x rest =>
      obtain ⟨rfl, -⟩ := List.cons.inj hsplit
      exact absurd hstep (hbefore _ List.mem_cons_self)
  obtain ⟨hfarewell, hquiet, -, -, -, hmore⟩ :=
    (hdrags [.setHooks "hooks", .start (.template "Step") ⟨1, 2⟩] (by decide) "First"
      ⟨3, 4⟩).2 hnone
  refine ⟨hreply, ?_, hfarewell, hquiet, ?_⟩
  · rw [hheard, htext]
    rfl
  · exact ((hmore [] fun _ hv => absurd hv List.not_mem_nil).2 ⟨5, 6⟩).1

end Board

end DiagramEditor
