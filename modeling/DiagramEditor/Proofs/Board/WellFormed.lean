import DiagramEditor.Proofs.Board.Events
import DiagramEditor.Proofs.Board.Removal

/-! The document along a run: its items have an extent and the configured class, its endpoints
belong to their items, nothing that an item has gained is taken from it, and an item that is dragged
is there to be dragged unless it was removed. The surroundings may be any. -/
namespace DiagramEditor

open Wiring (Fallible)

theorem Settings.size_pos {settings : Settings} (h : settings.problem? = none) :
    0 < settings.itemWidth ∧ 0 < settings.itemHeight := by
  obtain ⟨⟨hw, hh⟩, -⟩ := of_problem?_none h
  simp only [isPositive, Bool.and_eq_true, decide_eq_true_eq] at hw hh
  exact ⟨hw.2, hh.2⟩

/-- The item has an extent on both axes and the one class that all items have. -/
structure Item.Shaped (settings : Settings) (i : Item) : Prop where
  width : 0 < i.width
  height : 0 < i.height
  classes : i.classes = [settings.itemClass]

theorem Item.Shaped.measured {settings : Settings} {i : Item} (h : i.Shaped settings)
    (bounds : Rect) : (Board.measured bounds i).Shaped settings := by
  rw [Board.measured]
  split
  · next hr =>
    simp only [Bool.and_eq_true, decide_eq_true_eq] at hr
    exact ⟨hr.1, hr.2, h.classes⟩
  · exact h

namespace Board

theorem newItem_shaped {settings : Settings} (h : settings.problem? = none) (id : ItemId)
    (kind : String) (p : Point) : (newItem settings id kind p).Shaped settings where
  width := (Settings.size_pos h).1
  height := (Settings.size_pos h).2
  classes := rfl

section Effect
variable {σ : Type} {w : Surroundings σ} {r : Conduct} {x y : Document × σ}

theorem Effect.shaped (h : Effect w r x y) (hr : r.settings.problem? = none)
    (hx : ∀ i ∈ x.1.items, i.Shaped r.settings) : ∀ i ∈ y.1.items, i.Shaped r.settings := by
  have hupdate : ∀ {d : Document} {id : ItemId} {f : Item → Item},
      (∀ i ∈ d.items, i.Shaped r.settings) →
      (∀ i : Item, i.Shaped r.settings → (f i).Shaped r.settings) →
      ∀ j ∈ (d.update id f).items, j.Shaped r.settings := by
    intro d id f hd hf j hj
    rcases Document.mem_updateFirst hj with hj | ⟨i, hi, -, rfl⟩
    · exact hd j hj
    · exact hf i (hd i hi)
  cases h with
  | noted n _ => exact hx
  | refused _ _ => exact hx
  | told _ _ _ => exact hx
  | resized id bounds => exact hupdate hx fun i hi => hi.measured bounds
  | enabled _ _ _ => exact hupdate hx fun i hi => ⟨hi.width, hi.height, hi.classes⟩
  | placed _ _ => exact hupdate hx fun i hi => ⟨hi.width, hi.height, hi.classes⟩
  | slipped _ _ => exact hupdate hx fun i hi => ⟨hi.width, hi.height, hi.classes⟩
  | inserted index kind p h =>
    obtain ⟨hl, rfl⟩ := Document.insert_ok h
    intro i hi
    rcases (List.mem_insertIdx hl).mp hi with rfl | hi
    · exact newItem_shaped hr _ kind p
    · exact hx i hi
  | removed _ _ _ => exact fun i hi => hx i (List.mem_of_mem_eraseP hi)
  | attached _ _ _ _ => exact hupdate hx fun i hi => ⟨hi.width, hi.height, hi.classes⟩

end Effect

section Step
variable {σ : Type} {w : Surroundings σ} {b : Board} {op : Op} {s : σ}

theorem step_shaped (hp : b.settings.problem? = none)
    (h : ∀ i ∈ b.document.items, i.Shaped b.settings) :
    ∀ i ∈ (step w op b s).board.document.items, i.Shaped b.settings :=
  (step_trail w b s op).keeps (P := fun x => ∀ i ∈ x.1.items, i.Shaped b.settings)
    (fun hxy => hxy.shaped (r := b.conduct op) hp) h

theorem turn_gone {id : ItemId} (hs : b.document.Sound)
    (hg : (turn w op b s).board.document.Gone id) :
    b.document.Gone id ∨ (turn w op b s).reply.removes id := by
  cases op with
  | append kind p =>
    exact Or.inl (hs.gone_insert (Document.push_eq_insert _ (newItem b.settings _ kind p)) rfl hg)
  | insert index kind p =>
    left
    simp only [turn, step, answer] at hg
    rcases insertItem_cases w.recorded b ⟨s, []⟩ index kind p with ⟨-, ho⟩ | ⟨d, hd, ho⟩
    · rw [ho] at hg
      exact hg
    · rw [ho] at hg
      exact hs.gone_insert hd rfl hg
  | remove other =>
    simp only [turn, step, answer] at hg ⊢
    rcases removeItem_cases w.recorded b ⟨s, []⟩ other with
      ⟨-, ho⟩ | ⟨i, hi, ⟨f, s', -, ho⟩ | ⟨s', -, ho⟩⟩
    · rw [ho] at hg
      exact Or.inl hg
    · rw [ho] at hg
      exact Or.inl hg
    · rw [ho] at hg ⊢
      by_cases hne : id = other
      · subst hne
        exact Or.inr ⟨rfl, i, rfl⟩
      · exact Or.inl ⟨hg.minted, Document.find?_remove_of_ne hne b.document ▸ hg.absent⟩
  | _ => exact Or.inl ((step_lasts (Document.gone_lasts id) rfl).mp hg)

end Step

section Run
variable {σ : Type} {settings : Settings} {b : Board} (hb : Board.new settings = .ok b)
  (w : Surroundings σ) (s : σ) (ops : List Op)
include hb

theorem run_shaped : ∀ i ∈ (run w ops b s).board.document.items, i.Shaped settings := by
  refine run_induction (P := fun _ o => ∀ i ∈ o.board.document.items, i.Shaped settings) ?_ ?_ ops
  · intro i hi
    rw [(new_ok hb).2.2.1] at hi
    cases hi
  · intro ops op ih
    have hset : (run w ops b s).board.settings = settings := (run_orderly hb w ops s).1
    rw [← hset] at ih ⊢
    exact step_shaped (hset ▸ (new_ok hb).1) ih

theorem run_follows (more : List Op) :
    (run w ops b s).board.document.Follows (run w (ops ++ more) b s).board.document := by
  induction more using List.reverseRecOn with
  | nil =>
    rw [List.append_nil]
    exact .refl _
  | append_singleton more op ih =>
    -- the last operation works on a sound document, which the run before it has left
    rw [← List.append_assoc, run_concat]
    exact ih.trans (step_follows (run_orderly hb w (ops ++ more) s).2.sound)

theorem run_gone (id : ItemId) :
    (run w ops b s).board.document.Gone id ↔ ∃ t ∈ (run w ops b s).reply, t.removes id := by
  constructor
  · refine run_induction (P := fun _ o => o.board.document.Gone id → ∃ t ∈ o.reply, t.removes id)
      ?_ ?_ ops
    · intro hg
      obtain ⟨n, hn, -⟩ := hg.minted
      rw [(new_ok hb).2.2.1] at hn
      exact absurd hn (Nat.not_lt_zero n)
    · intro ops op ih hg
      rcases turn_gone (run_orderly hb w ops s).2.sound hg with hg | hr
      · obtain ⟨t, ht, hr⟩ := ih hg
        exact ⟨t, List.mem_append_left _ ht, hr⟩
      · exact ⟨_, List.mem_append_right _ (List.mem_singleton_self _), hr⟩
  · intro h
    obtain ⟨t, ht, hr⟩ := h
    exact (run_removed hb ops).2 t ht id hr

theorem run_dragged {id : ItemId} {grab p : Point}
    (hg : (run w ops b s).board.gesture = .item id grab p) :
    (run w ops b s).board.document.Draggable id ∨ (run w ops b s).board.document.Gone id := by
  refine run_induction (P := fun _ o => o.board.gesture = .item id grab p →
    o.board.document.Draggable id ∨ o.board.document.Gone id) ?_ ?_ ops hg
  · intro hg
    rw [(new_ok hb).2.2.2.1] at hg
    cases hg
  · intro ops op ih hg
    rcases step_gesture w.recorded _ _ hg with hg | hd
    · exact (step_follows (run_orderly hb w ops s).2.sound).draggable (ih hg)
    · exact Or.inl hd

end Run

/-- A document is well-formed after every run, and stays so: what an item has gained it keeps for as
long as it is there. -/
theorem document_well_formed {σ : Type} {settings : Settings} {b : Board}
    (hb : Board.new settings = .ok b) (w : Surroundings σ) (s : σ) (ops : List Op) :
    let o := run w ops b s
    let d := o.board.document
    (∀ i ∈ d.items, 0 < i.width ∧ 0 < i.height ∧ i.classes = [settings.itemClass]) ∧
    (∀ i ∈ d.items, ∀ e ∈ i.endpoints, e.item = i.id ∧ e.style = settings.style e.role) ∧
    (Fresh ops → ((d.items.flatMap (·.endpoints)).map (·.id)).Nodup ∧
      ∀ id e, d.endpoint? id = some e ↔ (∃ i ∈ d.items, e ∈ i.endpoints) ∧ e.id = id) ∧
    (∀ more, ∀ i ∈ d.items, ∀ j ∈ (run w (ops ++ more) b s).board.document.items, j.id = i.id →
      (i.draggable = true → j.draggable = true) ∧ i.endpoints <+: j.endpoints) ∧
    (∀ id grab p, o.board.gesture = .item id grab p → (∃ v, o.board.surface = some v) ∧
      ((∃ i, d.find? id = some i ∧ i.draggable = true) ∨
        d.find? id = none ∧ ∃ t ∈ o.reply, t.removes id)) ∧
    ∀ kind last, o.board.gesture = .template kind last → ∃ q, o.board.palette = some q := by
  intro o d
  obtain ⟨hset, ho⟩ := run_orderly hb w ops s
  have hidle : b.gesture = .idle := (new_ok hb).2.2.2.1
  refine ⟨?_, ?_, ?_, ?_, ?_, ?_⟩
  · intro i hi
    have hshaped := run_shaped hb w s ops i hi
    exact ⟨hshaped.width, hshaped.height, hshaped.classes⟩
  · intro i hi e he
    exact ⟨ho.sound.owned i hi e he, hset ▸ ho.styled e (Document.mem_endpoints.mpr ⟨i, hi, he⟩)⟩
  · intro hf
    have hdistinct : d.Distinct := ho.distinct hf
    refine ⟨hdistinct, fun id e => ?_⟩
    rw [← Document.mem_endpoints]
    constructor
    · exact Document.endpoint?_some
    · rintro ⟨he, rfl⟩
      exact Document.endpoint?_of_mem hdistinct he
  · intro more i hi j hj hid
    have hlater := (run_orderly hb w (ops ++ more) s).2.sound
    have hgrows := (run_follows hb w s ops more).grows ho.sound hlater hi hj hid
    exact ⟨hgrows.draggable, hgrows.endpoints⟩
  · intro id grab p hg
    refine ⟨run_item w s ops hidle hg, ?_⟩
    rcases run_dragged hb w s ops hg with hd | hgone
    · exact Or.inl hd
    · exact Or.inr ⟨hgone.absent, (run_gone hb w s ops id).mp hgone⟩
  · intro kind last hg
    exact Option.isSome_iff_exists.mp (run_template w s ops hidle hg).1

/-- An item that is removed while it is dragged leaves the gesture behind; until then it keeps its
endpoint. -/
theorem document_well_formed_past_removal :
    let ops : List Op :=
      [.initCanvas sheet "#canvas", .append "Step" ⟨10, 20⟩, .enable sheet ".canvas-item",
        .attach ⟨1⟩ ⟨"canvasItem0"⟩ .source, .start (.item ⟨"canvasItem0"⟩) ⟨15, 25⟩]
    let w := Fallible.surroundings fun _ => none
    let o := run w ops standard .start
    let o' := run w (ops ++ [.remove ⟨"canvasItem0"⟩]) standard .start
    (∃ i ∈ o.board.document.items, i.draggable = true ∧ i.endpoints.map (·.id) = [⟨1⟩]) ∧
      o'.board.document.ids = [] ∧ ∃ t ∈ o'.reply, t.removes ⟨"canvasItem0"⟩ := by
  intro ops w o o'
  have hw := document_well_formed new_standard w .start (ops ++ [.remove ⟨"canvasItem0"⟩])
  obtain ⟨-, -, -, -, hitem, -⟩ := hw
  obtain ⟨grab, p, hg⟩ : ∃ grab p, o'.board.gesture = .item ⟨"canvasItem0"⟩ grab p := by
    have hsource : o'.board.gesture.source? = some (.item ⟨"canvasItem0"⟩) := by decide
    cases hg : o'.board.gesture with
    | item id grab p =>
      rw [hg] at hsource
      obtain rfl : id = ⟨"canvasItem0"⟩ := DragSource.item.inj (Option.some.inj hsource)
      exact ⟨grab, p, rfl⟩
    | _ =>
      rw [hg] at hsource
      cases hsource
  have hids : o'.board.document.ids = [] := by decide
  refine ⟨by decide, hids, ?_⟩
  rcases (hitem ⟨"canvasItem0"⟩ grab p hg).2 with ⟨i, hi, -⟩ | ⟨-, hr⟩
  · have hmem := Document.mem_ids.mpr ⟨i, hi⟩
    rw [hids] at hmem
    cases hmem
  · exact hr

end Board

end DiagramEditor
