import DiagramEditor.Proofs.Board.Orderly
import DiagramEditor.Proofs.Wiring.Fallible

/-! Two operations that change the board before they ask the library: new bounds stay when a call is
turned down, and so does the size of the element whose item the library would not take. -/
namespace DiagramEditor

open Wiring (Call Library Fallible)

namespace Board

theorem measured_eq_iff {r : Rect} {i : Item} :
    measured r i = i ↔ (0 < r.width → 0 < r.height → i.size = r.size) := by
  rw [measured]
  by_cases hw : 0 < r.width
  · by_cases hh : 0 < r.height
    · have hsize : { i with width := r.width, height := r.height } = i ↔ i.size = r.size := by
        obtain ⟨id, kind, x, y, width, height, classes, draggable, endpoints⟩ := i
        simp [Item.size, Rect.size, eq_comm]
      simpa [hw, hh] using hsize
    · simp [hh]
  · simp [hw]

section Enable
variable {σ : Type} {w : Surroundings σ} {box : Size}

theorem enableAll_refused {count : Nat} {elements : List Element} {d d' : Document}
    {s s' : Recorded σ} {f : Fault}
    (h : enableAll w.recorded box count elements d s = (.error f, d', s')) :
    ∃ past, ∃ e ∈ elements, ∃ id, e.id = some id.text ∧
      s'.signals = s.signals ++ (past ++ [.call (.makeDraggable id box) (.error f)]) ∧
      (∀ g ∈ past, g.isRefused = false) ∧
      ∀ other, Signal.granted (.makeDraggable other box) ∉ past → d'.find? other =
        if other = id then (d.find? other).map (measured e.rect) else d.find? other := by
  induction elements generalizing count d s with
  | nil => cases h
  | cons e rest ih =>
    rw [enableAll] at h
    split at h
    · obtain ⟨past, e', he', id, hid, hs, hpast, hd⟩ := ih h
      refine ⟨.note (.log (Entries.elementSkipped e.tag e.id)) :: past, e',
        List.mem_cons_of_mem _ he', id, hid, ?_, ?_, ?_⟩
      · rw [hs]
        exact List.append_assoc _ _ _
      · exact List.forall_mem_cons.mpr ⟨rfl, hpast⟩
      · exact fun other ho => hd other fun hm => ho (List.mem_cons_of_mem _ hm)
    · next i hi =>
      obtain ⟨name, hname, hi⟩ := Option.bind_eq_some_iff.mp hi
      have hid : i.id = ⟨name⟩ := Document.find?_id hi
      have hshown : e.id = some i.id.text := by rw [hname, hid]
      dsimp only at h
      split at h
      · next g t hc =>
        obtain ⟨hg, h⟩ := Prod.mk.inj h
        obtain ⟨rfl, rfl⟩ := Prod.mk.inj h
        obtain rfl := Except.error.inj hg
        refine ⟨[], e, List.mem_cons_self, i.id, hshown, (Surroundings.recorded_call hc).2, ?_, ?_⟩
        · exact fun g hg => absurd hg List.not_mem_nil
        · exact fun other _ => Document.find?_update (measured_id e.rect) d other
      · next t hc =>
        -- the call joins the past, so the items asked about are none that it has changed
        let taken := (d.update i.id (measured e.rect)).update i.id Item.enable
        have hkept : ∀ other, other ≠ i.id → taken.find? other = d.find? other := by
          intro other hne
          rw [Document.find?_update (f := Item.enable) (fun _ => rfl), if_neg hne,
            Document.find?_update (measured_id e.rect), if_neg hne]
        obtain ⟨past, e', he', id, hid', hs, hpast, hd⟩ := ih (d := taken) h
        refine ⟨Signal.granted (.makeDraggable i.id box) :: past, e', List.mem_cons_of_mem _ he',
          id, hid', ?_, List.forall_mem_cons.mpr ⟨rfl, hpast⟩, fun other ho => ?_⟩
        · rw [hs, (Surroundings.recorded_call hc).2]
          exact List.append_assoc _ _ _
        · have hne : other ≠ i.id := by
            intro he
            subst he
            exact ho List.mem_cons_self
          rw [hd other fun hm => ho (List.mem_cons_of_mem _ hm), hkept other hne]

end Enable

section Step
variable {σ : Type} {w : Surroundings σ} {b : Board} {f : Fault}

theorem setBounds_refused {bounds : Rect} {s : Recorded σ}
    (h : (step w.recorded (.setBounds bounds) b s).reply = .refused f) :
    let o := step w.recorded (.setBounds bounds) b s
    o.board = { b with surface := b.surface.map fun v => { v with bounds := bounds } } ∧
      ((o.outside = s ∧ o.board = b) ∨ ∃ (past : List Call) (c : Call),
        o.outside.signals = s.signals ++ (past.map Signal.granted ++ [.call c (.error f)])) := by
  obtain ⟨settings, palette, surface, document, gesture, hooks, placements, moves⟩ := b
  cases surface with
  | none => exact ⟨rfl, Or.inl ⟨rfl, rfl⟩⟩
  | some v =>
    simp only [step, answer, setBounds] at h ⊢
    split at h
    · next g t hc =>
      obtain rfl := Reply.refused.inj h
      obtain ⟨past, c, rest, -, hs⟩ := Surroundings.callAll_refused hc
      exact ⟨rfl, Or.inr ⟨past, c, hs⟩⟩
    · cases h

theorem enable_refused {page : Page} {selector : String} {s : Recorded σ}
    (h : (step w.recorded (.enable page selector) b s).reply = .refused f) :
    let o := step w.recorded (.enable page selector) b s
    (o.outside = s ∧ o.board = b) ∨
    ∃ v elements past e id, b.surface = some v ∧ page selector = .ok elements ∧ e ∈ elements ∧
      e.id = some id.text ∧ o.outside.signals =
        s.signals ++ (past ++ [.call (.makeDraggable id v.bounds.size) (.error f)]) ∧
      (∀ g ∈ past, g.isRefused = false) ∧ o.board = { b with document := o.board.document } ∧
      ∀ other, Signal.granted (.makeDraggable other v.bounds.size) ∉ past →
        o.board.document.find? other =
          if other = id then (b.document.find? other).map (measured e.rect)
          else b.document.find? other := by
  simp only [step, answer, enableDragging] at h ⊢
  cases hv : b.surface with
  | none => exact Or.inl ⟨rfl, rfl⟩
  | some v =>
    cases hp : page selector with
    | error g => exact Or.inl ⟨rfl, rfl⟩
    | ok elements =>
      simp only [hv, hp] at h ⊢
      split at h
      · next g d' s' hall =>
        obtain rfl := Reply.refused.inj h
        obtain ⟨past, e, he, id, hid, hs, hpast, hd⟩ := enableAll_refused hall
        exact Or.inr ⟨v, elements, past, e, id, rfl, rfl, he, hid, hs, hpast, rfl, hd⟩
      · cases h

end Step

/-- What a failure leaves behind. New bounds are kept whichever call is turned down. Of the items
that the library has not taken, only the one it was asked for last differs, by the size of its
element. -/
theorem interrupted_setup {σ : Type} (w : Surroundings σ) (b : Board) (s : σ) (f : Fault) :
    (∀ bounds, let t := (turn w (.setBounds bounds) b s).reply
      t.reply = .refused f →
        t.after = { b with surface := b.surface.map fun v => { v with bounds := bounds } } ∧
        (t.after.surface = b.surface ↔ ∀ v, b.surface = some v → v.bounds = bounds)) ∧
    ∀ page selector, let t := (turn w (.enable page selector) b s).reply
      t.reply = .refused f → (t.signals = [] ∧ t.after = b) ∨
        ∃ v elements past e id, b.surface = some v ∧ page selector = .ok elements ∧ e ∈ elements ∧
          e.id = some id.text ∧
          t.signals = past ++ [.call (.makeDraggable id v.bounds.size) (.error f)] ∧
          (∀ g ∈ past, g.isRefused = false) ∧
          t.after = { b with document := t.after.document } ∧
          ∀ other, Signal.granted (.makeDraggable other v.bounds.size) ∉ past →
            (t.after.document.find? other = b.document.find? other ↔
              (other = id → ∀ i, b.document.find? id = some i →
                0 < e.rect.width → 0 < e.rect.height → i.size = e.rect.size)) := by
  constructor
  · intro bounds t h
    obtain ⟨hafter, -⟩ := setBounds_refused h
    refine ⟨hafter, ?_⟩
    simp only [t, turn, hafter]
    cases hv : b.surface with
    | none => simp
    | some v =>
      obtain ⟨selector, old⟩ := v
      simp [eq_comm]
  · intro page selector t h
    rcases enable_refused h with ⟨hs, hb⟩ |
      ⟨v, elements, past, e, id, hv, hp, he, hid, hs, hpast, hb, hd⟩
    · exact Or.inl ⟨congrArg Recorded.signals hs, hb⟩
    · refine Or.inr ⟨v, elements, past, e, id, hv, hp, he, hid, hs, hpast, hb, fun other ho => ?_⟩
      have hfind : t.after.document.find? other = _ := hd other ho
      rw [hfind]
      by_cases hne : other = id
      · subst hne
        cases hi : b.document.find? other with
        | none => simp
        | some i => simp [measured_eq_iff]
      · simp [hne]

def enlarged : Page := fun selector =>
  if selector = "#canvas" then sheet selector
  else .ok [{ tag := "div", id := some "canvasItem0", rect := ⟨10, 20, 200, 80⟩ }]

def wavering : Surroundings Fallible :=
  Fallible.surroundings fun n => if n = 1 ∨ n = 3 then some (.library "busy") else none

/-- The item that the library would not take has the size of its element, and the bounds that it
would not take are those of the canvas. -/
theorem refused_setup_changes_board :
    let ops : List Op := [.initCanvas enlarged "#canvas", .append "Step" ⟨10, 20⟩]
    let first := run wavering ops standard .start
    let t := (turn wavering (.enable enlarged ".canvas-item") first.board first.outside).reply
    let second := run wavering
      (ops ++ [.enable enlarged ".canvas-item", .enable enlarged ".canvas-item"]) standard .start
    let u := (turn wavering (.setBounds ⟨0, 0, 400, 300⟩) second.board second.outside).reply
    (t.reply = .refused (.library "busy") ∧
      t.before.document.items.map (·.width) = [120] ∧
      t.after.document.items.map (·.width) = [200]) ∧
    u.reply = .refused (.library "busy") ∧ u.before.surface.map (·.bounds.width) = some 800 ∧
      u.after.surface.map (·.bounds.width) = some 400 := by
  intro ops first t second u
  refine ⟨⟨rfl, by decide, by decide⟩, rfl, by decide, by decide⟩

/-- An element of the size its item has already leaves the item as it was, and bounds that are in
place already stay in place. -/
theorem interrupted_setup_without_change :
    let ops : List Op := [.initCanvas sheet "#canvas", .append "Step" ⟨10, 20⟩]
    let first := run wavering ops standard .start
    let t := (turn wavering (.enable sheet ".canvas-item") first.board first.outside).reply
    let second := run wavering
      (ops ++ [.enable sheet ".canvas-item", .enable sheet ".canvas-item"]) standard .start
    let u := (turn wavering (.setBounds ⟨0, 0, 800, 600⟩) second.board second.outside).reply
    t.reply = .refused (.library "busy") ∧
      t.after.document.find? ⟨"canvasItem0"⟩ = first.board.document.find? ⟨"canvasItem0"⟩ ∧
      u.reply = .refused (.library "busy") ∧ u.after.surface = second.board.surface := by
  intro ops first t second u
  have ht : t.reply = .refused (.library "busy") := rfl
  have hu : u.reply = .refused (.library "busy") := rfl
  have hitem : (first.board.document.find? ⟨"canvasItem0"⟩).map (fun i => (i.width, i.height)) =
      some (120, 50) := by decide
  have hbounds : second.board.surface = some ⟨"#canvas", ⟨0, 0, 800, 600⟩⟩ := rfl
  refine ⟨ht, ?_, hu, ?_⟩
  · rcases (interrupted_setup wavering first.board first.outside (.library "busy")).2 sheet
      ".canvas-item" ht with ⟨-, hb⟩ | ⟨v, elements, past, e, id, -, hp, he, hid, hs, -, -, hd⟩
    · exact congrArg (fun c => c.document.find? ⟨"canvasItem0"⟩) hb
    · have hpast : past = [] := by
        have hlen : t.signals.length = 1 := by decide
        rw [hs, List.length_append] at hlen
        exact List.eq_nil_of_length_eq_zero (Nat.succ.inj hlen)
      obtain rfl := Except.ok.inj hp
      obtain rfl := List.mem_singleton.mp he
      obtain rfl : ⟨"canvasItem0"⟩ = id := congrArg ItemId.mk (Option.some.inj hid)
      refine (hd _ (hpast ▸ List.not_mem_nil)).mpr fun _ i hi _ _ => ?_
      rw [hi] at hitem
      obtain ⟨hw, hh⟩ := Prod.mk.inj (Option.some.inj hitem)
      exact congrArg₂ Size.mk hw hh
  · refine ((interrupted_setup wavering second.board second.outside (.library "busy")).1
      ⟨0, 0, 800, 600⟩ hu).2.mpr fun v hv => ?_
    rw [hbounds] at hv
    exact (Option.some.inj hv) ▸ rfl

end Board

end DiagramEditor
