import DiagramEditor.Proofs.Board.History
import DiagramEditor.Proofs.Document.Lookup

/-! Operations that check first, ask the library then, and change the board last, once every call
was carried out. What such an operation asks for is its demand. -/
namespace DiagramEditor

open Wiring (Call Library)

namespace Signal

def granted (c : Call) : Signal := .call c (.ok ())

def isRefused : Signal → Bool
  | .call _ (.error _) => true
  | _ => false

end Signal

theorem Surroundings.callAll_refused {σ : Type} {w : Surroundings σ} {calls : List Call}
    {s s' : Recorded σ} {f : Fault}
    (h : Library.callAll w.recorded.call calls s = (.error f, s')) :
    ∃ past c rest, calls = past ++ c :: rest ∧
      s'.signals = s.signals ++ (past.map Signal.granted ++ [.call c (.error f)]) := by
  induction calls generalizing s with
  | nil => cases h
  | cons c rest ih =>
    rw [Library.callAll] at h
    split at h
    · next g t hc =>
      obtain ⟨hg, rfl⟩ := Prod.mk.inj h
      obtain rfl := Except.error.inj hg
      exact ⟨[], c, rest, rfl, (recorded_call hc).2⟩
    · next t hc =>
      obtain ⟨past, c', rest', rfl, hs⟩ := ih h
      refine ⟨c :: past, c', rest', rfl, ?_⟩
      rw [hs, (recorded_call hc).2]
      simp [Signal.granted]

def Page.found (page : Page) (selector : String) : Except Fault (Element × List Element) :=
  match page selector with
  | .error f => .error f
  | .ok [] => .error (.missingElement selector)
  | .ok (e :: rest) => .ok (e, rest)

namespace Board

/-- The calls an operation makes, and what follows when all are carried out. -/
structure Demand where
  calls : List Call
  entries : List Log.Entry
  reply : Reply
  after : Board
  reply_ne : ∀ f, reply ≠ .refused f := by simp

def skippedEntries (kindAttribute : String) (elements : List Element) : List Log.Entry :=
  (elements.filter fun e => (Template.ofElement? kindAttribute e).isNone).map fun e =>
    Entries.templateWithoutKind e.tag

/-- What an operation asks for or why it does not, if it is one of those that ask first. -/
def demand? (b : Board) : Op → Option (Except Fault Demand)
  | .initPalette page selector canvasSelector => some do
    let (first, rest) ← page.found selector
    let _ ← page.found canvasSelector
    let kindAttribute := b.settings.kindAttribute
    let templates := (first :: rest).filterMap (Template.ofElement? kindAttribute)
    let palette : Palette := ⟨templates, selector, canvasSelector⟩
    return {
      calls := []
      entries := skippedEntries kindAttribute (first :: rest)
        ++ [Entries.paletteInitialized templates.length selector]
      reply := .palette palette
      after := { b with palette := some palette } }
  | .initCanvas page selector => some do
    let (container, _) ← page.found selector
    return {
      calls := canvasCalls container b.document
      entries := [Entries.canvasInitialized selector container.rect b.document.endpoints.length]
      reply := .bounds container.rect
      after := { b with surface := some ⟨selector, container.rect⟩ } }
  | .insert index kind p => some do
    let (id, _) := b.document.mint
    let d ← b.document.mint.2.insert index (newItem b.settings id kind p)
    return {
      calls := []
      entries := [Entries.itemInserted id kind index p]
      reply := .placed id
      after := { b with document := d } }
  | .remove id => some <|
    match b.document.find? id with
    | none => .error (.unknownItem id)
    | some i =>
      .ok {
        calls := [.removeElement id]
        entries := [Entries.itemRemoved id]
        reply := .removed i
        after := { b with document := b.document.remove id } }
  | .attach id item role => some <|
    match b.document.find? item with
    | none => .error (.unknownItem item)
    | some _ =>
      let e : Endpoint := ⟨id, item, role, b.settings.style role⟩
      .ok {
        calls := [.addEndpoint e]
        entries := [Entries.endpointAttached e]
        reply := .named id
        after := { b with document := b.document.update item (Item.attach e) } }
  | .connect id source target => some <|
    match b.document.endpoint? source, b.document.endpoint? target with
    | none, _ => .error (.unknownEndpoint source)
    | _, none => .error (.unknownEndpoint target)
    | some first, some second =>
      if first.role ≠ .source ∨ second.role ≠ .target then
        .error (.roleMismatch first.role second.role)
      else
        .ok {
          calls := [.connect id first second]
          entries := [Entries.connectionRequested id first.item second.item]
          reply := .named id
          after := b }
  | _ => none

variable {σ : Type} (w : Surroundings σ)

def attempt (b : Board) (s : σ) : Except Fault Demand → Outcome σ Reply
  | .error f => ⟨.refused f, b, s⟩
  | .ok d =>
    match Library.callAll w.call d.calls s with
    | (.error f, s) => ⟨.refused f, b, s⟩
    | (.ok (), s) => ⟨d.reply, d.after, d.entries.foldl (fun s e => w.log e s) s⟩

theorem attempt_board {b : Board} {s : σ} {d : Except Fault Demand} {f : Fault}
    (h : (attempt w b s d).reply = .refused f) : (attempt w b s d).board = b := by
  cases d with
  | error g => rfl
  | ok q =>
    simp only [attempt] at h ⊢
    split at h
    · rfl
    · exact absurd h (q.reply_ne f)

theorem noteSkipped_eq (kindAttribute : String) (elements : List Element) (s : σ) :
    noteSkipped w kindAttribute elements s =
      (skippedEntries kindAttribute elements).foldl (fun s e => w.log e s) s := by
  induction elements generalizing s with
  | nil => rfl
  | cons e rest ih =>
    rw [noteSkipped, List.foldl_cons, ← noteSkipped, ih]
    cases h : Template.ofElement? kindAttribute e with
    | none => simp [skippedEntries, h]
    | some t => simp [skippedEntries, h]

/-- Checks, calls and changes come in this order. -/
theorem step_attempt {b : Board} {op : Op} {d : Except Fault Demand} (h : b.demand? op = some d)
    (s : σ) : step w op b s = attempt w b s d := by
  cases op with
  | initPalette page selector canvasSelector =>
    obtain rfl := Option.some.inj h
    simp only [step, answer, initPalette, Page.found]
    cases page selector with
    | error f => rfl
    | ok elements =>
      cases elements with
      | nil => rfl
      | cons e rest =>
        cases page canvasSelector with
        | error f => rfl
        | ok others =>
          cases others with
          | nil => rfl
          | cons e' rest' =>
            simp only [noteSkipped_eq]
            simp [attempt, Library.callAll, Reply.ofExcept, bind, Except.bind, pure, Except.pure]
  | initCanvas page selector =>
    obtain rfl := Option.some.inj h
    simp only [step, answer, initCanvas, Page.found]
    cases page selector with
    | error f => rfl
    | ok elements =>
      cases elements with
      | nil => rfl
      | cons container rest =>
        simp only [attempt, bind, Except.bind, pure, Except.pure]
        rcases Library.callAll w.call (canvasCalls container b.document) s with ⟨f | _, s'⟩ <;> rfl
  | insert index kind p =>
    obtain rfl := Option.some.inj h
    simp only [step, answer, insertItem]
    -- the document checks the index once more, after the id was taken
    by_cases hl : b.document.items.length < index
    · have hmint : b.document.mint.2.items.length < index := hl
      simp only [Document.insert, if_pos hl, if_pos hmint]
      rfl
    · have hmint : ¬ b.document.mint.2.items.length < index := hl
      simp only [Document.insert, if_neg hl, if_neg hmint]
      rfl
  | remove id =>
    obtain rfl := Option.some.inj h
    simp only [step, answer, removeItem]
    cases b.document.find? id with
    | none => rfl
    | some i =>
      simp only [attempt, Library.callAll]
      rcases w.call (.removeElement id) s with ⟨f | _, s'⟩ <;> rfl
  | attach id item role =>
    obtain rfl := Option.some.inj h
    simp only [step, answer, attach]
    cases b.document.find? item with
    | none => rfl
    | some i =>
      simp only [attempt, Library.callAll]
      rcases w.call (.addEndpoint ⟨id, item, role, b.settings.style role⟩) s with ⟨f | _, s'⟩ <;>
        rfl
  | connect id source target =>
    obtain rfl := Option.some.inj h
    simp only [step, answer, connect]
    cases b.document.endpoint? source with
    | none => rfl
    | some first =>
      cases b.document.endpoint? target with
      | none => rfl
      | some second =>
        by_cases hr : first.role ≠ .source ∨ second.role ≠ .target
        · simp only [if_pos hr]
          rfl
        · simp only [if_neg hr, attempt, Library.callAll]
          rcases w.call (.connect id first second) s with ⟨f | _, s'⟩ <;> rfl
  | _ => cases h

end Board

end DiagramEditor
