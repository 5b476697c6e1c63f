import DiagramEditor.Proofs.Board.Events

/-! Ids along a run. The ids that insertions return are the configured text followed by 0, 1, 2 and
so on without a gap: a refused insertion uses none up, and a removal sets none free. -/
namespace DiagramEditor

open Wiring (Fallible)

namespace Document

/-- The ids that a document has given out, in order. -/
def given (d : Document) : List ItemId :=
  (List.range d.created).map (idOf d.idPrefix)

theorem length_given (d : Document) : d.given.length = d.created := by
  simp [given]

theorem given_nodup (d : Document) : d.given.Nodup :=
  List.nodup_range.map (idOf_injective d.idPrefix)

theorem mem_given {d : Document} {id : ItemId} : id ∈ d.given ↔ d.Minted id := by
  simp [given, Minted, eq_comm]

theorem given_mint (d : Document) : d.mint.2.given = d.given ++ [d.mint.1] := by
  simp [given, mint, List.range_succ]

theorem given_lasts : Lasts given := fun _ _ _ _ => rfl

theorem given_insert {d e : Document} {index : Nat} {i : Item} (h : d.insert index i = .ok e) :
    e.given = d.given := by
  obtain ⟨-, rfl⟩ := insert_ok h
  rfl

theorem idPrefix_lasts : Lasts idPrefix := fun _ _ _ _ => rfl

theorem Sound.mem_given {d : Document} (hs : d.Sound) {id : ItemId} (h : id ∈ d.ids) :
    id ∈ d.given := by
  obtain ⟨i, hi, rfl⟩ := List.mem_map.mp h
  exact Document.mem_given.mpr (hs.minted i hi)

end Document

namespace Board

def Turn.placed? (t : Turn) : Option ItemId :=
  match t.op, t.reply with
  | .append _ _, .placed id => some id
  | .insert _ _ _, .placed id => some id
  | _, _ => none

section Step
variable {σ : Type} (w : Surroundings σ) (op : Op) (b : Board) (s : σ)

theorem step_idPrefix : (step w op b s).board.document.idPrefix = b.document.idPrefix := by
  cases op with
  | append kind p => rfl
  | insert index kind p =>
    rcases insertItem_cases w b s index kind p with ⟨-, ho⟩ | ⟨d, hd, ho⟩
    · rw [step, answer, ho]
    · rw [step, answer, ho]
      obtain ⟨-, rfl⟩ := Document.insert_ok hd
      rfl
  | remove id =>
    rcases removeItem_cases w b s id with ⟨-, ho⟩ | ⟨i, -, ⟨f, s', -, ho⟩ | ⟨s', -, ho⟩⟩
    · rw [step, answer, ho]
    · rw [step, answer, ho]
    · rw [step, answer, ho]
      rfl
  | _ => exact step_lasts Document.idPrefix_lasts rfl

theorem turn_given : let t := (turn w op b s).reply
    t.after.document.given = b.document.given ++ t.placed?.toList := by
  intro t
  cases op with
  | append kind p => exact b.document.given_mint
  | insert index kind p =>
    rcases insertItem_cases w.recorded b ⟨s, []⟩ index kind p with ⟨-, ho⟩ | ⟨d, hd, ho⟩
    · simp only [t, turn, step, answer, ho, Reply.ofExcept, Turn.placed?]
      exact (List.append_nil _).symm
    · simp only [t, turn, step, answer, ho, Reply.ofExcept, Turn.placed?]
      exact (Document.given_insert hd).trans b.document.given_mint
  | remove id =>
    rcases removeItem_cases w.recorded b ⟨s, []⟩ id with
      ⟨-, ho⟩ | ⟨i, -, ⟨f, s', -, ho⟩ | ⟨s', -, ho⟩⟩
    all_goals
      simp only [t, turn, step, answer, ho, Turn.placed?]
      exact (List.append_nil _).symm
  | _ =>
    refine (step_lasts Document.given_lasts rfl).trans ?_
    exact (List.append_nil _).symm

end Step

section Run
variable {σ : Type} {settings : Settings} {b : Board} (hb : Board.new settings = .ok b)
  (w : Surroundings σ) (s : σ) (ops : List Op)
include hb

theorem run_idPrefix : (run w ops b s).board.document.idPrefix = settings.idPrefix := by
  refine run_induction (P := fun _ o => o.board.document.idPrefix = settings.idPrefix) ?_ ?_ ops
  · rw [(new_ok hb).2.2.1]
    rfl
  · intro ops op ih
    exact (step_idPrefix w.recorded op _ _).trans ih

theorem run_given : let o := run w ops b s
    o.board.document.given = o.reply.filterMap Turn.placed? := by
  refine run_induction (P := fun _ o => o.board.document.given = o.reply.filterMap Turn.placed?)
    ?_ ?_ ops
  · rw [(new_ok hb).2.2.1]
    rfl
  · intro ops op ih
    simp only [extend, List.filterMap_append, ← ih]
    exact turn_given w op _ _

end Run

/-- The ids of new items count the insertions that succeeded, whatever is removed or refused
meanwhile, and no other ids stand in the document. -/
theorem ids_count_insertions {σ : Type} {settings : Settings} {b : Board}
    (hb : Board.new settings = .ok b) (w : Surroundings σ) (s : σ) (ops : List Op) :
    let o := run w ops b s
    let placed := o.reply.filterMap Turn.placed?
    let next : ItemId := ⟨settings.idPrefix ++ toString placed.length⟩
    let len := o.board.document.items.length
    (∀ (n : ℕ) (id : ItemId), placed[n]? = some id → id = ⟨settings.idPrefix ++ toString n⟩) ∧
    placed.Nodup ∧
    (o.board.document.ids.Nodup ∧ ∀ id ∈ o.board.document.ids, id ∈ placed) ∧
    (∀ kind p, (turn w (.append kind p) o.board o.outside).reply.reply = .placed next) ∧
    ∀ index kind p,
      let t := (turn w (.insert index kind p) o.board o.outside).reply
      (index ≤ len → t.reply = .placed next) ∧
      (len < index → t.reply = .refused (.indexOutOfRange index len) ∧ t.after = o.board) := by
  intro o placed next len
  have hgiven : o.board.document.given = placed := run_given hb w s ops
  have hprefix : o.board.document.idPrefix = settings.idPrefix := run_idPrefix hb w s ops
  have hsound : o.board.document.Sound := (run_orderly hb w ops s).2.sound
  have hnext : o.board.document.mint.1 = next := by
    have hlength : o.board.document.created = placed.length := by
      rw [← hgiven, Document.length_given]
    rw [Document.mint, hprefix, hlength]
    rfl
  refine ⟨?_, hgiven ▸ Document.given_nodup _, ⟨hsound.nodup_ids, ?_⟩, ?_, ?_⟩
  · intro n id hn
    rw [← hgiven, Document.given, hprefix, List.getElem?_map] at hn
    obtain ⟨m, hm, rfl⟩ := Option.map_eq_some_iff.mp hn
    obtain ⟨-, rfl⟩ := List.getElem?_eq_some_iff.mp hm
    rw [List.getElem_range]
    rfl
  · intro id hid
    exact hgiven ▸ hsound.mem_given hid
  · intro kind p
    exact congrArg Reply.placed hnext
  · intro index kind p t
    rcases insertItem_cases w.recorded o.board ⟨o.outside, []⟩ index kind p with
      ⟨hlt, ho⟩ | ⟨d, hd, ho⟩
    · refine ⟨fun hle => absurd hlt (Nat.not_lt_of_le hle), fun _ => ?_⟩
      simp only [t, turn, step, answer, ho, Reply.ofExcept]
      exact ⟨rfl, trivial⟩
    · have hle : index ≤ o.board.document.items.length := (Document.insert_ok hd).1
      refine ⟨fun _ => ?_, fun hlt => absurd hlt (Nat.not_lt_of_le hle)⟩
      simp only [t, turn, step, answer, ho, Reply.ofExcept, hnext]

def numbered : Settings := { idPrefix := "node1" }

theorem new_numbered : Board.new numbered =
    .ok { standard with settings := numbered, document := .empty "node1" } := rfl

/-- With a digit at the end of their common text the ids stay apart, and neither a removal nor an
insertion out of range disturbs the count. -/
theorem ids_count_insertions_past_removal :
    let ops : List Op :=
      [.append "Step" ⟨10, 20⟩, .append "Step" ⟨30, 40⟩, .remove ⟨"node11"⟩,
        .insert 5 "Note" ⟨0, 0⟩, .insert 0 "Note" ⟨0, 0⟩]
    let w := Fallible.surroundings fun _ => none
    let o := run w ops { standard with settings := numbered, document := .empty "node1" } .start
    o.reply.filterMap Turn.placed? = [⟨"node10"⟩, ⟨"node11"⟩, ⟨"node12"⟩] ∧
      o.board.document.ids = [⟨"node12"⟩, ⟨"node10"⟩] ∧
      (turn w (.append "Step" ⟨5, 5⟩) o.board o.outside).reply.reply = .placed ⟨"node13"⟩ := by
  intro ops w o
  have hplaced : o.reply.filterMap Turn.placed? = [⟨"node10"⟩, ⟨"node11"⟩, ⟨"node12"⟩] := by
    decide
  have hnext := (ids_count_insertions new_numbered w .start ops).2.2.2.1 "Step" ⟨5, 5⟩
  change _ = Reply.placed ⟨"node1" ++ toString (o.reply.filterMap Turn.placed?).length⟩ at hnext
  rw [hplaced] at hnext
  exact ⟨hplaced, by decide, hnext⟩

end Board

end DiagramEditor
