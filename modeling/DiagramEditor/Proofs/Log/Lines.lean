import DiagramEditor.Log.Console
import DiagramEditor.Proofs.Text.Trim
import DiagramEditor.Proofs.Text.Utf8

/-! The line of a writer: it is settled by the bytes alone, however they were cut into chunks, also
inside a character. -/
namespace DiagramEditor.Log

open Text.Utf8 (Lossy)

/-- `line` is what the text holds before its final line ends. -/
structure Ended (text line : List Char) : Prop where
  ends : ∃ ends, text = line ++ ends ∧ ∀ c ∈ ends, c = '\n' ∨ c = '\r'
  last : ∀ h : line ≠ [], line.getLast h ≠ '\n' ∧ line.getLast h ≠ '\r'

namespace Writer

def writeAll (w : Writer) : List (List UInt8) → List Nat × Writer
  | [] => ([], w)
  | chunk :: chunks => ((w.write chunk).1 :: ((w.write chunk).2.writeAll chunks).1,
      ((w.write chunk).2.writeAll chunks).2)

theorem writeAll_eq (w : Writer) (chunks : List (List UInt8)) :
    w.writeAll chunks = (chunks.map List.length, ⟨w.level, w.buffer ++ chunks.flatten⟩) := by
  induction chunks generalizing w with
  | nil => simp only [writeAll, List.map_nil, List.flatten_nil, List.append_nil]
  | cons chunk chunks ih =>
    simp only [writeAll, write, ih, List.map_cons, List.flatten_cons, List.append_assoc]

theorem isLineEnd_iff {c : Char} : isLineEnd c = true ↔ c = '\n' ∨ c = '\r' := by
  simp [isLineEnd]

theorem isBlank_of_isLineEnd {c : Char} (h : isLineEnd c = true) : Text.isBlank c = true := by
  rcases isLineEnd_iff.mp h with rfl | rfl <;> decide

theorem ended_dropEndWhile (text : List Char) : Ended text (Text.dropEndWhile isLineEnd text) where
  ends := ⟨text.rtakeWhile isLineEnd, (List.rdropWhile_append_rtakeWhile).symm,
    fun _ hc => isLineEnd_iff.mp (List.mem_rtakeWhile_imp hc)⟩
  last h := by
    have hl := List.rdropWhile_last_not isLineEnd _ h
    exact not_or.mp fun he => hl (isLineEnd_iff.mpr he)

theorem all_isBlank_dropEndWhile (text : List Char) :
    (Text.dropEndWhile isLineEnd text).all Text.isBlank = text.all Text.isBlank := by
  obtain ⟨ends, htext, hends⟩ := (ended_dropEndWhile text).ends
  have hblank : ends.all Text.isBlank = true :=
    List.all_eq_true.mpr fun c hc => isBlank_of_isLineEnd (isLineEnd_iff.mpr (hends c hc))
  conv_rhs => rw [htext, List.all_append, hblank, Bool.and_true]

theorem finish_eq (w : Writer) :
    w.finish = if (Text.Utf8.decode w.buffer).all Text.isBlank then none
      else some (w.level.method,
        String.ofList (Text.dropEndWhile isLineEnd (Text.Utf8.decode w.buffer))) := by
  simp only [finish, takeLine, lineOf, all_isBlank_dropEndWhile]
  split <;> rfl

end Writer

theorem Ended.eq_dropEndWhile {text line : List Char} (h : Ended text line) :
    line = Text.dropEndWhile Writer.isLineEnd text := by
  obtain ⟨ends, rfl, hends⟩ := h.ends
  have hdropped : ∀ c ∈ ends.reverse, Writer.isLineEnd c = true := fun c hc =>
    Writer.isLineEnd_iff.mpr (hends c (List.mem_reverse.mp hc))
  have hkept : line.rdropWhile Writer.isLineEnd = line :=
    List.rdropWhile_eq_self_iff.mpr fun hne he => by
      have hlast := h.last hne
      rcases Writer.isLineEnd_iff.mp he with hn | hr
      · exact hlast.1 hn
      · exact hlast.2 hr
  rw [Text.dropEndWhile_eq, List.rdropWhile, List.reverse_append,
    List.dropWhile_append_of_pos hdropped]
  exact hkept.symm

/-- Every chunk is taken whole, and then nothing is left and at most one line is shown: the text of
all bytes without its final line ends, unless the text is blank. -/
theorem line_of_bytes (level : Level) (chunks : List (List UInt8)) :
    let o := (Writer.new level).writeAll chunks
    o.1 = chunks.map List.length ∧ o.2.takeLine.2.buffer = [] ∧
      (∀ cut, cut.flatten = chunks.flatten →
        ((Writer.new level).writeAll cut).2.finish = o.2.finish) ∧
      ∃ text line, (∀ read, Lossy chunks.flatten read ↔ read = text) ∧
        (∀ s : String, chunks.flatten = s.toUTF8.toList → s.toList = text) ∧ Ended text line ∧
        o.2.finish = if text.all Text.isBlank then none
          else some (level.method, String.ofList line) := by
  intro o
  have ho : o = (chunks.map List.length, ⟨level, chunks.flatten⟩) := Writer.writeAll_eq _ chunks
  simp only [ho]
  refine ⟨trivial, rfl, fun cut hcut => ?_, Text.Utf8.decode chunks.flatten, _,
    fun _ => Text.Utf8.lossy_iff, fun s hs => ?_, Writer.ended_dropEndWhile _, Writer.finish_eq _⟩
  · rw [Writer.writeAll_eq, hcut]
    rfl
  · rw [hs]
    exact Text.Utf8.lossy_iff.mp (Text.Utf8.lossy_toUTF8 s)

/-- The bytes of `€` and `😀` are cut in the first chunks. The others hold a character that is cut
short, one that no byte continues, and one that the end cuts off. -/
theorem line_of_cut_characters :
    let chunks := [[0x20, 0xE2, 0x82], [], [0xAC, 0x0A, 0xF0], [0x9F, 0x98, 0x80, 0x0D, 0x0A]]
    let spoiled := [[0x61, 0xE2], [0x82, 0x41, 0xC0], [0x80, 0xF0, 0x9F], [0x98]]
    let o := (Writer.new .warn).writeAll chunks
    let u := (Writer.new .debug).writeAll spoiled
    chunks.flatten = " €\n😀\r\n".toUTF8.toList ∧ o.1 = [3, 0, 3, 5] ∧
      o.2.finish = some ("warn", " €\n😀") ∧
      ((Writer.new .warn).writeAll [chunks.flatten]).2.finish = some ("warn", " €\n😀") ∧
      Lossy spoiled.flatten "a\uFFFDA\uFFFD\uFFFD\uFFFD".toList ∧
      u.2.finish = some ("debug", "a\uFFFDA\uFFFD\uFFFD\uFFFD") := by
  intro chunks spoiled o u
  have hbytes : chunks.flatten = " €\n😀\r\n".toUTF8.toList := by
    rw [Text.Utf8.toUTF8_toList]
    decide
  obtain ⟨hcounts, -, hcut, text, line, -, htext, hline, hfinish⟩ := line_of_bytes .warn chunks
  obtain ⟨-, -, -, read, shown, hread, -, hshown, hlast⟩ := line_of_bytes .debug spoiled
  have hlossy : Lossy spoiled.flatten "a\uFFFDA\uFFFD\uFFFD\uFFFD".toList :=
    Text.Utf8.lossy_iff.mpr (by decide)
  have ho : o.2.finish = some ("warn", " €\n😀") := by
    rw [hfinish, hline.eq_dropEndWhile, ← htext _ hbytes]
    decide
  refine ⟨hbytes, hcounts, ho, (hcut [chunks.flatten] List.flatten_singleton).trans ho, hlossy, ?_⟩
  rw [hlast, hshown.eq_dropEndWhile, ← (hread _).mp hlossy]
  decide

end DiagramEditor.Log
