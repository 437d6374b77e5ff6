import Sproto.Layout.Format
import Sproto.Proofs.Editor.Diagnostic

/-! # Replacing a whole document

Formatting answers with one edit from the start of a document to the end of its last line.  A line ends
before its carriage return, so the edit reaches the end of the text unless the text ends in a carriage
return that no line feed follows (`loneReturn`).  Such a carriage return stays behind what the edit puts
in (`replaceWhole_apply_eq_iff`). -/
namespace Sproto

open Text

namespace Text

/-- The carriage return at the very end of a text, if there is one. -/
def loneReturn (t : Text) : Text := if t.getLast? = some '\r' then ['\r'] else []

theorem loneReturn_eq_nil_iff {t : Text} : loneReturn t = [] ↔ t.getLast? ≠ some '\r' := by
  simp [loneReturn]

/-- A line is what counts of it and the carriage return at its end. -/
theorem dropReturn_append_loneReturn (l : Text) : dropReturn l ++ loneReturn l = l := by
  unfold dropReturn loneReturn
  split
  · next hlast =>
    obtain ⟨u, rfl⟩ := List.getLast?_eq_some_iff.mp hlast
    rw [List.dropLast_concat]
  · exact List.append_nil l

theorem drop_dropReturn (l : Text) : l.drop (dropReturn l).length = loneReturn l := by
  have h := @List.drop_left _ (dropReturn l) (loneReturn l)
  rwa [dropReturn_append_loneReturn] at h

/-- A text is its lines but the last, each with its line feed, and its last line. -/
theorem exists_splitOn_eq_concat (t : Text) :
    ∃ front l, t.splitOn '\n' = front ++ [l] ∧ t = front.flatMap (· ++ ['\n']) ++ l := by
  obtain ⟨front, l, hsplit⟩ :=
    (List.eq_nil_or_concat' (t.splitOn '\n')).resolve_left (List.splitOn_ne_nil '\n' t)
  refine ⟨front, l, hsplit, ?_⟩
  have hjoin : unlines (front ++ [l]) = t := by
    rw [← hsplit]
    exact List.intercalate_splitOn '\n'
  rw [← hjoin, unlines_append_cons, List.flatMap_nil, List.append_nil]

/-- A text ends in a carriage return exactly when its last line does. -/
theorem loneReturn_append_lines (front : List Text) (l : Text) :
    loneReturn (front.flatMap (· ++ ['\n']) ++ l) = loneReturn l := by
  rcases List.eq_nil_or_concat' front with rfl | ⟨front, m, rfl⟩
  · rfl
  · by_cases hl : l = []
    · simp [hl, loneReturn]
    · rw [loneReturn, List.getLast?_append_of_ne_nil _ hl, loneReturn]

end Text

/-- The range of a whole document ends with what counts of its last line. -/
theorem wholeRange_eq {source l : Text} {front : List Text} (h : Addressable (lines source))
    (hsplit : source.splitOn '\n' = front ++ [l]) :
    wholeRange source = .ok ⟨⟨0, 0⟩, ⟨front.length, (dropReturn l).length⟩⟩ := by
  have hlines : lines source = front.map dropReturn ++ [dropReturn l] := by
    rw [lines, hsplit, List.map_append, List.map_singleton]
  have hmax : Fault.maxCoordinate = 2147483647 := rfl
  have hcount := h.lines
  have hlast := h.columns (dropReturn l) (by simp [hlines])
  have hstop : (((lines source).length : Int) - 1) = (front.length : Nat) := by
    simp [hlines]
  rw [hlines, List.length_append, List.length_map, List.length_singleton] at hcount
  have hwidth : ((lines source).getLast?.getD []).length = (dropReturn l).length := by
    simp [hlines]
  have hmake : Position.make? (front.length : Nat) ((dropReturn l).length : Nat) =
      .ok ⟨front.length, (dropReturn l).length⟩ := Position.make?_eq (by omega) (by omega)
  simp only [wholeRange, Range.make?, hstop, hwidth, hmake]
  rfl

/-- **Replacing a whole document leaves nothing of it but a carriage return at its very end.**  There is
one edit; the text after it is the new text and that carriage return, so it is the new text exactly when
the document does not end in one. -/
theorem replaceWhole_apply_eq_iff {source : Text} (h : Addressable (lines source)) (formatted : Text) :
    ∃ e, replaceWhole source formatted = .ok [e] ∧ e.apply source = formatted ++ loneReturn source ∧
      (e.apply source = formatted ↔ source.getLast? ≠ some '\r') := by
  obtain ⟨front, l, hsplit, hsource⟩ := exists_splitOn_eq_concat source
  have hreturn : loneReturn source = loneReturn l := by
    rw [hsource, loneReturn_append_lines]
  have hoffset : (⟨front.length, (dropReturn l).length⟩ : Position).offset source =
      (front.flatMap (· ++ ['\n'])).length + (dropReturn l).length := by
    simp only [Position.offset, hsplit, List.take_left]
  have hrest : source.drop ((⟨front.length, (dropReturn l).length⟩ : Position).offset source) =
      loneReturn source := by
    rw [hoffset, hreturn]
    conv_lhs => rw [hsource]
    rw [List.drop_length_add_append, drop_dropReturn]
  have happly : Edit.apply ⟨⟨⟨0, 0⟩, ⟨front.length, (dropReturn l).length⟩⟩, formatted⟩ source =
      formatted ++ loneReturn source := by
    show formatted ++ source.drop _ = _
    rw [hrest]
  refine ⟨_, ?_, happly, ?_⟩
  · rw [replaceWhole, wholeRange_eq h hsplit]
    rfl
  · rw [happly, ← loneReturn_eq_nil_iff]
    exact List.append_right_eq_self

/-- A document whose last line ends in a carriage return and no line feed. -/
def returnEnded : Text := "#### Module 0-99 ####\r\na 1 \x7b\r\n\x7d\r".toList

/-- The edit that formats the document above leaves its last carriage return behind. -/
theorem replaceWhole_returnEnded :
    Addressable (lines returnEnded) ∧
    ∃ formatted e, format returnEnded = .ok formatted ∧ replaceWhole returnEnded formatted = .ok [e] ∧
      e.range = ⟨⟨0, 0⟩, ⟨2, 1⟩⟩ ∧ e.apply returnEnded = formatted ++ ['\r'] ∧
      e.apply returnEnded ≠ formatted := by
  have h : Addressable (lines returnEnded) := ⟨by decide, by decide⟩
  obtain ⟨e, he, happly, hiff⟩ := replaceWhole_apply_eq_iff h
    "#### Module 0-99 ####\n\na 1 \x7b\n\x7d\n".toList
  refine ⟨h, _, e, by decide +kernel, he, ?_, happly, fun heq => hiff.mp heq (by decide)⟩
  cases he
  rfl

end Sproto
