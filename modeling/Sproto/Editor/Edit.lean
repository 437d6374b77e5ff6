import Sproto.Editor.Position
import Sproto.Text.Lines

/-! # Edits

An edit replaces a range of a document by a text.  Formatting answers with one edit that covers the
whole document. -/
namespace Sproto

open Text

/-- The replacement of a range by a text. -/
structure Edit where
  range : Range
  newText : Text
  deriving DecidableEq, Repr

/-- How many characters of a text stand before a position; lines end at line feeds alone. -/
def Position.offset (p : Position) (t : Text) : Nat :=
  (((t.splitOn '\n').take p.line).flatMap (· ++ ['\n'])).length + p.character

namespace Edit

/-- The text after an edit. -/
def apply (e : Edit) (t : Text) : Text :=
  t.take (e.range.start.offset t) ++ e.newText ++ t.drop (e.range.stop.offset t)

end Edit

/-- The range from the start of a document to the end of its last line. -/
def wholeRange (source : Text) : Except Fault Range :=
  let ls := lines source
  Range.make? 0 0 (ls.length - 1) (ls.getLast?.getD []).length

/-- The edits that replace a document by its formatted text. -/
def replaceWhole (source formatted : Text) : Except Fault (List Edit) := do
  let range ← wholeRange source
  return [⟨range, formatted⟩]

end Sproto
