import Sproto.Layout.Style
import Sproto.Line.Braces
import Sproto.Line.Token

/-! # Rows of a protocol

A protocol is laid out row by row.  A row knows what it is and how deep it stands, so its line is a
function of the row and the style alone. -/
namespace Sproto

open Text

/-- A line of a protocol. -/
inductive Row where
  /-- The declaration; `rest` is what follows its brace, trimmed. -/
  | header (name : Text) (number : Option Nat) (rest : Text)
  /-- A block with nothing in it. -/
  | emptyBlock (kind : BlockKind)
  /-- The start of a block; `rest` is what follows its brace. -/
  | block (kind : BlockKind) (rest : Text)
  /-- A field. -/
  | field (level : Int) (name : Text) (number : Nat) (content : Text)
  /-- Any other line, trimmed. -/
  | plain (level : Int) (text : Text)
  deriving DecidableEq, Repr

namespace Row

/-- The row of a closing brace in the first column. -/
def closing : Row := plain 0 ['}']

/-- Whether a row is a closing brace alone. -/
def isClosing : Row → Bool
  | plain _ text => text = ['}']
  | _ => false

/-- What follows the brace of a declaration: a closing brace at once, anything else after a blank. -/
def afterBrace : Text → Text
  | [] => []
  | c :: t => if c = '}' then c :: t else ' ' :: c :: t

/-- The line of a row. -/
def line (s : Style) : Row → Text
  | header name none rest => name ++ ' ' :: '{' :: afterBrace rest
  | header name (some n) rest => name ++ ' ' :: decimal n ++ ' ' :: '{' :: afterBrace rest
  | emptyBlock kind => s.margin 1 ++ kind.word ++ [' ', '{', '}']
  | block kind rest => s.margin 1 ++ kind.word ++ ' ' :: '{' :: squeeze rest
  | field level name number content => s.fieldLine level name (decimal number) content
  | plain level text => s.margin level ++ text

end Row

/-- A protocol that is being read: how many braces are open, and its rows so far. -/
structure Body where
  depth : Int
  rows : List Row
  deriving DecidableEq, Repr

namespace Body

/-- The body that a declaration opens. -/
def declare (t : Token) (name : Text) (number : Option Numeral) (rest : Text) : Body :=
  ⟨braceBalance t.text, [.header name (number.map Numeral.value) (trim rest)]⟩

/-- The body with an empty block more. -/
def addEmptyBlock (b : Body) (kind : BlockKind) : Body :=
  { b with rows := b.rows ++ [.emptyBlock kind] }

/-- The row of a line that is met at depth `before` and leaves the depth at `after`.  A field stands
at least two levels deep; a line that starts with a closing brace stands one level higher than the
depth it is met at. -/
def rowOf (t : Token) (before after : Int) : Row :=
  match t.shape with
  | .block kind _ rest => .block kind rest
  | .field name number body => .field (max after 2) name number.value (fieldContent body)
  | _ =>
      let text := trim t.text
      .plain (max (if text.head? = some '}' then before - 1 else before) 0) text

/-- The body with a line more. -/
def add (b : Body) (t : Token) : Body :=
  let after := b.depth + braceBalance t.text
  ⟨after, b.rows ++ [rowOf t b.depth after]⟩

/-- The rows of a body that is cut off: the last one is a closing brace. -/
def cutOff (b : Body) : List Row :=
  if b.rows.getLast?.any Row.isClosing then b.rows else b.rows ++ [.closing]

end Body
end Sproto
