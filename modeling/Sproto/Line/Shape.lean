import Sproto.Banner

/-! # Shapes of lines

Every line of a schema has exactly one shape, decided by the line alone.  The order in which the
shapes are tried settles which one a line has: `request {` in the first column opens a block although
it also reads as a protocol of that name.

A protocol is declared in the first column only; an indented declaration has the shape `other`. -/
namespace Sproto

open Text

/-- The two kinds of block that a protocol may have. -/
inductive BlockKind where
  | request
  | response
  deriving DecidableEq, Repr

namespace BlockKind

/-- The word that opens a block. -/
def word : BlockKind → Text
  | request => "request".toList
  | response => "response".toList

/-- Reads the word that opens a block. -/
def read? (t : Text) : Option (BlockKind × Text) :=
  match request.word.isPrefixOf? t with
  | some r => some (request, r)
  | none => (response.word.isPrefixOf? t).map fun r => (response, r)

end BlockKind

/-- What a line is, with the parts it is made of. -/
inductive Shape where
  /-- White space only. -/
  | blank
  /-- A module banner. -/
  | banner
  /-- A comment that takes the whole line. -/
  | comment
  /-- A closing brace alone. -/
  | closeBrace
  /-- An opening brace alone. -/
  | openBrace
  /-- The start of a block, closed at once when `closed` holds; `rest` follows the last brace read. -/
  | block (kind : BlockKind) (closed : Bool) (rest : Text)
  /-- The declaration of a protocol; `rest` follows its opening brace. -/
  | protocol (name : Text) (number : Option Numeral) (rest : Text)
  /-- A field; `body` is all that follows its colon. -/
  | field (name : Text) (number : Numeral) (body : Text)
  /-- Anything else. -/
  | other
  deriving DecidableEq, Repr

namespace Shape

/-- Reads the start of a block: the kind's word and an opening brace, and a closing one if only white
space stands before it. -/
def block? (t : Text) : Option Shape := do
  let (kind, r) ← BlockKind.read? (trimLeft t)
  let r ← readChar? '{' (trimLeft r)
  match readChar? '}' (trimLeft r) with
  | some r => return block kind true r
  | none => return block kind false r

/-- Reads a protocol's name in the first column: a word, with a full stop before it for a type. -/
def protocolName? (t : Text) : Option (Text × Text) :=
  match readChar? '.' t with
  | some r => (readWord? r).map fun (name, r) => ('.' :: name, r)
  | none => readWord? t

/-- Reads the declaration of a protocol: a name, a number or none, and an opening brace. -/
def protocol? (t : Text) : Option Shape := do
  let (name, r) ← protocolName? t
  match readChar? '{' (trimLeft r) with
  | some r => return protocol name none r
  | none =>
      let r ← readGap? r
      let (number, r) ← Numeral.read? r
      let r ← readChar? '{' (trimLeft r)
      return protocol name (some number) r

/-- Reads what a field begins with: a word, white space and a number, at any indentation. -/
def nameAndNumber? (t : Text) : Option (Text × Numeral × Text) := do
  let (name, r) ← readWord? (trimLeft t)
  let r ← readGap? r
  let (number, r) ← Numeral.read? r
  return (name, number, r)

/-- Reads a field: a name, a number and a colon. -/
def field? (t : Text) : Option Shape := do
  let (name, number, r) ← nameAndNumber? t
  let r ← readChar? ':' (trimLeft r)
  return field name number r

/-- The shape of a line. -/
def read (t : Text) : Shape :=
  let s := trim t
  if s = [] then blank
  else if Banner.isBanner s then banner
  else if s.head? = some '#' then comment
  else if s = ['}'] then closeBrace
  else if s = ['{'] then openBrace
  else (block? t <|> protocol? t <|> field? t).getD other

/-- The number that a shape holds, as it is spelled. -/
def numeral? : Shape → Option Numeral
  | protocol _ number _ => number
  | field _ number _ => some number
  | _ => none

end Shape

/-! ## What follows a field's colon -/

/-- The content of a field: what follows its colon and the white space after it, to the end of the
line. -/
def fieldContent (body : Text) : Text := (trimLeft body).takeWhile (· != '\n')

/-- What follows a field's content. -/
def fieldRest (body : Text) : Text := (trimLeft body).dropWhile (· != '\n')

end Sproto
