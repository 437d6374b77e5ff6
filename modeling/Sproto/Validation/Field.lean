import Sproto.Validation.Problem

/-! # Field lines

Inside a block every line that carries anything should be a field, `name number: type`.  This module
says which lines are, and which part is missing from one that is not. -/
namespace Sproto

open Text

/-- Whether a text begins with a word. -/
def startsWord (t : Text) : Bool := t.head?.any isWord

/-- Whether a field's content begins with a type: a name, an array of a named type, or something in
parentheses. -/
def startsType : Text → Bool
  | [] => false
  | c :: t =>
      if c = '(' then t.contains ')'
      else if c = '*' then startsWord (trimLeft t)
      else isWord c

/-- Whether some colon of a text is followed by a word. -/
def hasTypeAfterColon : Text → Bool
  | [] => false
  | c :: t => (c == ':' && startsWord (trimLeft t)) || hasTypeAfterColon t

/-- The column at which a colon is missing: behind a name and a number that nothing but white space,
or white space and a word, follows. -/
def missingColon? (line : Text) : Option Nat := do
  let (_, _, r) ← Shape.nameAndNumber? line
  if isBlank r || (readGap? r).any startsWord then some (line.length - r.length) else none

/-- The column at which a number is missing: behind a word that stands alone. -/
def missingNumber? (line : Text) : Option Nat := do
  let (_, r) ← readWord? (trimLeft line)
  if isBlank r then some (line.length - r.length) else none

/-- What is wrong with a line that is no field, and from which column on. -/
def fieldProblem (line : Text) : Nat × Problem :=
  if line.contains ':' && !hasTypeAfterColon line then
    ((line.takeWhile (· != ':')).length, .missingType)
  else
    match missingColon? line with
    | some start => (start, .missingColon)
    | none =>
        match missingNumber? line with
        | some start => (start, .missingNumberAndType)
        | none => (0, .malformedField)

/-- Whether a line inside a block carries nothing to check. -/
def isSkipped (shape : Shape) (line : Text) : Bool :=
  match shape with
  | .blank | .banner | .comment | .closeBrace | .openBrace | .block _ _ _ => true
  | _ => trim line = BlockKind.request.word || trim line = BlockKind.response.word

end Sproto
