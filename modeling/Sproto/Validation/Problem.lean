import Sproto.Json
import Sproto.Line.Shape

/-! # Problems

What validation can find wrong with a line.  A `Problem` is the cause with the facts it rests on; its
message, code, severity and attached data are read off it.  A `Finding` puts a problem into the
document, and an `Issue` is the flat record that is handed on to editors. -/
namespace Sproto

/-- How serious a remark is, in the order of the editor protocol. -/
inductive Severity where
  | error
  | warning
  | information
  | hint
  deriving DecidableEq, Repr

namespace Severity

/-- The name of a severity; a name that is none of these counts as an error. -/
def ofName : String → Severity
  | "warning" => warning
  | _ => error

/-- The name of a severity. -/
def name : Severity → String
  | error => "error"
  | warning => "warning"
  | information => "information"
  | hint => "hint"

/-- The number of a severity in the editor protocol. -/
def rank : Severity → Nat
  | error => 1
  | warning => 2
  | information => 3
  | hint => 4

/-- The severity with a given number. -/
def ofRank? : Nat → Option Severity
  | 1 => some error
  | 2 => some warning
  | 3 => some information
  | 4 => some hint
  | _ => none

end Severity

/-- A number that is taken: by which name, on which line. -/
structure Entry where
  name : Text
  number : Nat
  line : Nat
  deriving DecidableEq, Repr

/-- What can be wrong with a line. -/
inductive Problem where
  /-- A full-width mark where ASCII is meant. -/
  | punctuation (mark : Char) (replacement : Text)
  /-- A type, whose name starts with a full stop, has a number. -/
  | numberedType (name : Text)
  /-- A protocol's number is taken. -/
  | repeatedProtocol (number : Nat) (first : Entry)
  /-- A field's number is taken in its block. -/
  | repeatedField (number : Nat) (block : BlockKind) (first : Entry)
  /-- A field ends at its colon. -/
  | missingType
  /-- A field has no colon behind its number. -/
  | missingColon
  /-- A field is a name alone. -/
  | missingNumberAndType
  /-- A line of a block is no field at all. -/
  | malformedField
  deriving DecidableEq, Repr

namespace Problem

/-- The form that a field should have, as messages give it. -/
def fieldHint : String := " Expected format: \x27name number: type\x27"

/-- By whom and where a number is taken, as messages give it; lines are counted from one. -/
def takenBy (first : Entry) : String :=
  " Already used by \x27" ++ String.ofList first.name ++ "\x27 at line " ++ toString (first.line + 1)

/-- The message of a problem. -/
def message : Problem → String
  | punctuation mark replacement =>
      "Chinese punctuation \x27" ++ String.singleton mark ++ "\x27 detected. Use the ASCII \x27" ++
        String.ofList replacement ++ "\x27 instead"
  | numberedType name =>
      "Protocol \x27" ++ String.ofList name ++ "\x27 starts with \x27.\x27 and should not have numbers"
  | repeatedProtocol number first =>
      "Duplicate protocol number " ++ toString number ++ "." ++ takenBy first
  | repeatedField number block first =>
      "Duplicate field number " ++ toString number ++ " in " ++ String.ofList block.word ++
        " block." ++ takenBy first
  | missingType => "Field definition is missing a type." ++ fieldHint
  | missingColon => "Field definition is missing a colon." ++ fieldHint
  | missingNumberAndType => "Field definition is missing a number and a type." ++ fieldHint
  | malformedField => "Incorrect field definition format." ++ fieldHint

/-- The code of a problem, by which fixes are chosen. -/
def code : Problem → String
  | punctuation _ _ => "chinese-punctuation"
  | numberedType _ => "dotted-protocol-number"
  | repeatedProtocol _ _ => "duplicate-protocol"
  | repeatedField _ _ _ => "duplicate-field"
  | missingType => "missing-type"
  | missingColon => "missing-colon"
  | missingNumberAndType => "missing-number-and-type"
  | malformedField => "invalid-field"

/-- Punctuation is warned of; everything else is an error. -/
def severity : Problem → Severity
  | punctuation _ _ => .warning
  | _ => .error

/-- The data that a fix needs. -/
def data : Problem → Json
  | punctuation _ replacement => .obj [("replacement", .str (String.ofList replacement))]
  | _ => .null

end Problem

/-- A problem and where it is: on one line, from column `start` up to column `stop`. -/
structure Finding where
  line : Nat
  start : Nat
  stop : Nat
  problem : Problem
  deriving DecidableEq, Repr

/-- A remark on one line of a document.  Its coordinates may come from anywhere, so they need not lie
in the document. -/
structure Issue where
  line : Int
  start : Int
  stop : Int
  message : String
  severity : Severity
  code : Option String
  data : Json
  deriving Repr

/-- The issue of a finding. -/
def Finding.issue (f : Finding) : Issue :=
  ⟨f.line, f.start, f.stop, f.problem.message, f.problem.severity, some f.problem.code,
    f.problem.data⟩

end Sproto
