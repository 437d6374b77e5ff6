import Sproto.Line.Token
import Sproto.Validation.Field
import Sproto.Validation.Punctuation

/-! # Validation

One pass over the tokens of a document, with a state that says whether the pass is inside a block and
which numbers are taken.  A block runs from a block start outside any block to the next closing brace
that stands alone; braces are not counted.  The pass never stops early: everything that is wrong
becomes a finding, in the order of the lines.

`State.step` gives the next state and the findings of one line, `State.run` those of a list of lines,
and `validate` the report on a document. -/
namespace Sproto

open Text

namespace Validation

/-- Where the pass is. -/
inductive Context where
  /-- Outside any block. -/
  | top
  /-- Inside a block of the given kind; `fields` are the numbers taken in it, in order. -/
  | block (kind : BlockKind) (fields : List Entry)
  deriving DecidableEq, Repr

/-- What the pass remembers. -/
structure State where
  context : Context
  /-- The label of the last module header, if there was one. -/
  label : Option Text
  /-- The protocol numbers taken so far, in order. -/
  protocols : List Entry
  /-- The labels seen so far, in order, each with the protocols filed under it. -/
  modules : List (Text × List Entry)
  deriving DecidableEq, Repr

/-- Outside any block, with no number taken. -/
def State.initial : State := ⟨.top, none, [], []⟩

/-- The entry that has taken a number. -/
def taken? (entries : List Entry) (number : Nat) : Option Entry :=
  entries.find? (·.number == number)

theorem taken?_eq_none_iff_not_mem {es : List Entry} {n : Nat} :
    taken? es n = none ↔ n ∉ es.map Entry.number := by
  simp [taken?]

/-- What is free with one entry more. -/
theorem taken?_concat_eq_none_iff {es : List Entry} {e : Entry} {n : Nat} :
    taken? (es ++ [e]) n = none ↔ taken? es n = none ∧ e.number ≠ n := by
  simp [taken?, List.find?_append]

/-- The findings on a line's punctuation. -/
def punctuationFindings (t : Token) : List Finding :=
  (Punctuation.marks t.text).map fun (column, mark, replacement) =>
    ⟨t.index, column, column + 1, .punctuation mark replacement⟩

namespace State

/-- Makes a label the current one; a label that is new gets an empty group. -/
def enterModule (s : State) (label : Text) : State :=
  { s with
    label := some label
    modules := if s.modules.any (·.1 == label) then s.modules else s.modules ++ [(label, [])] }

/-- Takes a protocol number, and files the entry under the current label. -/
def register (s : State) (e : Entry) : State :=
  { s with
    protocols := s.protocols ++ [e]
    modules :=
      match s.label with
      | none => s.modules
      | some label =>
          s.modules.map fun (l, es) => if l = label then (l, es ++ [e]) else (l, es) }

/-- Checks the declaration of a protocol.  Its findings run from the end of the name to the opening
brace. -/
def declare (s : State) (t : Token) (name : Text) (number : Option Numeral) :
    State × List Finding :=
  match number with
  | none => (s, [])
  | some numeral =>
      let dotted :=
        if name.head? = some '.' then
          [(⟨t.index, name.length, t.matchEnd, .numberedType name⟩ : Finding)]
        else []
      match taken? s.protocols numeral.value with
      | some first =>
          (s, dotted ++
            [⟨t.index, name.length, t.matchEnd, .repeatedProtocol numeral.value first⟩])
      | none => (s.register ⟨name, numeral.value, t.index⟩, dotted)

end State

/-- Checks a line inside a block.  A field whose number is free takes it; a finding on a number runs
from the end of the name to the colon. -/
def checkField (kind : BlockKind) (fields : List Entry) (t : Token) : List Entry × List Finding :=
  if isSkipped t.shape t.text then (fields, [])
  else
    match t.shape with
    | .field name number body =>
        if startsType (fieldContent body) then
          match taken? fields number.value with
          | some first =>
              let start := t.text.length - (trimLeft t.text).length + name.length
              (fields, [⟨t.index, start, t.text.length - body.length,
                .repeatedField number.value kind first⟩])
          | none => (fields ++ [⟨name, number.value, t.index⟩], [])
        else (fields, [faultOf t])
    | _ => (fields, [faultOf t])
where
  /-- The finding on a line that is no field. -/
  faultOf (t : Token) : Finding :=
    let (start, problem) := fieldProblem t.text
    ⟨t.index, start, t.text.length, problem⟩

namespace State

/-- The pass over one line. -/
def step (s : State) (t : Token) : State × List Finding :=
  match s.context with
  | .block kind fields =>
      if t.shape = .closeBrace then ({ s with context := .top }, [])
      else
        let (fields', found) := checkField kind fields t
        ({ s with context := .block kind fields' }, punctuationFindings t ++ found)
  | .top =>
      match Banner.label? t.text with
      | some label => (s.enterModule label, [])
      | none =>
          match t.shape with
          | .protocol name number _ =>
              let (s', found) := s.declare t name number
              (s', punctuationFindings t ++ found)
          | .block kind false _ =>
              ({ s with context := .block kind [] }, punctuationFindings t)
          | _ => (s, punctuationFindings t)

/-- The pass over a list of lines. -/
def run : State → List Token → State × List Finding
  | s, [] => (s, [])
  | s, t :: ts =>
      let (s', found) := s.step t
      let (s'', rest) := run s' ts
      (s'', found ++ rest)

@[simp] theorem run_nil (s : State) : s.run [] = (s, []) := rfl

theorem run_cons (s : State) (t : Token) (ts : List Token) :
    s.run (t :: ts) =
      (((s.step t).1.run ts).1, (s.step t).2 ++ ((s.step t).1.run ts).2) := rfl

/-- **A pass over two lists is the pass over the first and then over the second.** -/
theorem run_append (s : State) (ts us : List Token) :
    s.run (ts ++ us) =
      (((s.run ts).1.run us).1, (s.run ts).2 ++ ((s.run ts).1.run us).2) := by
  induction ts generalizing s with
  | nil => simp
  | cons t ts ih => simp [run_cons, ih]

end State
end Validation

/-- What validation says of a document. -/
structure Report where
  /-- Everything that is wrong, in the order of the lines. -/
  findings : List Finding
  /-- The protocol numbers, each with its first declaration, in order. -/
  protocols : List Entry
  /-- The module labels in order of appearance, each with the protocols filed under it. -/
  modules : List (Text × List Entry)
  deriving DecidableEq, Repr

namespace Report

/-- The findings as issues. -/
def issues (r : Report) : List Issue := r.findings.map Finding.issue

/-- How many findings have a severity. -/
def count (r : Report) (severity : Severity) : Nat :=
  r.findings.countP (·.problem.severity == severity)

/-- The report on the tokens of a document. -/
def ofTokens (ts : List Token) : Report :=
  let (s, findings) := Validation.State.initial.run ts
  ⟨findings, s.protocols, s.modules⟩

end Report

/-- Validates a document. -/
def validate (source : Text) : Except Fault Report :=
  (Token.ofSource? source).map Report.ofTokens

end Sproto
