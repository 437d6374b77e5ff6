import Sproto.Editor.Position
import Sproto.Validation.Scan

/-! # Diagnostics

The remarks that are published to editors.  An issue becomes a diagnostic once its coordinates are
brought into order; one whose coordinates are beyond the protocol's range is replaced by a general
remark at the start of the document, so that no issue is lost silently. -/
namespace Sproto

/-- The code of a diagnostic: a name, or a number from another tool. -/
inductive Code where
  | name (s : String)
  | number (n : Int)
  deriving DecidableEq, Repr

/-- A remark on a part of a document. -/
structure Diagnostic where
  range : Range
  severity : Option Severity
  source : Option String
  message : String
  code : Option Code
  data : Json
  deriving Repr

/-- The range of an issue.  Negative coordinates count as zero, and an end before the start counts as
the start. -/
def Issue.range? (i : Issue) : Except Fault Range :=
  let line := max 0 i.line
  let start := max 0 i.start
  Range.make? line start line (max start i.stop)

/-- The diagnostic of an issue. -/
def Issue.diagnostic? (i : Issue) : Except Fault Diagnostic := do
  let range ← i.range?
  return ⟨range, some i.severity, some "sproto", i.message, i.code.map Code.name, i.data⟩

namespace Diagnostic

/-- A general error at the start of a document. -/
def general (message : String) : Diagnostic :=
  ⟨⟨⟨0, 0⟩, ⟨0, 1⟩⟩, some .error, some "sproto-lsp", message, none, .null⟩

/-- The diagnostic of an issue, or a general one that says why it has none. -/
def ofIssue (i : Issue) : Diagnostic :=
  match i.diagnostic? with
  | .ok d => d
  | .error f => general ("Error processing diagnostic: " ++ f.message)

/-- The diagnostics of a document. -/
def ofSource (source : Text) : Except Fault (List Diagnostic) :=
  (validate source).map fun r => r.issues.map ofIssue

end Diagnostic
end Sproto
