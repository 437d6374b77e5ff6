import Sproto.Editor.Diagnostic
import Sproto.Editor.Edit

/-! # Quick fixes

Three problems can be mended mechanically: a full-width mark is replaced, the number of a type is
taken out, and a missing colon is put in.  The fix is chosen by the diagnostic's code and made from
what the client sends back, so it holds for diagnostics that were changed on the way too. -/
namespace Sproto

/-- A fix for one diagnostic of a document. -/
structure QuickFix where
  title : String
  diagnostic : Diagnostic
  uri : String
  edit : Edit
  deriving Repr

namespace QuickFix

/-- The replacement of a mark: what the diagnostic's data says if it says anything, else what the
table has for the mark that the message quotes. -/
def replacement? (d : Diagnostic) : Except Fault (Option Text) :=
  match attached with
  | some (.str s) => .ok (some s.toList)
  | some _ => .error .notText
  | none => .ok ((Punctuation.quotedIn? d.message.toList).bind Punctuation.replacement?)
where
  /-- The replacement in the diagnostic's data, if there is one. -/
  attached : Option Json :=
    match d.data with
    | .obj entries => (Json.lookup? "replacement" entries).filter Json.isTruthy
    | _ => none

/-- The fix for a diagnostic, if it has one. -/
def ofDiagnostic (uri : String) (d : Diagnostic) : Except Fault (Option QuickFix) :=
  match d.code with
  | some (.name "chinese-punctuation") =>
      match replacement? d with
      | .error f => .error f
      | .ok none => .ok none
      | .ok (some text) =>
          .ok (some ⟨"Replace with \x27" ++ String.ofList text ++ "\x27", d, uri, ⟨d.range, text⟩⟩)
  | some (.name "dotted-protocol-number") =>
      .ok (some ⟨"Remove protocol number", d, uri, ⟨d.range, [' ', '{']⟩⟩)
  | some (.name "missing-colon") =>
      .ok (some ⟨"Insert \x27:\x27", d, uri, ⟨⟨d.range.start, d.range.start⟩, [':']⟩⟩)
  | _ => .ok none

/-- The fixes for a list of diagnostics, in order; `none` when there are none. -/
def ofDiagnostics (uri : String) (ds : List Diagnostic) : Except Fault (Option (List QuickFix)) := do
  let fixes ← ds.mapM (ofDiagnostic uri)
  match fixes.filterMap id with
  | [] => return none
  | fs => return some fs

/-- The fixes for a document's own diagnostics. -/
def ofSource (uri : String) (source : Text) : Except Fault (Option (List QuickFix)) := do
  let ds ← Diagnostic.ofSource source
  ofDiagnostics uri ds

end QuickFix
end Sproto
