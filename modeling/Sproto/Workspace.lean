import Sproto.Disk.Basic
import Sproto.Editor.Diagnostic
import Sproto.Uri.File

/-! # Workspaces

Validation of all schema files below a root.  A file that cannot be checked is left out, and the
others are not affected; a file that cannot be read has no diagnostics. -/
namespace Sproto.Workspace

open Text

/-- The diagnostics of a file on disk. -/
def checkFile (d : Disk) (p : Path) : Except Fault (Option (List Diagnostic)) :=
  match d.readText? p with
  | none => .ok (some [])
  | some source => (Diagnostic.ofSource source).map some

/-- The entry of a path: its URI and what the check gives, where no answer is no diagnostics.  There
is none for a path that has no URI or whose check fails. -/
def report? (check : Path → Except Fault (Option (List Diagnostic))) (p : Path) :
    Option (String × List Diagnostic) :=
  match FileUri.ofPath? p, check p with
  | some uri, .ok ds => some (String.ofList uri, ds.getD [])
  | _, _ => none

/-- The entries of all schema files below a root, in order. -/
def survey (d : Disk) (root : Path) (check : Path → Except Fault (Option (List Diagnostic))) :
    List (String × List Diagnostic) :=
  (d.schemaPaths root).filterMap (report? check)

/-- The root that a client names: a path or a file URI; `none` for what names nothing. -/
def rootPath? (root : Json) : Except Fault (Option Path) :=
  match root with
  | .str s => if s = "" then .ok none else (FileUri.pathOfText s.toList).map some
  | _ => .ok none

end Sproto.Workspace
