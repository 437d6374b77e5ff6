import Sproto.Editor.QuickFix
import Sproto.Layout.Format
import Sproto.Outline.Symbol
import Sproto.Session.Name
import Sproto.Session.Settings
import Sproto.Workspace

/-! # Sessions

A session serves an editor.  It knows the client's documents, which of them are tracked, and whether
validation is on.  Each request is answered by one step, which gives the session after it, the
diagnostics published on the way, and a reply or a fault.  A request that fails leaves the session
usable.

Publishing replaces what was published for a document before.  A document is tracked from the first
time it is validated until it is closed; switching validation off clears what is published for the
tracked documents, and switching it on validates them again.  A name that is no text is tracked too,
but nothing can be published for it: a switch goes through the tracked names one by one, and it ends at
the first such name. -/
namespace Sproto

/-- The client's store of documents: the text that it has under a name, or why it has none. -/
abbrev Store := Json → Except String Text

namespace Store

/-- The store that has no text at all, for one reason. -/
def absent (reason : String) : Store := fun _ => .error reason

/-- The store with another answer for a URI. -/
def set (store : Store) (uri : String) (answer : Except String Text) : Store
  | .str name => if name = uri then answer else store (.str name)
  | name => store name

end Store

/-- The state of a session. -/
structure Session where
  documents : Store
  disk : Disk
  folders : Folders
  /-- Whether validation is on. -/
  enabled : Bool
  /-- The tracked documents, in order and without repetition. -/
  tracked : List String
  /-- The tracked names that are no texts, in the order of the numbers they count as. -/
  numbers : List NumberName

/-- The diagnostics published for a document. -/
abbrev Publication := String × List Diagnostic

/-- What a command answers. -/
inductive CommandReply where
  /-- The command could not be carried out. -/
  | refused (reason : String)
  /-- A document was validated. -/
  | validated (uri : String) (total : Nat)
  /-- A document's formatted text, and whether it differs. -/
  | formatted (text : Text) (changed : Bool)
  /-- A workspace was validated. -/
  | surveyed (files withDiagnostics total : Nat)
  deriving DecidableEq, Repr

/-- What a request is answered with. -/
inductive Reply where
  | done
  | diagnostics (ds : List Diagnostic)
  | edits (es : Option (List Edit))
  | symbols (ss : List Symbol)
  | fixes (fs : Option (List QuickFix))
  | command (r : CommandReply)

/-- The commands that a client may run. -/
inductive Command where
  | validateDocument
  | formatDocument
  | validateWorkspace
  deriving DecidableEq, Repr

/-- What a client asks for. -/
inductive Request where
  /-- A document was opened, changed or saved. -/
  | touched (uri : String)
  /-- A document was closed. -/
  | closed (uri : String)
  /-- A document is to be validated. -/
  | validate (uri : String)
  /-- The edits that format a document. -/
  | format (uri : String)
  /-- The symbols of a document. -/
  | symbols (uri : String)
  /-- Fixes for diagnostics of a document. -/
  | fixes (uri : String) (ds : List Diagnostic)
  /-- The settings changed; there may be none in the message.  If that switches validation, the tracked
  names are gone through in the order of the walk. -/
  | configure (settings : Option Json) (walk : Walk)
  /-- A command, with its arguments. -/
  | command (c : Command) (args : List Json)

/-- What happens in a session: a document may get a new text or go away, and then a request is
served. -/
structure Event where
  /-- The URI for which the store of documents has another answer from now on, and that answer. -/
  change : Option (String × Except String Text)
  request : Request

/-- What a step leads to. -/
structure Outcome where
  session : Session
  published : List Publication
  reply : Except Fault Reply

namespace Session

/-- A session with validation on and nothing tracked. -/
def start (documents : Store) (disk : Disk) (folders : Folders) : Session :=
  ⟨documents, disk, folders, true, [], []⟩

/-! ## Documents -/

/-- The session with another answer of the store for a document. -/
def setDocument (s : Session) (uri : String) (answer : Except String Text) : Session :=
  { s with documents := s.documents.set uri answer }

/-- The text of the document that a command names. -/
def namedDocument? (s : Session) (name : Json) : Except Fault Text :=
  (s.documents name).mapError .unavailable

/-- The text of a document. -/
def document? (s : Session) (uri : String) : Except Fault Text := s.namedDocument? (.str uri)

/-- The diagnostics of a document.  One that cannot be read or validated has a general remark that
says why. -/
def diagnose (s : Session) (uri : String) : List Diagnostic :=
  match s.document? uri >>= Diagnostic.ofSource with
  | .ok ds => ds
  | .error f => [.general ("Internal error while validating: " ++ f.message)]

/-- The session with a document tracked. -/
def track (s : Session) (uri : String) : Session :=
  if s.tracked.contains uri then s
  else { s with tracked := Order.insert (fun a b => decide (a < b)) uri s.tracked }

/-- The session with a name that is no text tracked. -/
def trackNumber (s : Session) (n : NumberName) : Session :=
  if s.numbers.any (·.value = n.value) then s
  else { s with numbers := Order.insert (fun a b => decide (a.value < b.value)) n s.numbers }

/-- The session with a document no longer tracked. -/
def untrack (s : Session) (uri : String) : Session :=
  { s with tracked := s.tracked.filter (· ≠ uri) }

/-- All tracked names. -/
def names (s : Session) : List Name := s.tracked.map .text ++ s.numbers.map .number

/-! ## Steps -/

/-- The diagnostics to publish for a document that is validated: none while validation is off. -/
def verdict (s : Session) (uri : String) : List Diagnostic :=
  if s.enabled then s.diagnose uri else []

/-- What is published when the settings change: the tracked documents' diagnostics when validation
goes on, empty lists when it goes off.  The tracked names are gone through in the order of the walk, up to
the first for which nothing can be published. -/
def republished (s : Session) (walk : Walk) (enabled : Bool) : List Publication :=
  let reached := Name.leadingTexts (walk.order s.names)
  match s.enabled, enabled with
  | false, true => reached.map fun uri => (uri, s.diagnose uri)
  | true, false => reached.map fun uri => (uri, [])
  | _, _ => []

/-- The command that validates one document.  A name that is no text is tracked before it turns out
that nothing can be published for it. -/
def validateDocument (s : Session) (params : List (String × Json)) : Outcome :=
  let uri := param params "uri"
  if !uri.isTruthy then
    ⟨s, [], .ok (.command (.refused "Parameter \x27uri\x27 not provided"))⟩
  else if !s.enabled then ⟨s, [], .ok (.command (.refused "Validation is disabled"))⟩
  else
    match Name.ofJson? uri with
    | .error f => ⟨s, [], .error f⟩
    | .ok (.number n) => ⟨s.trackNumber n, [], .error .notText⟩
    | .ok (.text name) =>
        let ds := s.verdict name
        ⟨s.track name, [(name, ds)], .ok (.command (.validated name ds.length))⟩

/-- The command that formats one document. -/
def formatDocument (s : Session) (params : List (String × Json)) : CommandReply :=
  let uri := param params "uri"
  if !uri.isTruthy then .refused "Parameter \x27uri\x27 not provided"
  else
    match s.namedDocument? uri >>= fun source => (format source).map (source, ·) with
    | .error f => .refused f.message
    | .ok (source, text) => .formatted text (text ≠ source)

/-- The command that validates all schema files of the workspace, whether validation is on or off. -/
def validateWorkspace (s : Session) (params : List (String × Json)) : Outcome :=
  match Workspace.rootPath? (chosenRoot params s.folders) with
  | .error f => ⟨s, [], .error f⟩
  | .ok none => ⟨s, [], .ok (.command (.refused "Workspace root not provided"))⟩
  | .ok (some root) =>
      let entries := Workspace.survey s.disk root (Workspace.checkFile s.disk)
      ⟨s, entries, .ok (.command (.surveyed entries.length
        (entries.countP fun e => !e.2.isEmpty) (entries.flatMap (·.2)).length))⟩

/-- One step of a session. -/
def step (s : Session) : Request → Outcome
  | .touched uri => ⟨s.track uri, [(uri, s.verdict uri)], .ok .done⟩
  | .validate uri => ⟨s.track uri, [(uri, s.verdict uri)], .ok (.diagnostics (s.verdict uri))⟩
  | .closed uri => ⟨s.untrack uri, [(uri, [])], .ok .done⟩
  | .format uri =>
      let edits := do
        let source ← s.document? uri
        let text ← format source
        replaceWhole source text
      ⟨s, [], .ok (.edits edits.toOption)⟩
  | .symbols uri => ⟨s, [], Reply.symbols <$> (s.document? uri >>= Symbol.ofSource)⟩
  | .fixes uri ds => ⟨s, [], Reply.fixes <$> QuickFix.ofDiagnostics uri ds⟩
  | .configure none _ => ⟨s, [], .ok .done⟩
  | .configure (some settings) walk =>
      let enabled := Settings.validationEnabled settings
      ⟨{ s with enabled := enabled }, s.republished walk enabled, .ok .done⟩
  | .command .validateDocument args => s.validateDocument (namedArguments args)
  | .command .formatDocument args =>
      ⟨s, [], .ok (.command (s.formatDocument (namedArguments args)))⟩
  | .command .validateWorkspace args => s.validateWorkspace (namedArguments args)

/-- The session with a change made to its documents. -/
def change (s : Session) : Option (String × Except String Text) → Session
  | none => s
  | some (uri, answer) => s.setDocument uri answer

/-- The outcome of an event. -/
def serve (s : Session) (e : Event) : Outcome := (s.change e.change).step e.request

/-- The outcomes of a list of events, each one served by the session that the one before left. -/
def run (s : Session) : List Event → List Outcome
  | [] => []
  | e :: es => s.serve e :: run (s.serve e).session es

end Session
end Sproto
