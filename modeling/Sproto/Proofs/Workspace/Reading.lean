import Sproto.Proofs.Text.Lines
import Sproto.Proofs.Text.Utf8
import Sproto.Session.Basic

/-! # Files on disk and documents in the editor

A file is read from its octets, and its line ends are made line feeds before it is cut into lines; a
document of the editor is cut at its line feeds, and a carriage return that ends a line is dropped.  Where
every carriage return stands before a line feed both give the same lines (`lines_normalizeLineEnds`), so a
file and a document with one text have the same diagnostics (`checkFile_eq_published`). -/
namespace Sproto

open Text

/-- Whether every carriage return of a text stands right before a line feed. -/
def ReturnsPaired (t : Text) : Prop := ∀ i, t[i]? = some '\r' → t[i + 1]? = some '\n'

instance (t : Text) : Decidable (ReturnsPaired t) :=
  decidable_of_iff (∀ i < t.length, t[i]? = some '\r' → t[i + 1]? = some '\n')
    ⟨fun h i hi => h i (List.getElem?_eq_some_iff.mp hi).1 hi, fun h i _ => h i⟩

theorem ReturnsPaired.tail {c : Char} {t : Text} (h : ReturnsPaired (c :: t)) : ReturnsPaired t :=
  fun i => h (i + 1)

/-- **Line ends that are a carriage return and a line feed may be made line feeds** without changing a
line. -/
theorem lines_normalizeLineEnds {t : Text} (h : ReturnsPaired t) :
    lines (Disk.readText?.normalizeLineEnds t) = lines t := by
  fun_induction Disk.readText?.normalizeLineEnds t with
  | case1 => rfl
  | case2 t ih => rw [lines_lineFeed, lines_return_lineFeed, ih h.tail.tail]
  | case3 t hne ih =>
    have hhead : t[0]? = some '\n' := h 0 rfl
    rcases t with _ | ⟨c, t⟩
    · cases hhead
    · exact absurd (congrArg (· :: t) (Option.some.inj hhead)) (hne t)
  | case4 c t hne hr ih =>
    by_cases hn : c = '\n'
    · rw [hn, lines_lineFeed, lines_lineFeed, ih h.tail]
    · rw [lines_cons hn hr, lines_cons hn hr, ih h.tail]

theorem validate_normalizeLineEnds {t : Text} (h : ReturnsPaired t) :
    validate (Disk.readText?.normalizeLineEnds t) = validate t := by
  rw [validate, validate, Token.ofSource?, Token.ofSource?, lines_normalizeLineEnds h]

/-- **A file and a document with one text have the same diagnostics**: what is found in a file that holds
the octets of a text is what is published for an open document with that text, whenever it is validated while
validation is on. -/
theorem checkFile_eq_published {t : Text} (hpaired : ReturnsPaired t)
    (hvalid : ∃ r, validate t = .ok r) (d : Disk) (p : Path)
    (hfile : (d.locate? p).bind d.get? = some (.file (Utf8.encode t))) (s : Session) (uri : String)
    (hopen : s.document? uri = .ok t) (hon : s.enabled = true) :
    ∃ ds, Workspace.checkFile d p = .ok (some ds) ∧
      (s.step (.validate uri)).published = [(uri, ds)] ∧
      (s.step (.touched uri)).published = [(uri, ds)] := by
  obtain ⟨r, hr⟩ := hvalid
  have hsource : Diagnostic.ofSource t = .ok (r.issues.map Diagnostic.ofIssue) := by
    rw [Diagnostic.ofSource, hr]
    rfl
  have hverdict : s.verdict uri = r.issues.map Diagnostic.ofIssue := by
    have hread : s.document? uri >>= Diagnostic.ofSource = .ok (r.issues.map Diagnostic.ofIssue) := by
      rw [hopen, ← hsource]
      rfl
    rw [Session.verdict, if_pos hon, Session.diagnose, hread]
  have hread : d.readText? p = some (Disk.readText?.normalizeLineEnds t) := by
    rw [Disk.readText?, hfile]
    simp only [Utf8.decode?_encode, Option.map_some]
  have hcheck : Workspace.checkFile d p = .ok (some (r.issues.map Diagnostic.ofIssue)) := by
    rw [Workspace.checkFile, hread]
    simp only [Diagnostic.ofSource, validate_normalizeLineEnds hpaired, hr]
    rfl
  have hpublished : [(uri, s.verdict uri)] = [(uri, r.issues.map Diagnostic.ofIssue)] := by
    rw [hverdict]
  exact ⟨_, hcheck, hpublished, hpublished⟩

/-- A text with both kinds of line end, a number used twice and a mark beyond ASCII. -/
def mixedEnds : Text := "a 1 \x7b\r\n\x7d\nb 1 \x7b # ：\r\n\x7d\r\n".toList

/-- A disk with one file, which holds the text above. -/
def mixedEndsDisk : Disk := (Disk.empty []).put ["x".toList] (.file (Utf8.encode mixedEnds))

/-- A session with one document, which is the text above. -/
def mixedEndsSession : Session :=
  .start ((Store.absent "no such document").set "u" (.ok mixedEnds)) mixedEndsDisk (some [])

/-- The text above has two diagnostics, in the file and in the editor. -/
theorem checkFile_eq_published_mixedEnds :
    ReturnsPaired mixedEnds ∧ ∃ ds, ds.length = 2 ∧
      Workspace.checkFile mixedEndsDisk ⟨.root, ["x".toList]⟩ = .ok (some ds) ∧
      (mixedEndsSession.step (.validate "u")).published = [("u", ds)] := by
  have hpaired : ReturnsPaired mixedEnds := by decide +kernel
  have hvalid : ∃ r, validate mixedEnds = .ok r := by
    have hok : (validate mixedEnds).isOk = true := by decide +kernel
    rcases hr : validate mixedEnds with f | r
    · rw [hr] at hok
      cases hok
    · exact ⟨r, rfl⟩
  obtain ⟨ds, hfile, hpublished, -⟩ := checkFile_eq_published hpaired hvalid mixedEndsDisk
    ⟨.root, ["x".toList]⟩ (by decide +kernel) mixedEndsSession "u" rfl rfl
  refine ⟨hpaired, ds, ?_, hfile, hpublished⟩
  have hlength : ((mixedEndsSession.step (.validate "u")).published.map fun e => e.2.length) = [2] := by
    decide +kernel
  rw [hpublished] at hlength
  exact List.singleton_inj.mp hlength

end Sproto
