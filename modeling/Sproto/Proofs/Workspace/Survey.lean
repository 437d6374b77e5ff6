import Sproto.Proofs.Disk.Tree
import Sproto.Proofs.Text.Percent
import Sproto.Session.Basic

/-! # What a survey of a workspace lists

A survey of a tree of files lists every schema path below the root whose check does not fail, once, in the
order of the names, with what the check says of it (`Workspace.IsSurvey`).  What is listed for one path does
not depend on the others: their checks may fail, and the URIs differ since no two paths below a root are
written alike (`uriOf_inj`).  The command publishes such a survey, counts it, and leaves the session as it
was (`workspace_surveyed`). -/
namespace Sproto

open Text

namespace Workspace

/-- The URI under which an absolute path is listed. -/
def uriOf (p : Path) : String := String.ofList (FileUri.scheme ++ Percent.encode p.toText)

/-- What a check says of a path, where no answer is no diagnostics; `none` if it fails. -/
def verdict? (check : Path → Except Fault (Option (List Diagnostic))) (p : Path) :
    Option (List Diagnostic) :=
  (check p).toOption.map (·.getD [])

/-- **A survey**: one entry for each schema path below the root whose check does not fail, in the order of
the paths, and no other entry; under the URI of each path stands what its check says, whatever the check
says of other paths. -/
structure IsSurvey (d : Disk) (root : Path) (check : Path → Except Fault (Option (List Diagnostic)))
    (entries : List (String × List Diagnostic)) : Prop where
  listed : ∃ ps : List Path, ps.Pairwise (fun p q => p.parts < q.parts) ∧
    (∀ p, p ∈ ps ↔ d.LeadsDown root p ∧ Path.isSchemaName p.name = true ∧ ∃ r, check p = .ok r) ∧
    entries.map Prod.fst = ps.map uriOf
  distinct : (entries.map Prod.fst).Nodup
  isolated : ∀ p, d.LeadsDown root p → Path.isSchemaName p.name = true →
    entries.lookup (uriOf p) = verdict? check p

section

variable {d : Disk} {root p p' : Path} {check : Path → Except Fault (Option (List Diagnostic))}

theorem isSome_verdict?_iff : (verdict? check p).isSome = true ↔ ∃ r, check p = .ok r := by
  rw [verdict?, Option.isSome_map]
  rcases h : check p with f | r
  · exact ⟨fun h => (by cases h), fun ⟨r, h⟩ => by cases h⟩
  · exact ⟨fun _ => ⟨r, rfl⟩, fun _ => rfl⟩

/-- **The URIs of paths below a root tell them apart.** -/
theorem uriOf_inj (tree : d.IsTree) (absolute : root.isAbsolute = true) (hp : d.LeadsDown root p)
    (hp' : d.LeadsDown root p') (h : uriOf p = uriOf p') : p = p' := by
  obtain ⟨q, hq, rfl, hnames⟩ := hp.exists_names tree
  obtain ⟨q', hq', rfl, hnames'⟩ := hp'.exists_names tree
  have htext : (root.append q).toText = (root.append q').toText :=
    Percent.encode_injective (List.append_cancel_left (String.ofList_injective h))
  rw [Disk.toText_append_inj absolute hq hq' (fun n hn => (hnames n hn).2.1)
    (fun n hn => (hnames' n hn).2.1) htext]

theorem report?_eq (hp : p.isAbsolute = true) :
    report? check p = (verdict? check p).map fun ds => (uriOf p, ds) := by
  rw [report?, FileUri.ofPath?, if_pos hp, verdict?]
  rcases check p with f | r
  · rfl
  · rfl

/-- The paths that a survey lists. -/
def surveyed (d : Disk) (root : Path) (check : Path → Except Fault (Option (List Diagnostic))) :
    List Path :=
  (d.schemaPaths root).filter fun p => (verdict? check p).isSome

theorem mem_surveyed (tree : d.IsTree) :
    p ∈ surveyed d root check ↔
      d.LeadsDown root p ∧ Path.isSchemaName p.name = true ∧ ∃ r, check p = .ok r := by
  rw [surveyed, List.mem_filter, Disk.mem_schemaPaths tree, isSome_verdict?_iff, and_assoc]

theorem survey_eq (tree : d.IsTree) (absolute : root.isAbsolute = true) :
    survey d root check =
      (surveyed d root check).map fun p => (uriOf p, (verdict? check p).getD []) := by
  have hreport : ∀ p ∈ d.schemaPaths root,
      report? check p = (verdict? check p).map fun ds => (uriOf p, ds) := by
    intro p hp
    obtain ⟨⟨q, -, -, rfl, -⟩, -⟩ := (Disk.mem_schemaPaths tree).mp hp
    exact report?_eq absolute
  unfold survey surveyed
  generalize d.schemaPaths root = ps at hreport
  induction ps with
  | nil => rfl
  | cons p ps ih =>
    obtain ⟨hp, hps⟩ := List.forall_mem_cons.mp hreport
    rcases hv : verdict? check p with _ | ds
    · rw [List.filterMap_cons_none (by rw [hp, hv, Option.map_none]),
        List.filter_cons_of_neg (by simp [hv]), ih hps]
    · rw [List.filterMap_cons_some (by rw [hp, hv, Option.map_some]),
        List.filter_cons_of_pos (by simp [hv]), List.map_cons, ih hps, hv, Option.getD_some]

/-- Looking up the key of an element among keys that tell it apart. -/
theorem lookup_map_key {α β : Type} {key : α → String} {value : α → β} {xs : List α} {x : α}
    (hkey : ∀ y ∈ xs, key x = key y → x = y) (hx : x ∈ xs) :
    (xs.map fun y => (key y, value y)).lookup (key x) = some (value x) := by
  induction xs with
  | nil => exact absurd hx List.not_mem_nil
  | cons y ys ih =>
    obtain ⟨hy, hys⟩ := List.forall_mem_cons.mp hkey
    rw [List.map_cons, List.lookup_cons]
    by_cases he : key x = key y
    · rw [← hy he, beq_self_eq_true]
    · rw [beq_false_of_ne he]
      exact ih hys (List.mem_of_ne_of_mem (fun h => he (h ▸ rfl)) hx)

/-- **A survey of a tree of files is complete, in order, and isolates failures.** -/
theorem isSurvey_survey (tree : d.IsTree) (absolute : root.isAbsolute = true)
    (check : Path → Except Fault (Option (List Diagnostic))) :
    IsSurvey d root check (survey d root check) := by
  have hkeys : (survey d root check).map Prod.fst = (surveyed d root check).map uriOf := by
    rw [survey_eq tree absolute, List.map_map]
    rfl
  have hordered := (Disk.pairwise_schemaPaths tree root).filter fun p => (verdict? check p).isSome
  refine ⟨⟨surveyed d root check, hordered, fun p => mem_surveyed tree, hkeys⟩, ?_, ?_⟩
  · rw [hkeys]
    refine List.Nodup.map_on (fun p hp q hq h => ?_) (hordered.imp fun hlt he => ?_)
    · exact uriOf_inj tree absolute ((mem_surveyed tree).mp hp).1 ((mem_surveyed tree).mp hq).1 h
    · exact lt_irrefl _ (he ▸ hlt)
  · intro p hdown hname
    have hkey : ∀ q ∈ surveyed d root check, uriOf p = uriOf q → p = q := fun q hq h =>
      uriOf_inj tree absolute hdown ((mem_surveyed tree).mp hq).1 h
    rw [survey_eq tree absolute]
    by_cases hp : p ∈ surveyed d root check
    · rw [lookup_map_key hkey hp]
      obtain ⟨ds, hds⟩ := Option.isSome_iff_exists.mp (List.mem_filter.mp hp).2
      rw [hds, Option.getD_some]
    · have hnone : verdict? check p = none := by
        rw [← Option.not_isSome_iff_eq_none, isSome_verdict?_iff]
        exact fun hr => hp ((mem_surveyed tree).mpr ⟨hdown, hname, hr⟩)
      rw [hnone, List.lookup_eq_none_iff]
      intro e he
      obtain ⟨q, hq, rfl⟩ := List.mem_map.mp he
      rw [bne_iff_ne]
      exact fun h => hp (hkey q hq h ▸ hq)

end
end Workspace

/-- **Validating a workspace surveys it.**  On a tree of files and for any check, the entries of an absolute
root are a survey.  The command publishes the survey that checks each file by its text, each entry once and
in order, answers with the number of entries, of those that hold diagnostics and of all diagnostics, and
changes nothing in the session. -/
theorem workspace_surveyed {d : Disk} (tree : d.IsTree) (root : Path)
    (absolute : root.isAbsolute = true) :
    (∀ check, Workspace.IsSurvey d root check (Workspace.survey d root check)) ∧
    ∀ (s : Session) (args : List Json), s.disk = d →
      Workspace.rootPath? (chosenRoot (namedArguments args) s.folders) = .ok (some root) →
      ∃ entries, Workspace.IsSurvey d root (Workspace.checkFile d) entries ∧
        s.step (.command .validateWorkspace args) =
          ⟨s, entries, .ok (.command (.surveyed entries.length
            (entries.countP fun e => !e.2.isEmpty) (entries.flatMap Prod.snd).length))⟩ := by
  refine ⟨Workspace.isSurvey_survey tree absolute, ?_⟩
  rintro s args rfl hroot
  refine ⟨_, Workspace.isSurvey_survey tree absolute (Workspace.checkFile s.disk), ?_⟩
  show s.validateWorkspace (namedArguments args) = _
  rw [Session.validateWorkspace, hroot]

/-- A disk with a hidden schema, a directory with a schema's name, a name beyond ASCII, and two directories
whose order is not that of the paths as texts. -/
def mixedDisk : Disk :=
  ((((((Disk.empty ["w".toList]).put ["w".toList, "é.sproto".toList]
    (.file ("a 1 \x7b\n\x7d\na 1 \x7b\n\x7d\n".toList.map fun c => c.toNat.toUInt8))).put
    ["w".toList, "a-b".toList, "x.sproto".toList] (.file [])).put
    ["w".toList, "a".toList, "x.sproto".toList] (.file [])).put
    ["w".toList, "notes".toList] (.file [])).put
    ["w".toList, "dir.sproto".toList] .directory).put
    ["w".toList, ".sproto".toList] (.file [0xFF])

/-- A check that fails on one path, does not answer on another and has a remark on the rest. -/
def moodyCheck (p : Path) : Except Fault (Option (List Diagnostic)) :=
  if p.name = "dir.sproto".toList then .error .notText
  else if p.name = ".sproto".toList then .ok none
  else .ok (some [.general "remark"])

/-- The session whose only folder is the root of the disk above. -/
def mixedSession : Session :=
  .start (.absent "no such document") mixedDisk (some [some "file:///w"])

/-- The surveys of the disk above, by the check above and by the command. -/
theorem workspace_surveyed_mixedDisk :
    mixedDisk.IsTree ∧
    (∃ entries, Workspace.IsSurvey mixedDisk ⟨.root, ["w".toList]⟩ moodyCheck entries ∧
      entries.map (fun e => (e.1, e.2.length)) =
        [("file:///w/.sproto", 0), ("file:///w/a/x.sproto", 1), ("file:///w/a-b/x.sproto", 1),
          ("file:///w/%C3%A9.sproto", 1)]) ∧
    ∃ entries, Workspace.IsSurvey mixedDisk ⟨.root, ["w".toList]⟩ (Workspace.checkFile mixedDisk) entries ∧
      entries.map (fun e => (e.1, e.2.length)) =
        [("file:///w/.sproto", 0), ("file:///w/a/x.sproto", 0), ("file:///w/a-b/x.sproto", 0),
          ("file:///w/dir.sproto", 0), ("file:///w/%C3%A9.sproto", 1)] ∧
      mixedSession.step (.command .validateWorkspace []) =
        ⟨mixedSession, entries, .ok (.command (.surveyed 5 1 1))⟩ := by
  have tree : mixedDisk.IsTree := ⟨by decide +kernel, by decide +kernel, by decide +kernel⟩
  obtain ⟨hsurvey, hcommand⟩ := workspace_surveyed tree ⟨.root, ["w".toList]⟩ rfl
  obtain ⟨entries, hentries, hstep⟩ := hcommand mixedSession [] rfl (by decide +kernel)
  refine ⟨tree, ⟨_, hsurvey moodyCheck, by decide +kernel⟩, entries, hentries, ?_⟩
  obtain rfl : (mixedSession.step (.command .validateWorkspace [])).published = entries :=
    congrArg Outcome.published hstep
  refine ⟨by decide +kernel, hstep.trans ?_⟩
  have hfiles : (mixedSession.step (.command .validateWorkspace [])).published.length = 5 := by
    decide +kernel
  have hflawed : ((mixedSession.step (.command .validateWorkspace [])).published.countP
      fun e => !e.2.isEmpty) = 1 := by
    decide +kernel
  have htotal : ((mixedSession.step (.command .validateWorkspace [])).published.flatMap
      Prod.snd).length = 1 := by
    decide +kernel
  rw [hfiles, hflawed, htotal]

end Sproto
