import Sproto.Editor.QuickFix
import Sproto.Proofs.Outline.Parts
import Sproto.Proofs.Validation.Revision

/-! # Edits of one line

A fix is an edit within one line.  Whatever the line ends are, it replaces a part of that line and
leaves every other line as it is (`Edit.exists_apply_eq`), so the document that it gives is validated
like one with another line (`validate_apply`).

Where the edit goes is said by the diagnostic.  A diagnostic that has a code comes from a finding with
that code and covers the part of the line which the finding names (`Diagnostic.exists_finding`). -/
namespace Sproto

open Text Validation

namespace Text

/-- A text around one of its lines. -/
theorem unlines_append_cons (front : List Text) (l : Text) (back : List Text) :
    unlines (front ++ l :: back) =
      front.flatMap (· ++ ['\n']) ++ (l ++ back.flatMap ('\n' :: ·)) := by
  induction front with
  | nil =>
    rw [List.nil_append, List.flatMap_nil, List.nil_append]
    induction back generalizing l with
    | nil => simp [unlines]
    | cons m back ih =>
      rw [unlines, List.intercalate_cons_cons, ← unlines, ih m]
      simp
  | cons m front ih =>
    rw [List.cons_append, unlines, List.intercalate_cons_of_ne_nil (by simp), ← unlines, ih]
    simp

/-- The text around line `i`, in which any line may stand. -/
theorem replaceLine_eq {t : Text} {i : Nat} (hi : i < (t.splitOn '\n').length) (l : Text) :
    replaceLine t i l =
      ((t.splitOn '\n').take i).flatMap (· ++ ['\n']) ++
        (l ++ ((t.splitOn '\n').drop (i + 1)).flatMap ('\n' :: ·)) := by
  rw [replaceLine, List.set_eq_take_append_cons_drop, if_pos hi, unlines_append_cons]

/-- A text has its own lines. -/
theorem replaceLine_self {t : Text} {i : Nat} {l : Text} (hl : (t.splitOn '\n')[i]? = some l) :
    replaceLine t i l = t := by
  obtain ⟨hi, rfl⟩ := List.getElem?_eq_some_iff.mp hl
  rw [replaceLine, List.set_getElem_self hi]
  exact List.intercalate_splitOn '\n'

/-- What is put into a line does not move the line end. -/
theorem dropReturn_splice {p m q e x : Text} (h : dropReturn (p ++ (m ++ q) ++ e) = p ++ (m ++ q))
    (hne : x ≠ []) (hx : x.getLast? ≠ some '\r') :
    dropReturn (p ++ (x ++ (q ++ e))) = p ++ (x ++ q) := by
  rw [dropReturn_append p (by simp [hne])]
  by_cases hend : q ++ e = []
  · obtain ⟨rfl, rfl⟩ := List.append_eq_nil_iff.mp hend
    rw [List.append_nil, List.append_nil, dropReturn, if_neg hx]
  · have hq : dropReturn (q ++ e) = q := by
      have hassoc : p ++ (m ++ q) ++ e = p ++ m ++ (q ++ e) := by simp only [List.append_assoc]
      rw [hassoc, dropReturn_append _ hend, ← List.append_assoc] at h
      exact List.append_cancel_left h
    rw [dropReturn_append x hend, hq]

end Text

/-- The replacement of the part of line `i` from column `start` up to column `stop`. -/
def Edit.inLine (i start stop : Nat) (newText : Text) : Edit := ⟨⟨⟨i, start⟩, ⟨i, stop⟩⟩, newText⟩

/-- An edit in a line, when the line and its end are taken apart at both places. -/
theorem Edit.apply_inLine {t p m q : Text} {i : Nat} (hl : (t.splitOn '\n')[i]? = some (p ++ (m ++ q)))
    (x : Text) :
    (inLine i p.length (p.length + m.length) x).apply t = replaceLine t i (p ++ (x ++ q)) := by
  obtain ⟨hi, -⟩ := List.getElem?_eq_some_iff.mp hl
  have ht := replaceLine_self hl
  rw [replaceLine_eq hi] at ht ⊢
  generalize hfront : ((t.splitOn '\n').take i).flatMap (· ++ ['\n']) = front at ht ⊢
  generalize ((t.splitOn '\n').drop (i + 1)).flatMap ('\n' :: ·) = back at ht ⊢
  have hoffset : ∀ c, (⟨i, c⟩ : Position).offset t = front.length + c := by
    intro c
    rw [Position.offset, hfront]
  have htake : t.take (front.length + p.length) = front ++ p := by
    rw [← ht, List.take_length_add_append]
    simp
  have hdrop : t.drop (front.length + (p.length + m.length)) = q ++ back := by
    have hsplit : p ++ (m ++ q) ++ back = p ++ (m ++ (q ++ back)) := by simp only [List.append_assoc]
    rw [← ht, List.drop_length_add_append, hsplit, List.drop_length_add_append]
    simp
  show t.take ((⟨i, p.length⟩ : Position).offset t) ++ x ++
    t.drop ((⟨i, p.length + m.length⟩ : Position).offset t) = _
  rw [hoffset, hoffset, htake, hdrop]
  simp only [List.append_assoc]

/-- **An edit in a line of a document replaces that line.** -/
theorem Edit.exists_apply_eq {source p m q x : Text} {i : Nat}
    (hl : (lines source)[i]? = some (p ++ (m ++ q))) (hne : x ≠ []) (hx : x.getLast? ≠ some '\r')
    (hfeed : '\n' ∉ x) :
    ∃ l, '\n' ∉ l ∧ dropReturn l = p ++ (x ++ q) ∧
      (inLine i p.length (p.length + m.length) x).apply source = replaceLine source i l := by
  rw [getElem?_lines] at hl
  obtain ⟨u, hu, hdrop⟩ := Option.map_eq_some_iff.mp hl
  obtain ⟨e, -, hsplit⟩ := exists_dropReturn_append u
  rw [hdrop] at hsplit
  rw [hsplit] at hu hdrop
  refine ⟨p ++ (x ++ (q ++ e)), ?_, dropReturn_splice hdrop hne hx, apply_inLine ?_ x⟩
  · have hold : '\n' ∉ p ++ (m ++ q) ++ e := not_mem_of_mem_splitOn (List.mem_of_getElem? hu)
    simp only [List.mem_append, not_or] at hold ⊢
    exact ⟨hold.1.1, hfeed, hold.1.2.2, hold.2⟩
  · rw [hu]
    simp only [List.append_assoc]

/-- **A document stays accepted after an edit that spells no number too long**, and it is validated with
the edited line in its place. -/
theorem validate_apply {source p m q x : Text} {i : Nat} {r : Report} (h : validate source = .ok r)
    (hl : (lines source)[i]? = some (p ++ (m ++ q))) (hne : x ≠ []) (hx : x.getLast? ≠ some '\r')
    (hfeed : '\n' ∉ x)
    (hfault : (Shape.read (p ++ (x ++ q))).numeral?.bind Numeral.fault? = none) :
    lines ((Edit.inLine i p.length (p.length + m.length) x).apply source) =
        (lines source).set i (p ++ (x ++ q)) ∧
      validate ((Edit.inLine i p.length (p.length + m.length) x).apply source) =
        .ok (Report.ofTokens (Token.ofLines ((lines source).set i (p ++ (x ++ q))))) := by
  obtain ⟨l, hlfeed, hdrop, happly⟩ := Edit.exists_apply_eq hl hne hx hfeed
  rw [happly, lines_replaceLine source i hlfeed, validate_replaceLine h i hlfeed (by rw [hdrop, hfault]),
    hdrop]
  exact ⟨rfl, rfl⟩

/-! ## Diagnostics and findings -/

/-- The range of a finding lies on its line. -/
theorem Finding.range?_eq {f : Finding} {range : Range} (h : f.issue.range? = .ok range) :
    range = ⟨⟨f.line, f.start⟩, ⟨f.line, max f.start f.stop⟩⟩ := by
  have hline : max 0 f.issue.line = (f.line : Int) := by simp
  have hstart : max 0 f.issue.start = (f.start : Int) := by simp [Finding.issue]
  have hstop : max (f.start : Int) f.issue.stop = (max f.start f.stop : Nat) := by
    show max (f.start : Int) (f.stop : Int) = _
    omega
  unfold Issue.range? at h
  simp only [hline, hstart, hstop] at h
  obtain ⟨start, hs, h⟩ := Symbol.exists_of_bind_eq_ok h
  obtain ⟨stop, ht, h⟩ := Symbol.exists_of_bind_eq_ok h
  cases h
  rw [Position.eq_of_make? hs, Position.eq_of_make? ht]

/-- **A diagnostic with a code comes from a finding with that code**, and covers what the finding
names. -/
theorem Diagnostic.exists_finding {source : Text} {ds : List Diagnostic} (h : ofSource source = .ok ds)
    {d : Diagnostic} (hd : d ∈ ds) {code : String} (hcode : d.code = some (.name code)) :
    ∃ r, validate source = .ok r ∧ ∃ f ∈ r.findings, f.problem.code = code ∧
      d.range = ⟨⟨f.line, f.start⟩, ⟨f.line, max f.start f.stop⟩⟩ := by
  unfold ofSource at h
  rcases hr : validate source with fault | r
  · rw [hr] at h
    cases h
  · rw [hr] at h
    cases h
    obtain ⟨x, hx, rfl⟩ := List.mem_map.mp hd
    obtain ⟨f, hf, rfl⟩ := List.mem_map.mp hx
    refine ⟨r, rfl, f, hf, ?_⟩
    unfold ofIssue at hcode ⊢
    rcases hdiag : f.issue.diagnostic? with fault | d
    · rw [hdiag] at hcode
      cases hcode
    · rw [hdiag] at hcode
      obtain ⟨range, hrange, hmake⟩ := Symbol.exists_of_bind_eq_ok hdiag
      cases hmake
      cases hcode
      exact ⟨rfl, Finding.range?_eq hrange⟩

/-! ## Fixes -/

/-- One diagnostic that has a fix is answered with that fix. -/
theorem QuickFix.ofDiagnostics_singleton {uri : String} {d : Diagnostic} {fix : QuickFix}
    (h : ofDiagnostic uri d = .ok (some fix)) : ofDiagnostics uri [d] = .ok (some [fix]) := by
  simp only [ofDiagnostics, List.mapM_cons, List.mapM_nil, h]
  rfl

end Sproto
