import Sproto.Proofs.Editor.Diagnostic
import Sproto.Proofs.Editor.Edits
import Sproto.Proofs.Editor.MissingColon
import Sproto.Proofs.Editor.NumberedType

/-! # All fixes of a document

A document is offered one fix for each issue that has one, and a user may take any of them, or all.
What a fix selects is said by `Selects`: a mark, the number of a type with its brace, or the empty text
behind a field number.

Fixes on different lines cannot meet.  On one line there may be marks and one more fix, and no mark is
white space, a digit or a brace: so it stands outside the number of a type, and it is neither the last
digit of a field number nor what follows it (`Moves.pairwise_editsApart`).  Hence all fixes of a
document can be made together, in any order (`fixes_independent`). -/
namespace Sproto

open Text Validation

/-! ## The fix for a finding -/

/-- The codes of the issues that have a fix. -/
def mendableCodes : List String := ["chinese-punctuation", "dotted-protocol-number", "missing-colon"]

/-- The title of the fix for a problem that has one. -/
def Problem.fixTitle : Problem → String
  | punctuation _ replacement => "Replace with \x27" ++ String.ofList replacement ++ "\x27"
  | numberedType _ => "Remove protocol number"
  | _ => "Insert \x27:\x27"

namespace Finding

/-- The edit that mends a finding, if there is one. -/
def edit? (f : Finding) : Option Edit :=
  match f.problem with
  | .punctuation _ replacement => some (.inLine f.line f.start f.stop replacement)
  | .numberedType _ => some (.inLine f.line f.start f.stop [' ', '{'])
  | .missingColon => some (.inLine f.line f.start f.start [':'])
  | _ => none

/-- The fix for a finding, if there is one. -/
def fix? (uri : String) (f : Finding) : Option QuickFix :=
  f.edit?.map fun e => ⟨f.problem.fixTitle, f.diagnostic, uri, e⟩

theorem isSome_edit? (f : Finding) : f.edit?.isSome = decide (f.problem.code ∈ mendableCodes) := by
  obtain ⟨line, start, stop, problem⟩ := f
  cases problem with
  | _ => rfl

/-- An edit is made on the line of its finding. -/
theorem line_edit? {f : Finding} {e : Edit} (h : f.edit? = some e) : e.range.start.line = f.line ∧
    e.range.stop.line = f.line := by
  obtain ⟨line, start, stop, problem⟩ := f
  cases problem with
  | punctuation | numberedType | missingColon =>
    cases h
    exact ⟨rfl, rfl⟩
  | _ => cases h

end Finding

/-- The replacement of a mark is read off the diagnostic's data. -/
theorem QuickFix.replacement?_diagnostic {f : Finding} {mark : Char} {replacement : Text}
    (hf : f.problem = .punctuation mark replacement) (hne : replacement ≠ []) :
    replacement? f.diagnostic = .ok (some replacement) := by
  have hdata : f.diagnostic.data = .obj [("replacement", .str (String.ofList replacement))] := by
    rw [Finding.diagnostic, hf]
    rfl
  have hpresent : (Json.str (String.ofList replacement)).isTruthy = true := by
    simpa [Json.isTruthy, ← String.toList_inj] using hne
  have hattached : replacement?.attached f.diagnostic =
      some (.str (String.ofList replacement)) := by
    rw [replacement?.attached, hdata]
    show (some (Json.str (String.ofList replacement))).filter Json.isTruthy = _
    rw [Option.filter_some, if_pos hpresent]
  rw [replacement?, hattached]
  simp only [String.toList_ofList]

/-- **The fix for a diagnostic that shows a finding is the fix for the finding.** -/
theorem QuickFix.ofDiagnostic_diagnostic (uri : String) {f : Finding}
    (hf : ∀ mark replacement, f.problem = .punctuation mark replacement → replacement ≠ []) :
    ofDiagnostic uri f.diagnostic = .ok (f.fix? uri) := by
  obtain ⟨line, start, stop, problem⟩ := f
  cases problem with
  | punctuation mark replacement =>
    have hreplacement :
        replacement? (Finding.diagnostic ⟨line, start, stop, .punctuation mark replacement⟩) =
          .ok (some replacement) := replacement?_diagnostic rfl (hf mark replacement rfl)
    unfold ofDiagnostic
    simp only [Finding.diagnostic, Problem.code] at hreplacement ⊢
    rw [hreplacement]
    rfl
  | _ => rfl

/-- A list of computations that succeed gives the list of their results. -/
theorem mapM_eq_ok {α β : Type} {f : α → Except Fault β} {g : α → β} {l : List α}
    (h : ∀ a ∈ l, f a = .ok (g a)) : l.mapM f = .ok (l.map g) := by
  induction l with
  | nil => rfl
  | cons a l ih =>
    obtain ⟨ha, hl⟩ := List.forall_mem_cons.mp h
    rw [List.mapM_cons, ha, ih hl]
    rfl

/-! ## What a fix selects -/

/-- What the fix for an issue of a document selects, and what it puts there. -/
inductive Selects (ls : List Text) (x : Issue) : Edit → Prop
  /-- A mark, for which its entry in the table is put. -/
  | mark {i : Nat} {p q replacement : Text} {c : Char} (hcode : x.code = some "chinese-punctuation")
      (hline : x.line = i) (hl : ls[i]? = some (p ++ c :: q))
      (hmeant : (c, replacement) ∈ Punctuation.table) :
      Selects ls x (.inLine i p.length (p.length + 1) replacement)
  /-- White space, a number, white space and the brace behind the name of a type. -/
  | number {i : Nat} {name m rest : Text} {n : Numeral}
      (hcode : x.code = some "dotted-protocol-number") (hline : x.line = i)
      (hl : ls[i]? = some (name ++ (m ++ '{' :: rest))) (hname : Shape.IsProtocolName name)
      (hdot : name.head? = some '.') (hm : Shape.NumberPart (some n) m) :
      Selects ls x (.inLine i name.length (name.length + (m.length + 1)) [' ', '{'])
  /-- Nothing, right behind the number that follows the name of a field. -/
  | colon {i : Nat} {a name g rest : Text} {n : Numeral} (hcode : x.code = some "missing-colon")
      (hline : x.line = i) (hl : ls[i]? = some (a ++ (name ++ (g ++ (n.digits ++ rest)))))
      (ha : isBlank a = true) (hname : IsName name) (hgap : g ≠ []) (hg : isBlank g = true)
      (hn : n.Spelled) (hrest : Stops isDigit rest) :
      Selects ls x (.inLine i (a ++ (name ++ (g ++ n.digits))).length
        (a ++ (name ++ (g ++ n.digits))).length [':'])

/-- **What a fix selects lies on a line of the document.** -/
theorem Selects.onLine {ls : List Text} {x : Issue} {e : Edit} (h : Selects ls x e) :
    e.range.OnLine ls := by
  cases h with
  | mark _ _ hl =>
    refine ⟨rfl, Nat.le_succ _, _, hl, ?_⟩
    simp [Edit.inLine]
  | number _ _ hl =>
    refine ⟨rfl, Nat.le_add_right _ _, _, hl, ?_⟩
    simp [Edit.inLine]
  | colon _ _ hl =>
    refine ⟨rfl, Nat.le_refl _, _, hl, ?_⟩
    simp [Edit.inLine]

namespace Validation

variable {s s' : State} {t : Token} {f f' : Finding} {fs : List Finding}

/-- Marks are found by looking for them. -/
theorem Moves.mem_punctuationFindings (ht : t.Genuine) (h : Moves s t s' fs) (hf : f ∈ fs)
    (hcode : f.problem.code = "chinese-punctuation") : f ∈ punctuationFindings t := by
  have hmem : f ∈ fs.filter fun f => f.problem.code = "chinese-punctuation" :=
    List.mem_filter.mpr ⟨hf, decide_eq_true hcode⟩
  rw [h.filter_marks ht] at hmem
  split at hmem
  · cases hmem
  · exact hmem

/-- The line on which a mark is found. -/
theorem exists_line_of_punctuation {source : Text} {r : Report} (hr : validate source = .ok r)
    (hf : f ∈ r.findings) {c : Char} {replacement : Text}
    (hproblem : f.problem = .punctuation c replacement) :
    ∃ p q, (lines source)[f.line]? = some (p ++ c :: q) ∧ f.start = p.length ∧
      f.stop = p.length + 1 ∧ (c, replacement) ∈ Punctuation.table := by
  obtain ⟨l, hl, hmem⟩ := exists_step_of_mem hr hf
  have hgenuine := Token.genuine_read (not_mem_of_mem_lines (List.mem_of_getElem? hl)) f.line
  have hfound := (moves_step _ hgenuine).mem_punctuationFindings hgenuine hmem (by rw [hproblem]; rfl)
  obtain ⟨mark, meant, hproblem', hstop, hc, hmeant⟩ := exists_mark_of_mem hfound
  rw [hproblem] at hproblem'
  cases hproblem'
  rw [Token.read_text] at hc
  obtain ⟨hlt, hget⟩ := List.getElem?_eq_some_iff.mp hc
  have hsplit : l = l.take f.start ++ c :: l.drop (f.start + 1) := by
    rw [← hget, ← List.drop_eq_getElem_cons hlt, List.take_append_drop]
  have hlength : (l.take f.start).length = f.start := by
    rw [List.length_take]
    exact Nat.min_eq_left (Nat.le_of_lt hlt)
  refine ⟨l.take f.start, l.drop (f.start + 1), hl.trans (congrArg some hsplit), hlength.symm, ?_,
    Punctuation.replacement?_eq_some_iff.mp hmeant⟩
  rw [hlength, hstop]

/-- **The edit for a finding selects what its problem is about.** -/
theorem selects_of_mem {source : Text} {r : Report} (hr : validate source = .ok r)
    (hf : f ∈ r.findings) {e : Edit} (he : f.edit? = some e) :
    Selects (lines source) f.issue e := by
  unfold Finding.edit? at he
  split at he
  · next c replacement hproblem =>
    cases he
    obtain ⟨p, q, hl, hstart, hstop, hmeant⟩ := exists_line_of_punctuation hr hf hproblem
    rw [hstart, hstop]
    exact .mark (by rw [Finding.issue_code, hproblem]; rfl) rfl hl hmeant
  · next name hproblem =>
    cases he
    have hcode : f.problem.code = "dotted-protocol-number" := by rw [hproblem]; rfl
    obtain ⟨name, n, m, rest, hl, hstart, hstop, hname, hdot, hm, -⟩ :=
      exists_line_of_numberedType hr hf hcode
    rw [List.append_assoc] at hl
    rw [hstart, hstop, List.length_append]
    exact .number (by rw [Finding.issue_code, hcode]) rfl hl hname hdot hm
  · next hproblem =>
    cases he
    have hcode : f.problem.code = "missing-colon" := by rw [hproblem]; rfl
    obtain ⟨front, name, n, rest, -, -, hl, hstart, hnn, -⟩ := exists_line_of_missingColon hr hf hcode
    obtain ⟨hname, hn, hrest, a, g, ha, hgap, hg, hsplit⟩ := Shape.nameAndNumber?_eq_some_iff.mp hnn
    have hfront : front = a ++ (name ++ (g ++ n.digits)) := by
      refine List.append_cancel_right (hsplit.trans ?_)
      simp only [List.append_assoc]
    rw [hsplit] at hl
    rw [hstart, hfront]
    exact .colon (by rw [Finding.issue_code, hcode]) rfl hl ha hname hgap hg hn hrest
  · cases he

end Validation

/-! ## Fixes on one line -/

namespace Finding

variable {f f' : Finding}

/-- The edits for two findings, if both have one, have nothing in common. -/
def EditsApart (f f' : Finding) : Prop :=
  ∀ e, f.edit? = some e → ∀ e', f'.edit? = some e' → e.range.Apart e'.range

theorem editsApart_of_edit?_eq_none (h : f'.edit? = none) : f.EditsApart f' := by
  intro e _ e' he'
  rw [h] at he'
  cases he'

/-- Edits of different lines are apart. -/
theorem editsApart_of_line_lt (h : f.line < f'.line) : f.EditsApart f' := by
  intro e he e' he'
  refine Or.inl (Or.inl (Or.inl ?_))
  rw [(line_edit? he).2, (line_edit? he').1]
  exact h

end Finding

/-- A character that does not occur in a part of a text stands before it or behind it. -/
theorem lt_or_le_of_not_mem {p m q : Text} {c : Char} {column : Nat}
    (hc : (p ++ (m ++ q))[column]? = some c) (hm : c ∉ m) :
    column < p.length ∨ p.length + m.length ≤ column := by
  rcases Nat.lt_or_ge column p.length with hlt | hge
  · exact Or.inl hlt
  · right
    by_contra hinside
    rw [List.getElem?_append_right hge, List.getElem?_append_left (by omega)] at hc
    exact hm (List.mem_of_getElem? hc)

/-- What follows a number that wants a colon is white space. -/
theorem isSpace_of_wantsColon {c : Char} {rest : Text} (h : wantsColon (c :: rest) = true) :
    isSpace c = true := by
  by_contra hc
  simp [wantsColon, isBlank, readGap?, hc] at h

/-- **A colon is missed between a digit and white space.** -/
theorem exists_split_of_missingColon {l : Text} (h : (fieldProblem l).2 = .missingColon) :
    ∃ p d rest, l = p ++ d :: rest ∧ (fieldProblem l).1 = p.length + 1 ∧ isDigit d = true ∧
      ∀ c ∈ rest.head?, isSpace c = true := by
  obtain ⟨name, n, rest, hnn, hwants, hstart⟩ :=
    missingColon?_eq_some (missingColon?_of_fieldProblem h)
  obtain ⟨-, hn, -, a, g, -, -, -, hl⟩ := Shape.nameAndNumber?_eq_some_iff.mp hnn
  obtain ⟨ds, d, hd⟩ : ∃ ds d, n.digits = ds ++ [d] :=
    ⟨_, _, (List.dropLast_append_getLast hn.1).symm⟩
  have hsplit : l = (a ++ (name ++ (g ++ ds))) ++ d :: rest := by
    rw [hl, hd]
    simp only [List.append_assoc, List.singleton_append]
  refine ⟨_, d, rest, hsplit, ?_, hn.2 d (by rw [hd]; simp), fun c hc => ?_⟩
  · rw [hstart, hsplit, List.length_append, List.length_cons]
    omega
  · obtain ⟨rest', rfl⟩ := List.head?_eq_some_iff.mp hc
    exact isSpace_of_wantsColon hwants

namespace Validation

variable {s s' : State} {t : Token} {f f' : Finding} {fs : List Finding}

/-- The edit for a mark replaces it. -/
theorem range_edit?_of_mem (hf : f ∈ punctuationFindings t) {e : Edit} (he : f.edit? = some e) :
    e.range = ⟨⟨t.index, f.start⟩, ⟨t.index, f.start + 1⟩⟩ := by
  obtain ⟨c, r, hproblem, hstop, -⟩ := exists_mark_of_mem hf
  rw [Finding.edit?, hproblem] at he
  cases he
  rw [← hstop, ← (mem_punctuationFindings hf).1]
  rfl

/-- Marks stand beside each other. -/
theorem pairwise_punctuationFindings (t : Token) :
    (punctuationFindings t).Pairwise Finding.EditsApart := by
  have hordered : (punctuationFindings t).Pairwise fun f f' => f.start < f'.start := by
    rw [punctuationFindings, List.pairwise_map]
    exact Punctuation.pairwise_marksFrom 0 t.text
  refine hordered.imp_of_mem fun {f f'} hf hf' hlt e he e' he' => ?_
  rw [range_edit?_of_mem hf he, range_edit?_of_mem hf' he']
  exact Or.inl (Range.clear_of_le hlt (Nat.lt_succ_self _) (Nat.lt_succ_self _))

/-- The edit for the number of a type replaces all between its name and the end of its brace. -/
theorem range_edit?_of_mem_typeFindings {name : Text} (hf : f ∈ typeFindings t name) {e : Edit}
    (he : f.edit? = some e) : e.range = ⟨⟨t.index, name.length⟩, ⟨t.index, t.matchEnd⟩⟩ := by
  unfold typeFindings at hf
  split at hf
  · obtain rfl := List.mem_singleton.mp hf
    cases he
    rfl
  · cases hf

/-- There is no mark between the name of a type and the end of its brace. -/
theorem not_mem_of_isMark {m : Text} {n : Numeral} (hm : Shape.NumberPart (some n) m) {c : Char}
    (hc : Punctuation.isMark c = true) : c ∉ m ++ ['{'] := by
  intro hmem
  rcases List.mem_append.mp hmem with hmem | hmem
  · exact List.countP_eq_zero.mp (countP_isMark_numberPart hm) c hmem hc
  · obtain rfl := List.mem_singleton.mp hmem
    exact absurd hc (by decide)

/-- **A mark is apart from the number of a type.** -/
theorem editsApart_typeFindings (ht : t.Genuine) {name rest : Text} {n : Numeral}
    (hshape : t.shape = .protocol name (some n) rest) (hf : f ∈ punctuationFindings t)
    (hf' : f' ∈ typeFindings t name) : f.EditsApart f' := by
  intro e he e' he'
  obtain ⟨-, -, m, hm, htext⟩ := ht.protocol hshape
  obtain ⟨c, r, -, -, hc, hmeant⟩ := exists_mark_of_mem hf
  have hsplit : t.text = name ++ ((m ++ ['{']) ++ rest) := by
    rw [htext]
    simp
  have hend : t.matchEnd = name.length + (m ++ ['{']).length := by
    rw [Token.matchEnd, hshape, hsplit]
    simp only [List.length_append]
    omega
  have hpos : 0 < (m ++ ['{']).length := by simp
  rw [range_edit?_of_mem hf he, range_edit?_of_mem_typeFindings hf' he', hend]
  rw [hsplit] at hc
  have hout := not_mem_of_isMark hm (Punctuation.isMark_of_replacement? hmeant)
  rcases lt_or_le_of_not_mem hc hout with hlt | hle
  · exact Or.inl (Range.clear_of_le hlt (Nat.lt_succ_self _) (by omega))
  · exact Or.inr (Range.clear_of_le hle (by omega) (Nat.lt_succ_self _))

/-- A malformed field has a fix if a colon is missed in it. -/
theorem edit?_faultOf {e : Edit} (he : (checkField.faultOf t).edit? = some e) :
    (fieldProblem t.text).2 = .missingColon ∧
      e.range = ⟨⟨t.index, (fieldProblem t.text).1⟩, ⟨t.index, (fieldProblem t.text).1⟩⟩ := by
  have hproblem := problem_faultOf t
  simp only [List.mem_cons, List.not_mem_nil, or_false] at hproblem
  rw [Finding.edit?] at he
  rcases hproblem with hp | hp | hp | hp
  · rw [hp] at he
    cases he
  · rw [hp] at he
    cases he
    exact ⟨hp, rfl⟩
  · rw [hp] at he
    cases he
  · rw [hp] at he
    cases he

/-- **The place of a missing colon touches no mark.** -/
theorem editsApart_faultOf (hf : f ∈ punctuationFindings t) :
    f.EditsApart (checkField.faultOf t) := by
  intro e he e' he'
  obtain ⟨hproblem, hrange⟩ := edit?_faultOf he'
  obtain ⟨p, d, rest, hsplit, hstart, hd, hspace⟩ := exists_split_of_missingColon hproblem
  obtain ⟨c, r, -, -, hc, hmeant⟩ := exists_mark_of_mem hf
  obtain ⟨hnotSpace, hnotDigit⟩ :=
    Punctuation.isSpace_and_isDigit_of_isMark (Punctuation.isMark_of_replacement? hmeant)
  have hcd : c ≠ d := by
    rintro rfl
    rw [hd] at hnotDigit
    cases hnotDigit
  rw [range_edit?_of_mem hf he, hrange, hstart]
  rw [hsplit] at hc
  rcases rest with _ | ⟨w, rest⟩
  · have hlt : f.start < p.length := by
      obtain ⟨hlt, -⟩ := List.getElem?_eq_some_iff.mp hc
      rw [List.length_append, List.length_singleton] at hlt
      rcases lt_or_le_of_not_mem (m := [d]) (q := []) hc (by simpa using hcd) with h | h
      · exact h
      · rw [List.length_singleton] at h
        omega
    exact Or.inl (Range.clear_of_lt (by omega))
  · have hcw : c ≠ w := by
      rintro rfl
      rw [hspace c rfl] at hnotSpace
      cases hnotSpace
    rcases lt_or_le_of_not_mem (m := [d, w]) hc (by simp [hcd, hcw]) with h | h
    · exact Or.inl (Range.clear_of_lt (by omega))
    · rw [List.length_cons, List.length_singleton] at h
      exact Or.inr (Range.clear_of_lt (by omega))

theorem pairwise_typeFindings (t : Token) (name : Text) :
    (typeFindings t name).Pairwise Finding.EditsApart := by
  unfold typeFindings
  split
  · exact List.pairwise_singleton _ _
  · exact .nil

/-- **On one line no edit meets another one.** -/
theorem Moves.pairwise_editsApart (ht : t.Genuine) (h : Moves s t s' fs) :
    fs.Pairwise Finding.EditsApart := by
  have hmarks := pairwise_punctuationFindings t
  cases h with
  | header | leave => exact .nil
  | enter | pass | take | skip => exact hmarks
  | register hs hshape =>
    refine List.pairwise_append.mpr ⟨hmarks, pairwise_typeFindings t _, fun f hf f' hf' => ?_⟩
    exact editsApart_typeFindings ht hshape hf hf'
  | repeatProtocol hs hshape =>
    refine List.pairwise_append.mpr ⟨hmarks, List.pairwise_append.mpr
      ⟨pairwise_typeFindings t _, List.pairwise_singleton _ _, fun f _ f' hf' => ?_⟩,
      fun f hf f' hf' => ?_⟩
    · obtain rfl := List.mem_singleton.mp hf'
      exact Finding.editsApart_of_edit?_eq_none rfl
    · rcases List.mem_append.mp hf' with hf' | hf'
      · exact editsApart_typeFindings ht hshape hf hf'
      · obtain rfl := List.mem_singleton.mp hf'
        exact Finding.editsApart_of_edit?_eq_none rfl
  | repeatField =>
    refine List.pairwise_append.mpr ⟨hmarks, List.pairwise_singleton _ _, fun f _ f' hf' => ?_⟩
    obtain rfl := List.mem_singleton.mp hf'
    exact Finding.editsApart_of_edit?_eq_none rfl
  | fault =>
    refine List.pairwise_append.mpr ⟨hmarks, List.pairwise_singleton _ _, fun f hf f' hf' => ?_⟩
    obtain rfl := List.mem_singleton.mp hf'
    exact editsApart_faultOf hf

/-- **In a document no edit meets another one.** -/
theorem pairwise_editsApart {source : Text} {r : Report} (h : validate source = .ok r) :
    r.findings.Pairwise Finding.EditsApart := by
  refine pairwise_findings h (fun f f' => Finding.editsApart_of_line_lt) fun i l hl => ?_
  have hgenuine := Token.genuine_read (not_mem_of_mem_lines (List.mem_of_getElem? hl)) i
  exact (moves_step _ hgenuine).pairwise_editsApart hgenuine

end Validation

/-! ## All fixes together -/

/-- A fix that is offered for an issue of a document. -/
structure QuickFix.Suits (uri : String) (ls : List Text) (x : Issue) (fix : QuickFix) : Prop where
  uri : fix.uri = uri
  diagnostic : Diagnostic.Shows x fix.diagnostic
  onLine : fix.edit.range.OnLine ls
  edit : Selects ls x fix.edit

/-- An issue that has a fix. -/
def Issue.isMendable (x : Issue) : Bool := x.code.any (· ∈ mendableCodes)

/-- Diagnostics are answered with the fixes that there are, and with nothing if there are none. -/
theorem QuickFix.ofDiagnostics_eq {uri : String} {ds : List Diagnostic}
    {fixes : List (Option QuickFix)} (h : ds.mapM (ofDiagnostic uri) = .ok fixes) :
    ofDiagnostics uri ds =
      .ok (if (fixes.filterMap id).isEmpty then none else some (fixes.filterMap id)) := by
  rcases hfixes : fixes.filterMap id with _ | ⟨fix, rest⟩
  · simp only [ofDiagnostics, h, bind, Except.bind, hfixes]
    rfl
  · simp only [ofDiagnostics, h, bind, Except.bind, hfixes]
    rfl

/-- **The fixes for a document are those for its findings.** -/
theorem QuickFix.ofSource_eq {source : Text} {r : Report} (h : validate source = .ok r)
    (hls : Addressable (lines source)) (uri : String) :
    ofSource uri source =
      .ok (if (r.findings.filterMap (Finding.fix? uri)).isEmpty then none
        else some (r.findings.filterMap (Finding.fix? uri))) := by
  have hfixes : (r.findings.map Finding.diagnostic).mapM (ofDiagnostic uri) =
      .ok (r.findings.map (Finding.fix? uri)) := by
    rw [List.mapM_map]
    refine mapM_eq_ok fun f hf => ofDiagnostic_diagnostic uri fun mark replacement hproblem => ?_
    obtain ⟨-, -, -, -, -, hmeant⟩ := exists_line_of_punctuation h hf hproblem
    have hall : ∀ p ∈ Punctuation.table, p.2 ≠ [] := by decide
    exact hall _ hmeant
  have hanswer := ofDiagnostics_eq hfixes
  rw [List.filterMap_map, Function.id_comp] at hanswer
  rw [ofSource, Diagnostic.ofSource_eq h hls]
  exact hanswer

theorem Finding.isMendable_issue (f : Finding) : f.issue.isMendable = f.edit?.isSome := by
  rw [isSome_edit?]
  rfl

/-- Findings and their fixes, one by one. -/
theorem forall₂_suits {ls : List Text} {fs : List Finding} (uri : String)
    (h : ∀ f ∈ fs, ∀ e, f.edit? = some e → Selects ls f.issue e) :
    List.Forall₂ (QuickFix.Suits uri ls) ((fs.map Finding.issue).filter Issue.isMendable)
      (fs.filterMap (Finding.fix? uri)) := by
  induction fs with
  | nil => exact .nil
  | cons f fs ih =>
    obtain ⟨hf, hfs⟩ := List.forall_mem_cons.mp h
    have hmendable := f.isMendable_issue
    rcases he : f.edit? with _ | e
    · have hfix : f.fix? uri = none := by rw [Finding.fix?, he]; rfl
      rw [he] at hmendable
      rw [List.map_cons, List.filter_cons_of_neg (by simp [hmendable]), List.filterMap_cons_none hfix]
      exact ih hfs
    · have hfix : f.fix? uri = some ⟨f.problem.fixTitle, f.diagnostic, uri, e⟩ := by
        rw [Finding.fix?, he]
        rfl
      rw [he] at hmendable
      rw [List.map_cons, List.filter_cons_of_pos hmendable, List.filterMap_cons_some hfix]
      have hselects := hf e he
      exact .cons ⟨rfl, f.shows_diagnostic, hselects.onLine, hselects⟩ (ih hfs)

theorem pairwise_apart_fixes {fs : List Finding} (uri : String) (h : fs.Pairwise Finding.EditsApart) :
    (fs.filterMap (Finding.fix? uri)).Pairwise fun fix fix' =>
      fix.edit.range.Apart fix'.edit.range := by
  rw [List.pairwise_filterMap]
  refine h.imp fun {f f'} hapart fix hfix fix' hfix' => ?_
  obtain ⟨e, he, rfl⟩ := Option.map_eq_some_iff.mp hfix
  obtain ⟨e', he', rfl⟩ := Option.map_eq_some_iff.mp hfix'
  exact hapart e he e' he'

/-- **The fixes of a document never conflict.**  There is one for each issue that has a fix, in their
order; it selects a part of one line; no two of these parts meet; and all of the edits together give
the same text in any order. -/
theorem fixes_independent {source : Text} {r : Report} (h : validate source = .ok r)
    (hls : Addressable (lines source)) (uri : String) :
    ∃ fixes : List QuickFix,
      QuickFix.ofSource uri source = .ok (if fixes.isEmpty then none else some fixes) ∧
      List.Forall₂ (QuickFix.Suits uri (lines source)) (r.issues.filter Issue.isMendable) fixes ∧
      (fixes.Pairwise fun fix fix' => fix.edit.range.Apart fix'.edit.range) ∧
      ∀ es, es.Perm (fixes.map (·.edit)) →
        Edit.applyAll es source = Edit.applyAll (fixes.map (·.edit)) source := by
  have hsuits := forall₂_suits uri fun f hf e he => selects_of_mem h hf he
  have hapart := pairwise_apart_fixes uri (pairwise_editsApart h)
  refine ⟨_, QuickFix.ofSource_eq h hls uri, hsuits, hapart, fun es hperm => ?_⟩
  refine Edit.applyAll_perm (fun e hmem => ?_) (List.pairwise_map.mpr hapart) hperm
  obtain ⟨fix, hfix, rfl⟩ := List.mem_map.mp hmem
  obtain ⟨f, hf, hedit⟩ := List.mem_filterMap.mp hfix
  obtain ⟨e, he, rfl⟩ := Option.map_eq_some_iff.mp hedit
  exact (selects_of_mem h hf he).onLine

/-- All three kinds of fixes: marks side by side and right behind the brace of a type, marks on the
line of a missing colon, and a line that ends in a carriage return where one is missed. -/
def mendableSource : Text :=
  (".Foo\t１ \x7b（）\r\nfoo 2 \x7b\n request \x7b，\n  a 1 int：。\n  b 2\r\n  c 3: 、\n \x7d\n\x7d".toList)

theorem independent_mendableSource :
    ∃ r, validate mendableSource = .ok r ∧ Addressable (lines mendableSource) ∧
      (r.issues.filter Issue.isMendable).map (·.code) =
        ["chinese-punctuation", "chinese-punctuation", "dotted-protocol-number",
          "chinese-punctuation", "chinese-punctuation", "chinese-punctuation", "missing-colon",
          "missing-colon", "chinese-punctuation"].map some ∧
      ∃ fixes : List QuickFix,
        QuickFix.ofSource "a" mendableSource = .ok (if fixes.isEmpty then none else some fixes) ∧
        List.Forall₂ (QuickFix.Suits "a" (lines mendableSource)) (r.issues.filter Issue.isMendable)
          fixes ∧
        (fixes.Pairwise fun fix fix' => fix.edit.range.Apart fix'.edit.range) ∧
        ∀ es, es.Perm (fixes.map (·.edit)) →
          Edit.applyAll es mendableSource = Edit.applyAll (fixes.map (·.edit)) mendableSource := by
  have h : validate mendableSource =
      .ok (Report.ofTokens (Token.ofLines (lines mendableSource))) := by
    decide +kernel
  have hls : Addressable (lines mendableSource) := ⟨by decide +kernel, by decide +kernel⟩
  exact ⟨_, h, hls, by decide +kernel, fixes_independent h hls "a"⟩

end Sproto
