import Sproto.Proofs.Layout.Document
import Sproto.Proofs.Text.Replace
import Sproto.Proofs.Validation.Report

/-! # Documents that differ in one line

What a report says is compared by the places of its issues (`Report.places`) and line by line
(`Report.issuesOn`); on a line, it is what the step over the line finds (`issuesOn_ofTokens`), and
`Moves.finding_cases` lists what that can be.

Two documents that differ in line `i` alone are passed over alike up to that line.  `run_set` takes a
pass apart at it: what is found above the line, the step over it, and the pass over the rest from the
state which that step leaves.  `validate_replaceLine` says when a document stays accepted. -/
namespace Sproto

open Text

/-! ## What is reported where -/

/-- The line and the code of a finding, as its issue has them. -/
def Finding.place (f : Finding) : Int × Option String := (f.issue.line, f.issue.code)

/-- The lines and codes of the issues of a report, in their order. -/
def Report.places (r : Report) : List (Int × Option String) := r.issues.map fun x => (x.line, x.code)

theorem Report.places_eq (r : Report) : r.places = r.findings.map Finding.place := by
  rw [places, issues, List.map_map]
  rfl

/-- The issues of a report on one line. -/
def Report.issuesOn (r : Report) (line : Nat) : List Issue := r.issues.filter fun x => x.line = line

namespace Validation

/-- The issues on a line are what the step over it finds. -/
theorem issuesOn_ofTokens {ls : List Text} (hls : ∀ l ∈ ls, '\n' ∉ l) {i : Nat} {l : Text}
    (hl : ls[i]? = some l) :
    (Report.ofTokens (Token.ofLines ls)).issuesOn i =
      ((State.before ls i).step (Token.read i l)).2.map Finding.issue := by
  rw [← filter_line_run hls hl, Report.issuesOn, Report.issues, List.filter_map]
  refine congrArg _ (List.filter_congr fun f _ => ?_)
  simp only [Function.comp_apply, Finding.issue_line, Int.natCast_inj]

/-- What is reported on a line is what the step over it finds. -/
theorem filter_places_ofTokens {ls : List Text} (hls : ∀ l ∈ ls, '\n' ∉ l) {i : Nat} {l : Text}
    (hl : ls[i]? = some l) :
    ((Report.ofTokens (Token.ofLines ls)).places.filter fun p => p.1 = (i : Int)) =
      ((State.before ls i).step (Token.read i l)).2.map Finding.place := by
  have hissues := congrArg (List.map fun x : Issue => (x.line, x.code)) (issuesOn_ofTokens hls hl)
  rw [List.map_map] at hissues
  rw [Report.places, List.filter_map]
  exact hissues

theorem issuesOn_ofTokens_eq_nil {ls : List Text} (hls : ∀ l ∈ ls, '\n' ∉ l) {i : Nat}
    (hi : ls.length ≤ i) : (Report.ofTokens (Token.ofLines ls)).issuesOn i = [] := by
  rw [Report.issuesOn, List.filter_eq_nil_iff]
  intro x hx hline
  obtain ⟨f, hf, rfl⟩ := List.mem_map.mp hx
  rw [Token.ofLines_eq_numbered] at hf
  have hlt := (line_of_mem_run_numbered hls hf).2
  rw [decide_eq_true_eq, Finding.issue_line] at hline
  omega

/-- What is found lies on a line and is found by the step over it. -/
theorem exists_step_of_mem {source : Text} {r : Report} (h : validate source = .ok r) {f : Finding}
    (hf : f ∈ r.findings) :
    ∃ l, (lines source)[f.line]? = some l ∧
      f ∈ ((State.before (lines source) f.line).step (Token.read f.line l)).2 := by
  obtain ⟨rfl, -⟩ := validate_eq_ok_iff.mp h
  have hls : ∀ l ∈ lines source, '\n' ∉ l := fun l hl => not_mem_of_mem_lines hl
  have hlt : f.line < (lines source).length := by
    have hmem := hf
    rw [Token.ofLines_eq_numbered] at hmem
    have hbound := (line_of_mem_run_numbered hls hmem).2
    omega
  have hl : (lines source)[f.line]? = some (lines source)[f.line] := List.getElem?_eq_getElem hlt
  refine ⟨_, hl, ?_⟩
  rw [← filter_line_run hls hl]
  exact List.mem_filter.mpr ⟨hf, by simp⟩

/-- **What can be found on a line**: marks; on a declaration outside any block, the number of a type or
one that is taken; inside a block, a field number that is taken or a malformed field. -/
theorem Moves.finding_cases {s s' : State} {t : Token} {fs : List Finding} (h : Moves s t s' fs)
    {f : Finding} (hf : f ∈ fs) :
    (∃ mark replacement, f.problem = .punctuation mark replacement) ∨
      (∃ name n rest, s.context = .top ∧ t.shape = .protocol name (some n) rest ∧
        (f ∈ typeFindings t name ∨ ∃ first, f.problem = .repeatedProtocol n.value first)) ∨
      ∃ k fields, s.context = .block k fields ∧ t.shape ≠ .closeBrace ∧
        ((∃ number first, f.problem = .repeatedField number k first) ∨ f = checkField.faultOf t) := by
  cases h with
  | header | leave => cases hf
  | enter | pass | take | skip => exact Or.inl (mem_punctuationFindings hf).2
  | register hs hshape =>
    rcases List.mem_append.mp hf with hf | hf
    · exact Or.inl (mem_punctuationFindings hf).2
    · exact Or.inr (Or.inl ⟨_, _, _, hs, hshape, Or.inl hf⟩)
  | repeatProtocol hs hshape =>
    rcases List.mem_append.mp hf with hf | hf
    · exact Or.inl (mem_punctuationFindings hf).2
    · refine Or.inr (Or.inl ⟨_, _, _, hs, hshape, ?_⟩)
      rcases List.mem_append.mp hf with hf | hf
      · exact Or.inl hf
      · obtain rfl := List.mem_singleton.mp hf
        exact Or.inr ⟨_, rfl⟩
  | repeatField hs hshape =>
    rcases List.mem_append.mp hf with hf | hf
    · exact Or.inl (mem_punctuationFindings hf).2
    · obtain rfl := List.mem_singleton.mp hf
      exact Or.inr (Or.inr ⟨_, _, hs, by rw [hshape]; simp, Or.inl ⟨_, _, rfl⟩⟩)
  | fault hs hclose =>
    rcases List.mem_append.mp hf with hf | hf
    · exact Or.inl (mem_punctuationFindings hf).2
    · exact Or.inr (Or.inr ⟨_, _, hs, hclose, Or.inr (List.mem_singleton.mp hf)⟩)

theorem map_place_punctuationFindings (t : Token) :
    (punctuationFindings t).map Finding.place =
      List.replicate (t.text.countP Punctuation.isMark) (↑t.index, some "chinese-punctuation") := by
  rw [← Punctuation.length_marksFrom 0, punctuationFindings, List.map_map, Punctuation.marks,
    ← List.map_const']
  exact List.map_congr_left fun _ _ => rfl

/-! ## Passes over documents that differ in one line -/

variable {ls : List Text} {i : Nat}

theorem State.before_set {j : Nat} (hij : j ≤ i) (ls : List Text) (m : Text) :
    State.before (ls.set i m) j = State.before ls j := by
  rw [before, before, List.take_set_of_le hij]

/-- What is found above line `i`. -/
def foundAbove (ls : List Text) (i : Nat) : List Finding :=
  (State.initial.run (Token.ofLines (ls.take i))).2

theorem foundAbove_length (ls : List Text) :
    foundAbove ls ls.length = (State.initial.run (Token.ofLines ls)).2 := by
  rw [foundAbove, List.take_length]

/-- What is found above the next line is that and what the step over this one finds. -/
theorem foundAbove_succ {l : Text} (hl : ls[i]? = some l) :
    foundAbove ls (i + 1) =
      foundAbove ls i ++ ((State.before ls i).step (Token.read i l)).2 := by
  have hlen : (ls.take i).length = i := by
    obtain ⟨hi, -⟩ := List.getElem?_eq_some_iff.mp hl
    rw [List.length_take]
    omega
  rw [foundAbove, List.take_add_one, hl, Option.toList_some, Token.ofLines_append, State.run_append,
    hlen, Token.numbered, State.run_cons, Token.numbered, State.run_nil, List.append_nil]
  rfl

/-- The lines below line `i`. -/
def tokensBelow (ls : List Text) (i : Nat) : List Token := Token.numbered (i + 1) (ls.drop (i + 1))

/-- **A pass over a document with another line `i`**, taken apart at that line. -/
theorem run_set (hi : i < ls.length) (m : Text) :
    State.initial.run (Token.ofLines (ls.set i m)) =
      ((((State.before ls i).step (Token.read i m)).1.run (tokensBelow ls i)).1,
        foundAbove ls i ++ (((State.before ls i).step (Token.read i m)).2 ++
          (((State.before ls i).step (Token.read i m)).1.run (tokensBelow ls i)).2)) := by
  have hlen : (ls.take i).length = i := by
    rw [List.length_take]
    omega
  rw [List.set_eq_take_append_cons_drop, if_pos hi, Token.ofLines_append, hlen, State.run_append,
    Token.numbered, State.run_cons]
  rfl

/-- What is reported on a document with another line `i`, taken apart at that line. -/
theorem places_set_eq (hi : i < ls.length) (m : Text) :
    (Report.ofTokens (Token.ofLines (ls.set i m))).places =
      (foundAbove ls i).map Finding.place ++
        (((State.before ls i).step (Token.read i m)).2.map Finding.place ++
          (((State.before ls i).step (Token.read i m)).1.run (tokensBelow ls i)).2.map
            Finding.place) := by
  rw [Report.places_eq]
  show (State.initial.run _).2.map Finding.place = _
  rw [run_set hi]
  simp only [List.map_append]

theorem places_eq_at {l : Text} (hl : ls[i]? = some l) :
    (Report.ofTokens (Token.ofLines ls)).places =
      (foundAbove ls i).map Finding.place ++
        (((State.before ls i).step (Token.read i l)).2.map Finding.place ++
          (((State.before ls i).step (Token.read i l)).1.run (tokensBelow ls i)).2.map
            Finding.place) := by
  obtain ⟨hi, rfl⟩ := List.getElem?_eq_some_iff.mp hl
  conv_lhs => rw [← List.set_getElem_self hi]
  exact places_set_eq hi _

/-- Another line without line feed leaves no line feed in the lines. -/
theorem feed_set (hls : ∀ l ∈ ls, '\n' ∉ l) {m : Text} (hm : '\n' ∉ m) :
    ∀ l ∈ ls.set i m, '\n' ∉ l := by
  intro l hl
  rcases List.mem_or_eq_of_mem_set hl with hl | rfl
  · exact hls l hl
  · exact hm

/-- **A document stays accepted when a line is replaced by one that spells no number too long.** -/
theorem validate_replaceLine {source : Text} {r : Report} (h : validate source = .ok r) (i : Nat)
    {m : Text} (hm : '\n' ∉ m)
    (hfault : (Shape.read (dropReturn m)).numeral?.bind Numeral.fault? = none) :
    validate (replaceLine source i m) =
      .ok (Report.ofTokens (Token.ofLines ((lines source).set i (dropReturn m)))) := by
  obtain ⟨-, hall⟩ := validate_eq_ok_iff.mp h
  rw [Token.forall_fault?_ofLines] at hall
  refine validate_eq_ok_iff.mpr ⟨by rw [lines_replaceLine source i hm], ?_⟩
  rw [lines_replaceLine source i hm, Token.forall_fault?_ofLines]
  intro l hl
  rcases List.mem_or_eq_of_mem_set hl with hl | rfl
  · exact hall l hl
  · exact hfault

end Validation
end Sproto
