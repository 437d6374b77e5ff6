import Sproto.Proofs.Validation.Punctuation

/-! # Where findings lie

Each kind of problem computes its columns in its own way: from a mark, from the parts of a declaration
or of a field, or from the first place where a malformed field goes wrong.  All of them lie on the
line that is checked (`Moves.within`), so every finding of a document lies in it (`liesIn_of_mem`).

The lines are checked one after another.  A relation that holds between findings of different lines
and along each line holds along all that is found (`pairwise_foundAbove`); that the findings are in the
order of their lines is the simplest case. -/
namespace Sproto

open Text

namespace Finding

/-- The columns of a finding lie within a line. -/
structure Within (f : Finding) (l : Text) : Prop where
  start_le : f.start ≤ f.stop
  stop_le : f.stop ≤ l.length

/-- A finding lies on a line of a document. -/
def LiesIn (f : Finding) (ls : List Text) : Prop := ∃ l, ls[f.line]? = some l ∧ f.Within l

end Finding

/-- A line that is no field goes wrong before its end. -/
theorem fieldProblem_fst_le (l : Text) : (fieldProblem l).1 ≤ l.length := by
  unfold fieldProblem
  split
  · exact (List.takeWhile_prefix _).length_le
  · rcases hcolon : missingColon? l with _ | start
    · rcases hnumber : missingNumber? l with _ | start
      · exact Nat.zero_le _
      · obtain ⟨⟨w, r⟩, -, h⟩ := Option.bind_eq_some_iff.mp hnumber
        obtain ⟨-, hstart⟩ := Option.ite_none_right_eq_some.mp h
        cases hstart
        exact Nat.sub_le _ _
    · obtain ⟨⟨name, n, r⟩, -, h⟩ := Option.bind_eq_some_iff.mp hcolon
      obtain ⟨-, hstart⟩ := Option.ite_none_right_eq_some.mp h
      cases hstart
      exact Nat.sub_le _ _

namespace Validation

variable {s s' : State} {t : Token} {f : Finding} {fs : List Finding}

theorem within_punctuationFindings (h : f ∈ punctuationFindings t) : f.Within t.text := by
  obtain ⟨c, r, -, hstop, hc, -⟩ := exists_mark_of_mem h
  obtain ⟨hlt, -⟩ := List.getElem?_eq_some_iff.mp hc
  constructor <;> omega

/-- The part between the name of a declaration and the end of its brace lies on the line. -/
theorem within_declaration (ht : t.Genuine) {name rest : Text} {number : Option Numeral}
    (h : t.shape = .protocol name number rest) (i : Nat) (p : Problem) :
    Finding.Within ⟨i, name.length, t.matchEnd, p⟩ t.text := by
  obtain ⟨-, -, m, -, htext⟩ := ht.protocol h
  have hlength := congrArg List.length htext
  simp only [List.length_append, List.length_cons] at hlength
  have hend : t.matchEnd = t.text.length - rest.length := by rw [Token.matchEnd, h]
  constructor
  · show name.length ≤ t.matchEnd
    omega
  · show t.matchEnd ≤ t.text.length
    omega

theorem within_typeFindings (ht : t.Genuine) {name rest : Text} {number : Option Numeral}
    (h : t.shape = .protocol name number rest) (hf : f ∈ typeFindings t name) : f.Within t.text := by
  unfold typeFindings at hf
  split at hf
  · obtain rfl := List.mem_singleton.mp hf
    exact within_declaration ht h _ _
  · cases hf

/-- The part between the name of a field and the end of its colon lies on the line. -/
theorem within_field (ht : t.Genuine) {name body : Text} {n : Numeral}
    (h : t.shape = .field name n body) (i : Nat) (p : Problem) :
    Finding.Within ⟨i, t.text.length - (trimLeft t.text).length + name.length,
      t.text.length - body.length, p⟩ t.text := by
  obtain ⟨hname, -, a, g, b, ha, -, -, -, htext⟩ := ht.field h
  have htrim : trimLeft t.text = name ++ (g ++ (n.digits ++ (b ++ ':' :: body))) := by
    rw [htext, trimLeft_append_of_isBlank ha, trimLeft_of_stops (Shape.stops_isSpace_of_isName hname)]
  have hlength := congrArg List.length htext
  have htrimmed := congrArg List.length htrim
  simp only [List.length_append, List.length_cons] at hlength htrimmed
  constructor
  · show t.text.length - (trimLeft t.text).length + name.length ≤ t.text.length - body.length
    omega
  · exact Nat.sub_le _ _

/-- **What is found on a line lies within it.** -/
theorem Moves.within (ht : t.Genuine) (h : Moves s t s' fs) (hf : f ∈ fs) : f.Within t.text := by
  cases h with
  | header | leave => cases hf
  | enter | pass | take | skip => exact within_punctuationFindings hf
  | register hs hshape =>
    rcases List.mem_append.mp hf with hf | hf
    · exact within_punctuationFindings hf
    · exact within_typeFindings ht hshape hf
  | repeatProtocol hs hshape =>
    rcases List.mem_append.mp hf with hf | hf
    · exact within_punctuationFindings hf
    · rcases List.mem_append.mp hf with hf | hf
      · exact within_typeFindings ht hshape hf
      · obtain rfl := List.mem_singleton.mp hf
        exact within_declaration ht hshape _ _
  | repeatField hs hshape =>
    rcases List.mem_append.mp hf with hf | hf
    · exact within_punctuationFindings hf
    · obtain rfl := List.mem_singleton.mp hf
      exact within_field ht hshape _ _
  | fault =>
    rcases List.mem_append.mp hf with hf | hf
    · exact within_punctuationFindings hf
    · obtain rfl := List.mem_singleton.mp hf
      exact ⟨fieldProblem_fst_le t.text, Nat.le_refl _⟩

/-- **What is found in a document lies in it.** -/
theorem liesIn_of_mem {source : Text} {r : Report} (h : validate source = .ok r)
    (hf : f ∈ r.findings) : f.LiesIn (lines source) := by
  obtain ⟨l, hl, hstep⟩ := exists_step_of_mem h hf
  have hgenuine := Token.genuine_read (not_mem_of_mem_lines (List.mem_of_getElem? hl)) f.line
  exact ⟨l, hl, (moves_step _ hgenuine).within hgenuine hstep⟩

/-! ## Along the lines -/

variable {ls : List Text} {i : Nat}

theorem line_lt_of_mem_foundAbove (hls : ∀ l ∈ ls, '\n' ∉ l) (hf : f ∈ foundAbove ls i) :
    f.line < i := by
  rw [foundAbove, Token.ofLines_eq_numbered] at hf
  have hlt := (line_of_mem_run_numbered (fun l hl => hls l (List.mem_of_mem_take hl)) hf).2
  rw [List.length_take] at hlt
  omega

/-- **What relates findings of different lines and those of each line relates all that is found.** -/
theorem pairwise_foundAbove {R : Finding → Finding → Prop} (hls : ∀ l ∈ ls, '\n' ∉ l)
    (hlines : ∀ f f', f.line < f'.line → R f f')
    (hline : ∀ i l, ls[i]? = some l → ((State.before ls i).step (Token.read i l)).2.Pairwise R)
    (hi : i ≤ ls.length) : (foundAbove ls i).Pairwise R := by
  induction i with
  | zero => exact .nil
  | succ i ih =>
    have hl : ls[i]? = some ls[i] := List.getElem?_eq_getElem hi
    have hgenuine := Token.genuine_read (hls _ (List.getElem_mem hi)) i
    rw [foundAbove_succ hl]
    refine List.pairwise_append.mpr ⟨ih (by omega), hline i _ hl, fun f hf f' hf' => ?_⟩
    have habove := line_lt_of_mem_foundAbove hls hf
    have hhere : f'.line = i := (moves_step _ hgenuine).line_eq hf'
    exact hlines f f' (by omega)

/-- The findings of a document, by a relation between its lines and along each of them. -/
theorem pairwise_findings {R : Finding → Finding → Prop} {source : Text} {r : Report}
    (h : validate source = .ok r) (hlines : ∀ f f', f.line < f'.line → R f f')
    (hline : ∀ i l, (lines source)[i]? = some l →
      ((State.before (lines source) i).step (Token.read i l)).2.Pairwise R) :
    r.findings.Pairwise R := by
  have hls : ∀ l ∈ lines source, '\n' ∉ l := fun l hl => not_mem_of_mem_lines hl
  obtain ⟨rfl, -⟩ := validate_eq_ok_iff.mp h
  have hpairs := pairwise_foundAbove hls hlines hline (Nat.le_refl _)
  rwa [foundAbove_length] at hpairs

/-- The findings of a document are in the order of their lines. -/
theorem pairwise_line_le {source : Text} {r : Report} (h : validate source = .ok r) :
    r.findings.Pairwise fun f f' => f.line ≤ f'.line := by
  refine pairwise_findings h (fun f f' hlt => Nat.le_of_lt hlt) fun i l hl => ?_
  have hgenuine := Token.genuine_read (not_mem_of_mem_lines (List.mem_of_getElem? hl)) i
  refine List.pairwise_of_forall_mem_list fun f hf f' hf' => ?_
  rw [(moves_step _ hgenuine).line_eq hf, (moves_step _ hgenuine).line_eq hf']

end Validation
end Sproto
