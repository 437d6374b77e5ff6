import Sproto.Proofs.Text.Lines
import Sproto.Proofs.Validation.Step

/-! # Reports, line by line

A report is what a pass over the lines of the document finds (`validate_eq_ok_iff`).  The issues on a
line are those of the step over that line (`issuesAt_eq`), so a claim on what is reported, on which
lines and how often, is settled line by line (`reportsExactly_of_lines`). -/
namespace Sproto

open Text

@[simp] theorem Finding.issue_line (f : Finding) : f.issue.line = f.line := rfl

@[simp] theorem Finding.issue_code (f : Finding) : f.issue.code = some f.problem.code := rfl

/-- The issues of a report that have a code and lie on a line. -/
def Report.issuesAt (r : Report) (code : String) (line : Int) : List Issue :=
  r.issues.filter fun x => x.code = some code && x.line = line

/-- Under a code, a report has one issue on each line for which `cites` gives a message, with that
message, and none on any other line. -/
def Report.ReportsExactly (r : Report) (code : String) (cites : Nat → String → Prop) : Prop :=
  ∀ line : Int, (r.issuesAt code line).length ≤ 1 ∧
    ∀ m, (∃ x ∈ r.issuesAt code line, x.message = m) ↔ ∃ i : Nat, line = i ∧ cites i m

namespace Validation

theorem validate_eq_ok_iff {source : Text} {r : Report} :
    validate source = .ok r ↔
      r = Report.ofTokens (Token.ofLines (lines source)) ∧
        ∀ t ∈ Token.ofLines (lines source), t.fault? = none := by
  unfold validate Token.ofSource?
  constructor
  · intro h
    cases htokens : Token.ofLines? (lines source) with
    | error f => rw [htokens] at h; cases h
    | ok ts =>
      obtain ⟨rfl, hfault⟩ := Token.ofLines?_eq_ok_iff.mp htokens
      rw [htokens] at h
      cases h
      exact ⟨rfl, hfault⟩
  · rintro ⟨rfl, hfault⟩
    rw [Token.ofLines?_eq_ok_iff.mpr ⟨rfl, hfault⟩]
    rfl

/-- What validation finds on line `i` under a code. -/
def foundAt (ls : List Text) (code : String) (i : Nat) (l : Text) : List Finding :=
  ((State.before ls i).step (Token.read i l)).2.filter fun f => f.problem.code = code

theorem issuesAt_eq {source : Text} {r : Report} (h : validate source = .ok r) (code : String)
    {i : Nat} {l : Text} (hl : (lines source)[i]? = some l) :
    r.issuesAt code i = (foundAt (lines source) code i l).map Finding.issue := by
  obtain ⟨rfl, -⟩ := validate_eq_ok_iff.mp h
  rw [foundAt, ← filter_line_run (fun l hl => not_mem_of_mem_lines hl) hl, List.filter_filter]
  rw [Report.issuesAt, Report.issues, List.filter_map]
  refine congrArg _ (List.filter_congr fun f _ => ?_)
  simp only [Function.comp_apply, Finding.issue_code, Finding.issue_line, Option.some.injEq,
    Int.natCast_inj]

theorem issuesAt_eq_nil {source : Text} {r : Report} (h : validate source = .ok r) (code : String)
    {line : Int} (hline : ∀ (i : Nat) (l : Text), (lines source)[i]? = some l → line ≠ i) :
    r.issuesAt code line = [] := by
  obtain ⟨rfl, -⟩ := validate_eq_ok_iff.mp h
  rw [Report.issuesAt, List.filter_eq_nil_iff]
  intro x hx hcode
  obtain ⟨f, hf, rfl⟩ := List.mem_map.mp hx
  rw [Token.ofLines_eq_numbered] at hf
  have hlt := (line_of_mem_run_numbered (fun l hl => not_mem_of_mem_lines hl) hf).2
  rw [Nat.zero_add] at hlt
  refine hline f.line _ (List.getElem?_eq_getElem hlt) ?_
  exact (of_decide_eq_true (Bool.and_eq_true_iff.mp hcode).2).symm

/-- **From lines to documents**: what is found line by line is what is reported. -/
theorem reportsExactly_of_lines {source : Text} {r : Report} (h : validate source = .ok r)
    {code : String} {cites : Nat → String → Prop}
    (hcites : ∀ i m, cites i m → ∃ l, (lines source)[i]? = some l)
    (hfound : ∀ i l, (lines source)[i]? = some l →
      (∃ m, (foundAt (lines source) code i l).map (fun f => f.problem.message) = [m] ∧
        ∀ m', cites i m' ↔ m' = m) ∨
      (foundAt (lines source) code i l = [] ∧ ∀ m, ¬ cites i m)) :
    r.ReportsExactly code cites := by
  intro line
  by_cases hline : ∃ (i : Nat) (l : Text), (lines source)[i]? = some l ∧ line = i
  · obtain ⟨i, l, hl, rfl⟩ := hline
    have hcast : ∀ m, (∃ j : Nat, (i : Int) = j ∧ cites j m) ↔ cites i m := by
      intro m
      constructor
      · rintro ⟨j, hj, hm⟩
        rwa [Int.ofNat_inj.mp hj]
      · exact fun hm => ⟨i, rfl, hm⟩
    rw [issuesAt_eq h code hl]
    rcases hfound i l hl with ⟨m, hm, hiff⟩ | ⟨hnil, hnone⟩
    · obtain ⟨f, hf, rfl⟩ := List.map_eq_singleton_iff.mp hm
      rw [hf]
      refine ⟨Nat.le_refl 1, fun m' => ?_⟩
      rw [hcast, hiff]
      constructor
      · rintro ⟨x, hx, rfl⟩
        rw [List.mem_singleton.mp hx]
        rfl
      · rintro rfl
        exact ⟨f.issue, List.mem_singleton_self _, rfl⟩
    · rw [hnil]
      refine ⟨Nat.zero_le 1, fun m => ?_⟩
      rw [hcast]
      simp [hnone m]
  · have hnil : r.issuesAt code line = [] :=
      issuesAt_eq_nil h code fun i l hl heq => hline ⟨i, l, hl, heq⟩
    rw [hnil]
    refine ⟨Nat.zero_le 1, fun m => ?_⟩
    constructor
    · rintro ⟨x, hx, -⟩
      cases hx
    · rintro ⟨i, rfl, hm⟩
      obtain ⟨l, hl⟩ := hcites i m hm
      exact absurd ⟨i, l, hl, rfl⟩ hline

end Validation
end Sproto
