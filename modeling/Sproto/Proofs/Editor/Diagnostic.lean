import Mathlib.Data.List.Forall2
import Sproto.Proofs.Editor.Edit
import Sproto.Proofs.Validation.Location

/-! # Issues and their diagnostics

An issue is brought into the editor protocol's range before it is shown: negative coordinates are
raised, an end before the start is moved, and where this is not enough the issue gives way to a general
remark.  None of this happens to the issues of a document.  They point into it (`Issue.PointsInto`), so
in a document that the protocol can address each of them is shown as it is
(`Diagnostic.ofSource_eq`). -/
namespace Sproto

open Text Validation

/-- An issue points to a part of a line of a document. -/
def Issue.PointsInto (x : Issue) (ls : List Text) : Prop :=
  ∃ (i : Nat) (l : Text), x.line = i ∧ ls[i]? = some l ∧
    0 ≤ x.start ∧ x.start ≤ x.stop ∧ x.stop ≤ l.length

/-- A diagnostic shows an issue where it is and as it is. -/
structure Diagnostic.Shows (x : Issue) (d : Diagnostic) : Prop where
  startLine : x.line = d.range.start.line
  startCharacter : x.start = d.range.start.character
  stopLine : x.line = d.range.stop.line
  stopCharacter : x.stop = d.range.stop.character
  severity : d.severity = some x.severity
  source : d.source = some "sproto"
  message : d.message = x.message
  code : d.code = x.code.map Code.name
  data : d.data = x.data

/-- Every line, and every column of a line, is in the editor protocol's range. -/
structure Addressable (ls : List Text) : Prop where
  lines : ls.length < 2 ^ 31
  columns : ∀ l ∈ ls, l.length < 2 ^ 31

namespace Finding

/-- The part of the document that a finding names. -/
def range (f : Finding) : Range := ⟨⟨f.line, f.start⟩, ⟨f.line, f.stop⟩⟩

/-- The diagnostic that shows a finding. -/
def diagnostic (f : Finding) : Diagnostic :=
  ⟨f.range, some f.problem.severity, some "sproto", f.problem.message, some (.name f.problem.code),
    f.problem.data⟩

theorem pointsInto {f : Finding} {ls : List Text} (h : f.LiesIn ls) : f.issue.PointsInto ls := by
  obtain ⟨l, hl, hwithin⟩ := h
  refine ⟨f.line, l, rfl, hl, Int.natCast_nonneg _, ?_, ?_⟩
  · exact Int.ofNat_le.mpr hwithin.start_le
  · exact Int.ofNat_le.mpr hwithin.stop_le

theorem shows_diagnostic (f : Finding) : f.diagnostic.Shows f.issue :=
  ⟨rfl, rfl, rfl, rfl, rfl, rfl, rfl, rfl, rfl⟩

end Finding

theorem Position.make?_eq {line character : Nat} (hline : line ≤ Fault.maxCoordinate)
    (hcharacter : character ≤ Fault.maxCoordinate) :
    make? line character = .ok ⟨line, character⟩ := by
  have hl : coordinate? .line line = .ok line := coordinate?_eq_ok_iff.mpr ⟨rfl, hline⟩
  have hc : coordinate? .character character = .ok character :=
    coordinate?_eq_ok_iff.mpr ⟨rfl, hcharacter⟩
  rw [make?, hl, hc]
  rfl

/-- **A finding in a document keeps its range.** -/
theorem Finding.range?_issue {f : Finding} {ls : List Text} (h : f.LiesIn ls) (hls : Addressable ls) :
    f.issue.range? = .ok f.range := by
  obtain ⟨l, hl, hwithin⟩ := h
  have hstart := hwithin.start_le
  have hstop := hwithin.stop_le
  have hlength := hls.columns l (List.mem_of_getElem? hl)
  have hcount := hls.lines
  obtain ⟨hline, -⟩ := List.getElem?_eq_some_iff.mp hl
  have hmax : Fault.maxCoordinate = 2147483647 := rfl
  have hmake : ∀ character : Nat, character ≤ f.stop →
      Position.make? f.line character = .ok ⟨f.line, character⟩ :=
    fun character hle => Position.make?_eq (by omega) (by omega)
  -- no coordinate is negative, and the end is not before the start
  have hzero : max 0 f.issue.line = (f.line : Int) := Int.max_eq_right (Int.natCast_nonneg _)
  have hzero' : max 0 f.issue.start = (f.start : Int) := Int.max_eq_right (Int.natCast_nonneg _)
  have hend : max (f.start : Int) f.issue.stop = f.stop :=
    Int.max_eq_right (Int.ofNat_le.mpr hwithin.start_le)
  unfold Issue.range? Range.make?
  simp only [hzero, hzero', hend]
  rw [hmake _ hstart, hmake _ (Nat.le_refl _)]
  rfl

theorem Finding.diagnostic?_issue {f : Finding} {ls : List Text} (h : f.LiesIn ls)
    (hls : Addressable ls) : f.issue.diagnostic? = .ok f.diagnostic := by
  rw [Issue.diagnostic?, f.range?_issue h hls]
  rfl

/-- **The diagnostics of a document are those of its findings, in their order.** -/
theorem Diagnostic.ofSource_eq {source : Text} {r : Report} (h : validate source = .ok r)
    (hls : Addressable (lines source)) :
    ofSource source = .ok (r.findings.map Finding.diagnostic) := by
  rw [ofSource, h]
  show Except.ok (r.issues.map ofIssue) = _
  rw [Report.issues, List.map_map]
  refine congrArg Except.ok (List.map_congr_left fun f hf => ?_)
  rw [Function.comp_apply, ofIssue, f.diagnostic?_issue (liesIn_of_mem h hf) hls]

/-- **Every issue points into the document**, the issues are in the order of their lines, and each of
them is shown where it is. -/
theorem issues_located {source : Text} {r : Report} (h : validate source = .ok r) :
    (∀ x ∈ r.issues, x.PointsInto (lines source)) ∧
      (r.issues.Pairwise fun x x' => x.line ≤ x'.line) ∧
      (Addressable (lines source) →
        ∃ ds, Diagnostic.ofSource source = .ok ds ∧
          List.Forall₂ Diagnostic.Shows r.issues ds) := by
  refine ⟨fun x hx => ?_, ?_, fun hls => ⟨_, Diagnostic.ofSource_eq h hls, ?_⟩⟩
  · obtain ⟨f, hf, rfl⟩ := List.mem_map.mp hx
    exact f.pointsInto (liesIn_of_mem h hf)
  · rw [Report.issues, List.pairwise_map]
    exact (pairwise_line_le h).imp fun hle => Int.ofNat_le.mpr hle
  · rw [Report.issues, List.forall₂_map_left_iff, List.forall₂_map_right_iff]
    exact List.forall₂_same.mpr fun f _ => f.shows_diagnostic

/-- A document with every kind of problem, and with both kinds of line ends. -/
def faultySource : Text :=
  (".Foo  7 \x7b …\r\nfoo 7\x7b\r\n request \x7b\r\n  a 1 : int\n\tb  1 :*int # 1：2\r\n".toList ++
    "  c 2 :\r\n  d 3 \r\n  e \n  f 4；int\n \x7d\n\x7d".toList)

theorem located_faultySource :
    ∃ r, validate faultySource = .ok r ∧ Addressable (lines faultySource) ∧
      r.findings.map (·.problem.code) =
        ["chinese-punctuation", "dotted-protocol-number", "duplicate-protocol", "chinese-punctuation",
          "duplicate-field", "missing-type", "missing-colon", "missing-number-and-type",
          "chinese-punctuation", "invalid-field"] ∧
      (∀ x ∈ r.issues, x.PointsInto (lines faultySource)) ∧
      (r.issues.Pairwise fun x x' => x.line ≤ x'.line) ∧
      ∃ ds, Diagnostic.ofSource faultySource = .ok ds ∧
        List.Forall₂ Diagnostic.Shows r.issues ds := by
  have h : validate faultySource = .ok (Report.ofTokens (Token.ofLines (lines faultySource))) := by
    decide +kernel
  have hls : Addressable (lines faultySource) := ⟨by decide +kernel, by decide +kernel⟩
  obtain ⟨hpoints, hordered, hshown⟩ := issues_located h
  exact ⟨_, h, hls, by decide +kernel, hpoints, hordered, hshown hls⟩

end Sproto
