import Sproto.Proofs.Layout.Document
import Sproto.Proofs.Layout.SecondPass

/-! # Formatting twice

Formatting a balanced document a second time changes nothing (`format_format`): the pass over the rewritten
lines gathers the same sections as the first pass (`Rewritten.gather_same`). -/
namespace Sproto

open Text

/-- A document whose lines are those of a formatted one is accepted, and some banner of it announces a
range. -/
theorem Formatted.hasRange_eq {ts ts' : List Token} (h : Formatted ts ts') :
    hasRange ts' = .ok true := by
  cases h with
  | ranged h hr => rw [hr.hasRange_eq, h]
  | front h hf hr =>
    obtain ⟨r, hrange⟩ := hf.range
    rw [hasRange, if_pos hf.isBanner, hrange]

/-- **Formatting a balanced document twice is formatting it once.** -/
theorem format_format {source out : Text} (h : format source = .ok out) (hb : Balanced source) :
    format out = .ok out := by
  obtain ⟨-, hfault, ranged, hrange, hout⟩ := format_eq_ok h
  have hform := formatted_of_format h hb
  have htokens : Token.ofLines? ((lines out).map trimRight) =
      .ok (Token.ofLines ((lines out).map trimRight)) :=
    Token.ofLines?_eq_ok_iff.mpr
      ⟨rfl, fault_eq_none_of_layoutTokens (hform.fault_eq_none hfault)⟩
  have hranged : hasRange (Token.ofLines ((lines out).map trimRight)) = .ok true := by
    rw [← hasRange_filter]
    exact hform.hasRange_eq
  -- the sections of the two passes have the same lines
  have hsame : List.Forall₂ (Section.Same {})
      (({} : Style).sections (Token.ofLines ((lines source).map trimRight)) ranged)
      (Section.gather none (layoutTokens out)) := by
    generalize layoutTokens out = ts' at hform
    cases hform with
    | ranged h hr =>
      rw [hrange] at h
      cases h
      exact hr.gather_same (by decide) rfl trivial
    | front h hf hr =>
      rw [hrange] at h
      cases h
      have htail : List.Forall₂ (Section.Same {}) (Section.gather none (layoutTokens source))
          (Section.gather none _) := hr.gather_same (by decide) rfl trivial
      rw [Section.gather_none]
      simp only [Section.step, hf.isBanner, Section.cutOff, hf.trim_text, List.nil_append]
      refine .cons ?_ htail
      rw [hf.text_eq, frontBanner_eq, layoutTokens, frontTitle_filter]
      exact .banner _
  have hsecond : ({} : Style).sections (Token.ofLines ((lines out).map trimRight)) true =
      Section.gather none (layoutTokens out) := rfl
  unfold format Style.format
  simp only [htokens, hranged, bind, Except.bind, pure, Except.pure]
  rw [hsecond, ← Section.layOut_congr hsame, ← hout]

/-- A document with a stray line, an empty block over two lines, and a nested type whose last line
closes two braces at once. -/
def nestedSource : Text :=
  "  stray\nfoo ０12 \x7b#x\n request \x7b\n\n \x7d\n response\x7b\n a\t2 :int#c\n".toList ++
    " .in \x7b\n b 0:\n \x7d \x7d\n\x7d".toList

/-- The same document, laid out. -/
def nestedLayout : Text :=
  ({} : Style).banner "Protocol Module 0-99".toList ++
    "\n\n  stray\nfoo 12 \x7b #x\n    request \x7b\x7d\n    response \x7b\n        a 2: int".toList ++
    List.replicate 45 ' ' ++
    "#c\n        .in \x7b\n            b 0:\n        \x7d \x7d\n\x7d\n".toList

theorem format_nestedLayout :
    format nestedSource = .ok nestedLayout ∧ Balanced nestedSource ∧
      format nestedLayout = .ok nestedLayout := by
  have hformat : format nestedSource = .ok nestedLayout := by decide +kernel
  have hbalanced : Balanced nestedSource := by decide +kernel
  exact ⟨hformat, hbalanced, format_format hformat hbalanced⟩

end Sproto
