import Sproto.Line.Braces
import Sproto.Proofs.Text.Reader

/-! # Counting braces

The balance of a line is counted character by character, so it depends on the solid text alone, and
digits do not count.  Writing a number in other digits and moving white space about therefore leaves
the balance as it is (`braceBalance_congr`). -/
namespace Sproto

open Text

/-- What a character adds to the balance of a line. -/
def braceWeight (c : Char) : Int := if c = '{' then 1 else if c = '}' then -1 else 0

theorem braceBalance_hash (t : Text) : braceBalance ('#' :: t) = 0 := rfl

theorem braceBalance_cons {c : Char} (hc : c ≠ '#') (t : Text) :
    braceBalance (c :: t) = braceWeight c + braceBalance t := by
  have hb : beforeComment (c :: t) = c :: beforeComment t := by
    rw [beforeComment, List.takeWhile_cons_of_pos (by simpa using hc)]
    rfl
  rw [braceBalance, hb, List.count_cons, List.count_cons, braceBalance, braceWeight]
  by_cases h₁ : c = '{'
  · subst h₁
    simp
    omega
  · by_cases h₂ : c = '}'
    · subst h₂
      simp
      omega
    · simp [h₁, h₂]

theorem braceWeight_of_isSpace {c : Char} (hc : isSpace c = true) : braceWeight c = 0 := by
  have h₁ : c ≠ '{' := by rintro rfl; cases hc
  have h₂ : c ≠ '}' := by rintro rfl; cases hc
  rw [braceWeight, if_neg h₁, if_neg h₂]

theorem braceWeight_of_isWord {c : Char} (hc : isWord c = true) : braceWeight c = 0 := by
  rw [braceWeight, if_neg (ne_of_isWord hc isWord_openBrace),
    if_neg (ne_of_isWord hc isWord_closeBrace)]

theorem braceBalance_of_isWord_append {w : Text} (hw : ∀ c ∈ w, isWord c = true) (t : Text) :
    braceBalance (w ++ t) = braceBalance t := by
  induction w with
  | nil => rfl
  | cons c w ih =>
    have hc := hw c List.mem_cons_self
    rw [List.cons_append, braceBalance_cons (ne_of_isWord hc isWord_hash), braceWeight_of_isWord hc,
      ih fun d hd => hw d (List.mem_cons_of_mem _ hd), Int.zero_add]

/-- **The balance of a line is that of its solid text.** -/
theorem braceBalance_solid (t : Text) : braceBalance (solid t) = braceBalance t := by
  induction t with
  | nil => rfl
  | cons c t ih =>
    cases hs : isSpace c with
    | true =>
      have hc : c ≠ '#' := by rintro rfl; cases hs
      rw [solid_cons_of_isSpace hs, braceBalance_cons hc, braceWeight_of_isSpace hs, ih,
        Int.zero_add]
    | false =>
      rw [solid_cons_of_not_isSpace hs]
      by_cases hc : c = '#'
      · rw [hc, braceBalance_hash, braceBalance_hash]
      · rw [braceBalance_cons hc, braceBalance_cons hc, ih]

/-- Two texts that agree up to one run of digits. -/
def SameButDigits (a b : Text) : Prop :=
  ∃ u d e v, (∀ c ∈ d, isDigit c = true) ∧ (∀ c ∈ e, isDigit c = true) ∧
    a = u ++ (d ++ v) ∧ b = u ++ (e ++ v)

theorem SameButDigits.refl (a : Text) : SameButDigits a a :=
  ⟨a, [], [], [], by simp, by simp, by simp, by simp⟩

theorem SameButDigits.of_eq {a b : Text} (h : a = b) : SameButDigits a b := h ▸ .refl a

theorem braceBalance_append_digits (u : Text) {d : Text} (hd : ∀ c ∈ d, isDigit c = true) (v : Text) :
    braceBalance (u ++ (d ++ v)) = braceBalance (u ++ v) := by
  induction u with
  | nil => exact braceBalance_of_isWord_append (fun c hc => isWord_of_isDigit (hd c hc)) v
  | cons c u ih =>
    rw [List.cons_append, List.cons_append]
    by_cases hc : c = '#'
    · rw [hc, braceBalance_hash, braceBalance_hash]
    · rw [braceBalance_cons hc, braceBalance_cons hc, ih]

/-- **Lines with the same solid text up to digits have the same balance.** -/
theorem braceBalance_congr {a b : Text} (h : SameButDigits (solid a) (solid b)) :
    braceBalance a = braceBalance b := by
  obtain ⟨u, d, e, v, hd, he, ha, hb⟩ := h
  calc braceBalance a = braceBalance (u ++ (d ++ v)) := by rw [← ha, braceBalance_solid]
    _ = braceBalance (u ++ v) := braceBalance_append_digits u hd v
    _ = braceBalance (u ++ (e ++ v)) := (braceBalance_append_digits u he v).symm
    _ = braceBalance b := by rw [← hb, braceBalance_solid]

end Sproto
