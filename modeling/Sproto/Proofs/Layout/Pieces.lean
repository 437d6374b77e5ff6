import Mathlib.Data.List.Basic
import Sproto.Text.Basic

/-! # Pieces of a text that is rewritten

A text is rewritten piece by piece: most pieces are kept, some are dropped, and closing braces are
added.  Closing braces that are added can make up for closing braces that were dropped, but only where no
other character stands between them.  `Piece.survives` decides from the pieces whether the old text is a
subsequence of the new one, and `Piece.sublist_iff_survives` says that it decides it rightly. -/
namespace Sproto

open Text

/-- A piece of a text that is rewritten. -/
inductive Piece where
  /-- A text that is written as it was. -/
  | kept (t : Text)
  /-- A text that is not written. -/
  | dropped (t : Text)
  /-- A closing brace that is added. -/
  | closing
  deriving DecidableEq, Repr

namespace Piece

/-- What a piece was. -/
def source : Piece → Text
  | kept t => t
  | dropped t => t
  | closing => []

/-- What is written for a piece. -/
def written : Piece → Text
  | kept t => t
  | dropped _ => []
  | closing => ['}']

/-- What is lost of a piece. -/
def lost : Piece → Text
  | kept _ => []
  | dropped t => t
  | closing => []

/-- Whether a character is a closing brace. -/
def isClose (c : Char) : Bool := c == '}'

/-- Whether all that is dropped is made up for: `owed` closing braces more were dropped than added since
the last character that is none. -/
def survives : Int → List Piece → Bool
  | owed, [] => owed ≤ 0
  | owed, kept t :: ps => if t.all isClose then survives owed ps else owed ≤ 0 && survives 0 ps
  | owed, dropped t :: ps => t.all isClose && survives (owed + t.length) ps
  | owed, closing :: ps => survives (owed - 1) ps

/-! ## Closing braces and other characters -/

theorem eq_replicate_of_all {t : Text} (h : t.all isClose = true) :
    t = List.replicate t.length '}' := by
  refine List.eq_replicate_of_mem fun c hc => ?_
  exact beq_iff_eq.mp (List.all_eq_true.mp h c hc)

/-- A text that is not all closing braces has a first character that is none. -/
theorem exists_of_not_all {t : Text} (h : t.all isClose = false) :
    ∃ n c u, c ≠ '}' ∧ t = List.replicate n '}' ++ c :: u := by
  induction t with
  | nil => cases h
  | cons d t ih =>
    by_cases hd : d = '}'
    · obtain ⟨n, c, u, hc, rfl⟩ := ih (by simpa [isClose, hd] using h)
      exact ⟨n + 1, c, u, hc, by rw [hd]; rfl⟩
    · exact ⟨0, d, t, hd, rfl⟩

/-- How many characters other than closing braces a text has. -/
def weight (t : Text) : Nat := t.countP fun c => !isClose c

theorem weight_append (a b : Text) : weight (a ++ b) = weight a + weight b := List.countP_append

theorem weight_pos {t : Text} (h : t.all isClose = false) : 0 < weight t := by
  obtain ⟨n, c, u, hc, rfl⟩ := exists_of_not_all h
  refine List.countP_pos_iff.mpr ⟨c, by simp, ?_⟩
  simpa [isClose] using hc

theorem weight_le_of_sublist {a b : Text} (h : a.Sublist b) : weight a ≤ weight b := h.countP_le

/-- The rewritten text has no more such characters than the old one. -/
theorem weight_written_le (ps : List Piece) :
    weight (ps.flatMap written) ≤ weight (ps.flatMap source) := by
  induction ps with
  | nil => exact Nat.le_refl _
  | cons p ps ih =>
    rw [List.flatMap_cons, List.flatMap_cons, weight_append, weight_append]
    cases p with
    | kept t => exact Nat.add_le_add_left ih _
    | dropped t => exact Nat.add_le_add (Nat.zero_le _) ih
    | closing => exact Nat.add_le_add (Nat.le_refl _) ih

/-- If the text behind a character that is no closing brace is not longer in the second text, that
character can only be matched by itself. -/
theorem sublist_of_replicate_append {p q : Nat} {c : Char} (hc : c ≠ '}') {x y : Text}
    (hw : weight y ≤ weight x)
    (h : (List.replicate p '}' ++ c :: x).Sublist (List.replicate q '}' ++ c :: y)) :
    p ≤ q ∧ x.Sublist y := by
  induction q generalizing p with
  | zero =>
    cases p with
    | zero => exact ⟨Nat.le_refl _, List.cons_sublist_cons.mp h⟩
    | succ p =>
      -- the brace would have to be matched behind the character
      exfalso
      have htail : (List.replicate (p + 1) '}' ++ c :: x).Sublist y := by
        rw [List.replicate_succ, List.cons_append] at h ⊢
        exact List.Sublist.of_cons_of_ne (Ne.symm hc) h
      have hle := weight_le_of_sublist htail
      have hone : weight (c :: x) = 1 + weight x := by
        rw [weight, List.countP_cons_of_pos (by simpa [isClose] using hc), Nat.add_comm]
        rfl
      rw [weight_append, hone] at hle
      omega
  | succ q ih =>
    cases p with
    | zero =>
      refine ⟨Nat.zero_le _, (ih (p := 0) ?_).2⟩
      rw [List.replicate_succ, List.cons_append] at h
      exact List.Sublist.of_cons_of_ne hc h
    | succ p =>
      rw [List.replicate_succ, List.replicate_succ, List.cons_append, List.cons_append,
        List.cons_sublist_cons] at h
      obtain ⟨hle, hsub⟩ := ih h
      exact ⟨Nat.succ_le_succ hle, hsub⟩

/-! ## What survives -/

/-- Closing braces in front of a text that begins with closing braces. -/
theorem replicate_append_append {t : Text} (h : t.all isClose = true) (n : Nat) (r : Text) :
    List.replicate n '}' ++ (t ++ r) = List.replicate (n + t.length) '}' ++ r := by
  conv_lhs => rw [eq_replicate_of_all h]
  rw [List.replicate_add, List.append_assoc]

/-- A piece that is kept and holds another character than closing braces separates what is before it
from what is behind it. -/
theorem kept_append_sublist_iff {t x y : Text} (h : t.all isClose = false)
    (hw : weight y ≤ weight x) (p q : Nat) :
    (List.replicate p '}' ++ (t ++ x)).Sublist (List.replicate q '}' ++ (t ++ y)) ↔
      p ≤ q ∧ x.Sublist y := by
  obtain ⟨n, c, u, hc, rfl⟩ := exists_of_not_all h
  have hmove : ∀ (m : Nat) (r : Text), List.replicate m '}' ++
      (List.replicate n '}' ++ c :: u ++ r) = List.replicate (m + n) '}' ++ c :: (u ++ r) := by
    intro m r
    rw [List.replicate_add, List.append_assoc, List.append_assoc, List.cons_append]
  rw [hmove, hmove]
  constructor
  · intro hsub
    have hweight : weight (u ++ y) ≤ weight (u ++ x) := by
      rw [weight_append, weight_append]
      omega
    obtain ⟨hpq, htail⟩ := sublist_of_replicate_append hc hweight hsub
    exact ⟨by omega, (List.append_sublist_append_left u).mp htail⟩
  · rintro ⟨hpq, htail⟩
    refine List.Sublist.append ?_ ((htail.append_left u).cons_cons c)
    exact (List.replicate_sublist_replicate _).mpr (by omega)

/-- A piece that is dropped and holds another character than closing braces is missing. -/
theorem not_dropped_append_sublist {t x y : Text} (h : t.all isClose = false)
    (hw : weight y ≤ weight x) (p q : Nat) :
    ¬ (List.replicate p '}' ++ (t ++ x)).Sublist (List.replicate q '}' ++ y) := by
  intro hsub
  have hle := weight_le_of_sublist hsub
  have hpos := weight_pos h
  have hclose : weight (List.replicate q '}') = 0 := by
    rw [weight, List.countP_replicate]
    rfl
  rw [weight_append, weight_append, weight_append, hclose] at hle
  omega

/-- **When a text survives being rewritten**, with some closing braces in front of the old text and of
the new one. -/
theorem replicate_append_sublist_iff (p q : Nat) (ps : List Piece) :
    (List.replicate p '}' ++ ps.flatMap source).Sublist (List.replicate q '}' ++ ps.flatMap written) ↔
      survives (p - q) ps = true := by
  -- the braces in front stand for those since the last other character, so they vary
  induction ps generalizing p q with
  | nil =>
    simp only [List.flatMap_nil, List.append_nil, List.replicate_sublist_replicate, survives,
      decide_eq_true_eq]
    omega
  | cons piece ps ih =>
    rw [List.flatMap_cons, List.flatMap_cons]
    cases piece with
    | closing =>
      have hq : List.replicate q '}' ++ (['}'] ++ ps.flatMap written) =
          List.replicate (q + 1) '}' ++ ps.flatMap written := by
        rw [List.replicate_succ', List.append_assoc]
      have hsub : (p : Int) - (q + 1 : Nat) = p - q - 1 := by omega
      rw [source, written, List.nil_append, hq, ih, survives, hsub]
    | dropped t =>
      rw [source, written, survives, List.nil_append, Bool.and_eq_true]
      cases hall : t.all isClose with
      | true =>
        have hadd : ((p + t.length : Nat) : Int) - q = p - q + t.length := by omega
        rw [replicate_append_append hall, ih, hadd]
        exact ⟨fun h => ⟨rfl, h⟩, And.right⟩
      | false =>
        refine ⟨fun hsub => ?_, fun h => by cases h.1⟩
        exact absurd hsub (not_dropped_append_sublist hall (weight_written_le ps) p q)
    | kept t =>
      rw [source, written, survives]
      cases hall : t.all isClose with
      | true =>
        have hcancel : ((p + t.length : Nat) : Int) - (q + t.length : Nat) = p - q := by omega
        rw [replicate_append_append hall, replicate_append_append hall, ih, hcancel, if_pos rfl]
      | false =>
        have hrest : (ps.flatMap source).Sublist (ps.flatMap written) ↔ survives 0 ps = true :=
          ih 0 0
        have hle : (p : Int) - q ≤ 0 ↔ p ≤ q := by omega
        rw [kept_append_sublist_iff hall (weight_written_le ps), if_neg Bool.false_ne_true,
          Bool.and_eq_true, decide_eq_true_eq, hle, hrest]

/-- **The old text is a subsequence of the new one exactly when it survives.** -/
theorem sublist_iff_survives (ps : List Piece) :
    (ps.flatMap source).Sublist (ps.flatMap written) ↔ survives 0 ps = true :=
  replicate_append_sublist_iff 0 0 ps

/-! ## A text in front -/

/-- Whether all pieces are kept up to the first opening brace. -/
def OpensKept : List Piece → Prop
  | [] => True
  | kept t :: ps => '{' ∈ t ∨ OpensKept ps
  | _ :: _ => False

theorem opensKept_append {ps qs : List Piece} (h : ∀ p ∈ ps, ∃ t, p = kept t) (hq : OpensKept qs) :
    OpensKept (ps ++ qs) := by
  induction ps with
  | nil => exact hq
  | cons p ps ih =>
    obtain ⟨⟨t, rfl⟩, htail⟩ := List.forall_mem_cons.mp h
    exact Or.inr (ih htail)

/-- An opening brace that is the first one of the second text is matched by no later one. -/
theorem sublist_of_openBrace {w f x y : Text} (hf : '{' ∉ f)
    (h : (w ++ '{' :: x).Sublist (f ++ '{' :: y)) : x.Sublist y := by
  have htail : ('{' :: x).Sublist (f ++ '{' :: y) := (List.sublist_append_right w _).trans h
  clear h
  induction f with
  | nil => exact List.cons_sublist_cons.mp htail
  | cons c f ih =>
    rw [List.mem_cons, not_or] at hf
    exact ih hf.2 (List.Sublist.of_cons_of_ne hf.1 htail)

/-- **A text in front of the new one does not help**, if it has no opening brace and nothing is dropped
before the first one. -/
theorem survives_of_sublist_append {ps : List Piece} (ho : OpensKept ps) {front : Text}
    (hf : '{' ∉ front) (h : (ps.flatMap source).Sublist (front ++ ps.flatMap written)) :
    survives 0 ps = true := by
  induction ps generalizing front with
  | nil => rfl
  | cons p ps ih =>
    cases p with
    | dropped t => cases ho
    | closing => cases ho
    | kept t =>
      have hnext : survives 0 ps = true := by
        rw [List.flatMap_cons, List.flatMap_cons, source, written] at h
        by_cases hbrace : '{' ∈ t
        · obtain ⟨w, r, rfl, hw⟩ := List.eq_append_cons_of_mem hbrace
          rw [← sublist_iff_survives, ← List.append_sublist_append_left r]
          refine sublist_of_openBrace (w := w) (f := front ++ w) ?_ ?_
          · rw [List.mem_append, not_or]
            exact ⟨hf, hw⟩
          · simpa using h
        · refine ih (ho.resolve_left hbrace) (show '{' ∉ front ++ t from ?_) ?_
          · rw [List.mem_append, not_or]
            exact ⟨hf, hbrace⟩
          · rw [List.append_assoc]
            exact (List.sublist_append_right t _).trans h
      rw [survives, hnext]
      split <;> rfl

/-! ## What is lost -/

/-- A text of which nothing is lost survives. -/
theorem survives_of_lost_eq_nil {ps : List Piece} (h : ps.flatMap lost = []) :
    survives 0 ps = true := by
  rw [← sublist_iff_survives]
  induction ps with
  | nil => exact List.Sublist.slnil
  | cons p ps ih =>
    rw [List.flatMap_cons, List.append_eq_nil_iff] at h
    rw [List.flatMap_cons, List.flatMap_cons]
    have hrest := ih h.2
    cases p with
    | kept t => exact hrest.append_left t
    | dropped t =>
      have hnil : t = [] := h.1
      rw [hnil]
      exact hrest
    | closing => exact hrest.trans (List.sublist_append_right _ _)

/-- Where no closing brace is added, nothing that is lost can be made up for. -/
theorem lost_eq_nil_of_survives {ps : List Piece} (hc : closing ∉ ps) {owed : Nat}
    (h : survives owed ps = true) : owed = 0 ∧ ps.flatMap lost = [] := by
  induction ps generalizing owed with
  | nil =>
    simp only [survives, decide_eq_true_eq] at h
    exact ⟨by omega, rfl⟩
  | cons p ps ih =>
    rw [List.mem_cons, not_or] at hc
    rw [List.flatMap_cons]
    cases p with
    | closing => exact absurd rfl hc.1
    | dropped t =>
      rw [survives, Bool.and_eq_true] at h
      have hnext : survives (owed + t.length : Nat) ps = true := h.2
      obtain ⟨hzero, hrest⟩ := ih hc.2 hnext
      have hnil : t = [] := List.length_eq_zero_iff.mp (by omega)
      refine ⟨by omega, ?_⟩
      rw [hrest, hnil]
      rfl
    | kept t =>
      rw [survives] at h
      split at h
      · exact ih hc.2 h
      · rw [Bool.and_eq_true, decide_eq_true_eq] at h
        have hnext : survives (0 : Nat) ps = true := h.2
        obtain ⟨-, hrest⟩ := ih hc.2 hnext
        exact ⟨by omega, hrest⟩

end Piece
end Sproto
