import Sproto.Layout.Style
import Sproto.Line.Shape
import Sproto.Proofs.Line.Braces

/-! # Fields and comments as they are written

The content of a field is code and a comment, and both are found again in the line that is written for
the field, whatever white space stands around them (`splitComment_join`).  The lines of a field and of a
comment do not end in white space and hold the solid text they were made from. -/
namespace Sproto

open Text

/-! ## Code and comment -/

theorem beforeComment_append {a : Text} (ha : '#' ∉ a) (t : Text) :
    beforeComment (a ++ t) = a ++ beforeComment t :=
  List.takeWhile_append_of_pos fun c hc => by
    simpa using fun h : c = '#' => ha (h ▸ hc)

theorem dropWhile_ne_hash_append {a : Text} (ha : '#' ∉ a) (t : Text) :
    (a ++ t).dropWhile (· != '#') = t.dropWhile (· != '#') :=
  List.dropWhile_append_of_pos fun c hc => by
    simpa using fun h : c = '#' => ha (h ▸ hc)

theorem not_mem_of_isBlank {a : Text} {c : Char} (ha : isBlank a = true) (hc : isSpace c = false) :
    c ∉ a := by
  intro h
  rw [isBlank_iff.mp ha c h] at hc
  cases hc

theorem not_mem_beforeComment (t : Text) : '#' ∉ beforeComment t := by
  intro h
  simpa using List.mem_takeWhile_imp h

/-- The comment of a text, from its hash sign on, trimmed. -/
def commentOf (t : Text) : Option Text :=
  match t.dropWhile (· != '#') with
  | [] => none
  | c :: u => some (trim (c :: u))

theorem dropWhile_ne_hash_cases (t : Text) :
    ('#' ∉ t ∧ t.dropWhile (· != '#') = []) ∨
      ∃ u, t = beforeComment t ++ '#' :: u ∧ t.dropWhile (· != '#') = '#' :: u := by
  cases h : t.dropWhile (· != '#') with
  | nil =>
    refine Or.inl ⟨?_, rfl⟩
    intro hmem
    simpa using List.dropWhile_eq_nil_iff.mp h _ hmem
  | cons c u =>
    have hc : c = '#' := by
      have hd := List.head?_dropWhile_not (· != '#') t
      rw [h] at hd
      simpa using hd
    refine Or.inr ⟨u, ?_, by rw [hc]⟩
    conv_lhs => rw [← List.takeWhile_append_dropWhile (p := (· != '#')) (l := t), h, hc]
    rfl

namespace Style

/-- **A field's content is its code and its comment**, each trimmed, wherever the content is trimmed. -/
theorem splitComment_eq (t : Text) : splitComment t = (trim (beforeComment t), commentOf t) := by
  obtain ⟨a, ha, ht⟩ := exists_append_trimLeft t
  obtain ⟨b, hb, hb'⟩ := exists_trimRight_append (trimLeft t)
  change trimLeft t = trim t ++ b at hb'
  rw [hb'] at ht
  have hha := not_mem_of_isBlank ha isSpace_hash
  have hhb := not_mem_of_isBlank hb isSpace_hash
  unfold splitComment commentOf
  rcases dropWhile_ne_hash_cases (trim t) with ⟨hno, hnil⟩ | ⟨u, htrim, hcons⟩
  · have hnot : '#' ∉ t := by
      rw [ht]
      simp [hha, hno, hhb]
    have hbefore : beforeComment t = t := by
      have h := beforeComment_append hnot []
      simpa using h
    have hdrop : t.dropWhile (· != '#') = [] := by
      have h := dropWhile_ne_hash_append hnot []
      simpa using h
    simp only [hnil, hdrop, hbefore]
  · have hbefore : beforeComment t = a ++ beforeComment (trim t) := by
      conv_lhs => rw [ht, beforeComment_append hha, htrim, List.append_assoc,
        beforeComment_append (not_mem_beforeComment _)]
      simp [beforeComment]
    have hdrop : t.dropWhile (· != '#') = '#' :: u ++ b := by
      rw [ht, dropWhile_ne_hash_append hha, htrim, List.append_assoc,
        dropWhile_ne_hash_append (not_mem_beforeComment _)]
      rfl
    simp only [hcons, hdrop, hbefore]
    rw [trim_append_of_isBlank_left ha]
    simp only [List.cons_append]
    rw [← List.cons_append, trim_append_of_isBlank_right _ hb]
    rfl

/-- A comment as it stands behind code: it begins with its hash sign and is trimmed. -/
def IsComment (k : Option Text) : Prop := ∀ c, k = some c → c.head? = some '#' ∧ trim c = c

theorem isComment_commentOf (t : Text) : IsComment (commentOf t) := by
  intro c hc
  unfold commentOf at hc
  rcases dropWhile_ne_hash_cases t with ⟨-, hnil⟩ | ⟨u, -, hcons⟩
  · rw [hnil] at hc; cases hc
  · rw [hcons] at hc
    cases hc
    refine ⟨?_, trim_trim _⟩
    rw [trim, trimLeft_cons_of_not_isSpace isSpace_hash, trimRight_cons_of_not_isSpace isSpace_hash]
    rfl

/-- **Code and comment are found again in any text that joins them with white space.** -/
theorem splitComment_join {a code w : Text} {k : Option Text} (ha : isBlank a = true)
    (hcode : trim code = code) (hhash : '#' ∉ code) (hw : isBlank w = true) (hk : IsComment k) :
    splitComment (a ++ (code ++ (w ++ k.getD []))) = (code, k) := by
  have hha := not_mem_of_isBlank ha isSpace_hash
  have hhw := not_mem_of_isBlank hw isSpace_hash
  have htrim : trim (a ++ (code ++ w)) = code := by
    rw [trim_append_of_isBlank_left ha, trim_append_of_isBlank_right _ hw, hcode]
  have hbefore : ∀ r, beforeComment (a ++ (code ++ (w ++ r))) = a ++ (code ++ (w ++ beforeComment r)) :=
    fun r => by rw [beforeComment_append hha, beforeComment_append hhash, beforeComment_append hhw]
  have hdrop : ∀ r, (a ++ (code ++ (w ++ r))).dropWhile (· != '#') = r.dropWhile (· != '#') :=
    fun r => by
      rw [dropWhile_ne_hash_append hha, dropWhile_ne_hash_append hhash, dropWhile_ne_hash_append hhw]
  rw [splitComment_eq, hbefore, commentOf, hdrop]
  cases k with
  | none =>
    simp only [Option.getD_none, beforeComment_nil, List.append_nil, List.dropWhile_nil]
    rw [htrim]
  | some c =>
    obtain ⟨hc, hct⟩ := hk c rfl
    obtain ⟨u, rfl⟩ : ∃ u, c = '#' :: u := by
      cases c with
      | nil => cases hc
      | cons d u => cases hc; exact ⟨u, rfl⟩
    simp only [Option.getD_some]
    rw [show beforeComment ('#' :: u) = [] from rfl, List.append_nil, htrim,
      show ('#' :: u).dropWhile (· != '#') = '#' :: u from rfl]
    simp only [hct]

theorem solid_splitComment (t : Text) :
    solid t = solid (splitComment t).1 ++ solid ((splitComment t).2.getD []) := by
  rw [splitComment_eq, solid_trim]
  rcases dropWhile_ne_hash_cases t with ⟨hno, hnil⟩ | ⟨u, ht, hcons⟩
  · have hbefore : beforeComment t = t := by
      have h := beforeComment_append hno []
      simpa using h
    simp [commentOf, hnil, hbefore]
  · simp only [commentOf, hcons, Option.getD_some, solid_trim]
    rw [← solid_append, ← ht]

/-! ## The line of a field -/

theorem isBlank_fill (n : Int) : isBlank (fill ' ' n) = true := isBlank_replicate _

theorem isBlank_margin (s : Style) (level : Int) : isBlank (s.margin level) = true := isBlank_fill _

theorem margin_ne_nil {s : Style} (hs : 0 < s.indent) {level : Int} (hl : 0 < level) :
    s.margin level ≠ [] := by
  have h : 0 < s.indent * level := Int.mul_pos hs hl
  simp only [margin, fill, ne_eq, List.replicate_eq_nil_iff]
  omega

/-- The line of a field: margin, name, number and colon, and behind the colon its code and its
comment with blanks before them, and no white space at the end. -/
theorem exists_fieldLine (s : Style) (level : Int) (name number content : Text) :
    ∃ i j : Nat, s.fieldLine level name number content =
        s.margin level ++ (name ++ ([' '] ++ (number ++ ([] ++ ':' ::
          (List.replicate i ' ' ++ ((splitComment content).1 ++
            (List.replicate j ' ' ++ (splitComment content).2.getD []))))))) ∧
      trimRight (s.fieldLine level name number content) = s.fieldLine level name number content := by
  have hcode : trim (splitComment content).1 = (splitComment content).1 := by
    rw [splitComment_eq, trim_trim]
  have hk : IsComment (splitComment content).2 := by
    rw [splitComment_eq]
    exact isComment_commentOf content
  unfold fieldLine
  generalize splitComment content = p at hcode hk
  obtain ⟨code, k⟩ := p
  simp only at hcode hk ⊢
  -- the part up to the comment: the blank behind the colon goes when there is no code
  have hline : ∃ i : Nat,
      trimRight (s.margin level ++ name ++ ' ' :: number ++ ':' :: ' ' :: code) =
        s.margin level ++ (name ++ ([' '] ++ (number ++ ':' :: (List.replicate i ' ' ++ code)))) := by
    rw [trimRight_append_cons _ isSpace_colon]
    cases code with
    | nil => exact ⟨0, by simp [trimRight_eq_nil_iff.mpr (show isBlank [' '] = true from rfl)]⟩
    | cons c u =>
      refine ⟨1, ?_⟩
      have hc : isSpace c = false := by
        rw [← trimLeft_trimRight] at hcode
        exact isSpace_of_trimLeft_eq_cons hcode
      have hu : trimRight (c :: u) = c :: u := by
        rw [← hcode, trimRight_trim]
      have hstep := trimRight_append_cons [' '] hc u
      rw [trimRight_cons_of_not_isSpace hc, List.cons.injEq] at hu
      rw [hu.2] at hstep
      rw [show (' ' : Char) :: c :: u = [' '] ++ c :: u from rfl, hstep]
      simp
  obtain ⟨i, hline⟩ := hline
  cases k with
  | none =>
    refine ⟨i, 0, ?_, trimRight_trimRight _⟩
    simp only
    rw [hline]
    simp
  | some c =>
    obtain ⟨hc, hct⟩ := hk c rfl
    have hne : c ≠ [] := by rintro rfl; cases hc
    have hend : trimRight c = c := by rw [← hct, trimRight_trim]
    simp only [hline]
    generalize max 1 (s.commentColumn - _) = n
    refine ⟨i, n.toNat + 1, ?_, ?_⟩
    · rw [List.replicate_succ']
      simp [fill]
    · rw [show ∀ l : Text, l ++ fill ' ' n ++ ' ' :: c = (l ++ fill ' ' n ++ [' ']) ++ c by simp]
      exact trimRight_append_of_ne_nil _ hne hend

/-! ## The line of a comment -/

theorem commentLine_eq {line rest : Text} (h : trim line = '#' :: rest) :
    commentLine line = '#' :: trimRight (' ' :: trimLeft rest) := by
  rw [commentLine, h]
  exact trimRight_cons_of_not_isSpace isSpace_hash _

theorem trim_commentLine {line rest : Text} (h : trim line = '#' :: rest) :
    trim (commentLine line) = '#' :: trimRight (' ' :: trimLeft rest) := by
  rw [commentLine_eq h, trim, trimLeft_cons_of_not_isSpace isSpace_hash,
    trimRight_cons_of_not_isSpace isSpace_hash, trimRight_trimRight]

theorem trimRight_commentLine {line rest : Text} (h : trim line = '#' :: rest) :
    trimRight (commentLine line) = commentLine line := by
  rw [commentLine_eq h, trimRight_cons_of_not_isSpace isSpace_hash, trimRight_trimRight]

theorem solid_commentLine {line rest : Text} (h : trim line = '#' :: rest) :
    solid (commentLine line) = solid line := by
  rw [commentLine_eq h, ← solid_trim line, h, solid_cons_of_not_isSpace isSpace_hash,
    solid_cons_of_not_isSpace isSpace_hash, solid_trimRight, solid_cons_of_isSpace isSpace_blank,
    solid_trimLeft]

/-- **Writing a comment twice is writing it once.** -/
theorem commentLine_commentLine {line rest : Text} (h : trim line = '#' :: rest) :
    commentLine (commentLine line) = commentLine line := by
  rw [commentLine_eq (trim_commentLine h), commentLine_eq h]
  have hlead : trimLeft (trimRight (' ' :: trimLeft rest)) = trim rest := by
    rw [trimLeft_trimRight, trim, trimLeft_cons_of_isSpace isSpace_blank, trimLeft_trimLeft, trim]
  rw [hlead]
  cases hr : trimLeft rest with
  | nil => rw [trim, hr, trimRight_nil]
  | cons c u =>
    have hc := isSpace_of_trimLeft_eq_cons hr
    rw [trim, hr, trimRight_cons_of_not_isSpace hc]
    have hstep : ∀ v, trimRight (' ' :: c :: v) = ' ' :: c :: trimRight v :=
      fun v => trimRight_append_cons [' '] hc v
    rw [hstep, hstep, trimRight_trimRight]

/-- A comment as it is written has white space behind its first hash sign, so it is no banner. -/
theorem isBanner_commentLine {line rest : Text} (h : trim line = '#' :: rest) :
    Banner.isBanner (trim (commentLine line)) = false := by
  rw [trim_commentLine h]
  cases hr : trimRight (' ' :: trimLeft rest) with
  | nil => rfl
  | cons c u =>
    have hc : c = ' ' := by
      obtain ⟨b, -, hb⟩ := exists_trimRight_append (' ' :: trimLeft rest)
      rw [hr] at hb
      exact (List.cons.inj hb).1.symm
    subst hc
    simp [Banner.isBanner, Banner.isHash]

end Style
end Sproto
