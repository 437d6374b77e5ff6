import Sproto.Proofs.Line.Comment
import Sproto.Proofs.Validation.FieldCheck

/-! # Commented lines of a block

What a comment behind a line of a block does to the check of the line.  It leaves most lines what they
are, with two exceptions.

* Some lines count by everything that stands on them (`StandsAlone`): a brace, a word, a word and a
  number.  With a comment behind it such a line is malformed, and differently so from what it was
  (`StandsAlone.isMalformed_comment`, `StandsAlone.fieldProblem_comment_ne`).
* The check of a malformed field looks through the whole line, so a comment may hold what the field
  lacks (`Supplies`).  Then the field is malformed in another way or no longer
  (`Supplies.comment_cases`).

Everywhere else what is wrong with the line stays the same (`isMalformed_comment`,
`fieldProblem_comment`). -/
namespace Sproto

open Text

/-! ## Lines that a comment changes -/

/-- A line that counts by everything that stands on it. -/
inductive StandsAlone (l : Text) : Prop
  /-- A brace. -/
  | brace (h : trim l = ['}'] ∨ trim l = ['{']) : StandsAlone l
  /-- A word, be it a field's name or that of a kind of block. -/
  | word (h : IsName (trim l)) : StandsAlone l
  /-- A field's name and number. -/
  | wordAndNumber {name r : Text} {n : Numeral} (h : Shape.nameAndNumber? l = some (name, n, r))
      (hr : isBlank r = true) : StandsAlone l

/-- A comment that holds what a line lacks. -/
inductive Supplies (l c : Text) : Prop
  /-- It closes the parenthesis with which the content of a field begins. -/
  | parenthesis {name body : Text} {n : Numeral} (h : Shape.read l = .field name n body)
      (hopen : (trimLeft body).head? = some '(') (hclose : ')' ∉ body) (hc : ')' ∈ c) : Supplies l c
  /-- It has a word behind a colon, which no colon of the line has. -/
  | type (hl : ':' ∈ l) (hnone : hasTypeAfterColon l = false) (hc : hasTypeAfterColon c = true) :
      Supplies l c
  /-- It has a colon without a word behind it, and the line has no colon. -/
  | colon (hl : ':' ∉ l) (hc : ':' ∈ c) (hnone : hasTypeAfterColon c = false) : Supplies l c

theorem standsAlone_iff {l : Text} :
    StandsAlone l ↔ (trim l = ['}'] ∨ trim l = ['{']) ∨ (missingNumber? l).isSome = true ∨
      ((Shape.nameAndNumber? l).any fun p => isBlank p.2.2) = true := by
  rw [missingNumber?_isSome_iff, Option.any_eq_true]
  constructor
  · rintro (h | h | ⟨h, hr⟩)
    · exact Or.inl h
    · exact Or.inr (Or.inl h)
    · exact Or.inr (Or.inr ⟨_, h, hr⟩)
  · rintro (h | h | ⟨⟨name, n, r⟩, h, hr⟩)
    · exact .brace h
    · exact .word h
    · exact .wordAndNumber h hr

instance (l : Text) : Decidable (StandsAlone l) := decidable_of_iff _ standsAlone_iff.symm

/-- Whether the content of a field begins with a parenthesis that the field does not close. -/
def Shape.opensParenthesis : Shape → Bool
  | field _ _ body => (trimLeft body).head? = some '(' && !body.contains ')'
  | _ => false

theorem supplies_iff {l c : Text} :
    Supplies l c ↔ ((Shape.read l).opensParenthesis = true ∧ ')' ∈ c) ∨
      (':' ∈ l ∧ hasTypeAfterColon l = false ∧ hasTypeAfterColon c = true) ∨
      (':' ∉ l ∧ ':' ∈ c ∧ hasTypeAfterColon c = false) := by
  constructor
  · rintro (⟨h, hopen, hclose, hc⟩ | ⟨hl, hnone, hc⟩ | ⟨hl, hc, hnone⟩)
    · exact Or.inl ⟨by simp [h, Shape.opensParenthesis, hopen, hclose], hc⟩
    · exact Or.inr (Or.inl ⟨hl, hnone, hc⟩)
    · exact Or.inr (Or.inr ⟨hl, hc, hnone⟩)
  · rintro (⟨hopen, hc⟩ | ⟨hl, hnone, hc⟩ | ⟨hl, hc, hnone⟩)
    · unfold Shape.opensParenthesis at hopen
      split at hopen
      · next name n body hread =>
        simp only [Bool.and_eq_true, decide_eq_true_eq, Bool.not_eq_true', List.contains_eq_mem,
          decide_eq_false_iff_not] at hopen
        exact .parenthesis hread hopen.1 hopen.2 hc
      · cases hopen
    · exact .type hl hnone hc
    · exact .colon hl hc hnone

instance (l c : Text) : Decidable (Supplies l c) := decidable_of_iff _ supplies_iff.symm

/-! ## Fields with a comment -/

section

variable {l w x : Text}

theorem startsWord_comment (hw : isBlank w = true) (x : Text) :
    startsWord (trimLeft (w ++ '#' :: x)) = false := by
  rw [trimLeft_append_of_isBlank hw, trimLeft_cons_of_not_isSpace isSpace_hash]
  rfl

/-- What a commented line holds is in the line or in the comment. -/
theorem contains_comment {c : Char} (hw : isBlank w = true) (hs : isSpace c = false) (hc : c ≠ '#') :
    (l ++ (w ++ '#' :: ' ' :: x)).contains c = (l.contains c || x.contains c) := by
  have hblank : c ≠ ' ' := by
    rintro rfl
    cases hs
  rw [Bool.eq_iff_iff]
  simp [not_mem_of_isBlank hw hs, hc, hblank]

theorem hasTypeAfterColon_comment (hw : isBlank w = true) :
    hasTypeAfterColon (l ++ (w ++ '#' :: ' ' :: x)) =
      (hasTypeAfterColon l || hasTypeAfterColon x) := by
  have hfront : ':' ∉ w ++ ['#', ' '] := by
    simp [not_mem_of_isBlank hw isSpace_colon]
  have htail : hasTypeAfterColon (w ++ '#' :: ' ' :: x) = hasTypeAfterColon x := by
    have happ := hasTypeAfterColon_append_of_not_mem hfront x
    rwa [List.append_assoc] at happ
  rw [hasTypeAfterColon_append (startsWord_comment hw _), htail]

/-- **What a comment adds to the type of a field** is the end of a parenthesis that was open. -/
theorem startsType_comment (body : Text) (hw : isBlank w = true) :
    startsType (trimLeft (body ++ (w ++ '#' :: ' ' :: x))) =
      (startsType (trimLeft body) || ((trimLeft body).head? = some '(' && x.contains ')')) := by
  obtain ⟨a, ha, hsplit⟩ := exists_append_trimLeft body
  rcases hcons : trimLeft body with _ | ⟨c, u⟩
  · rw [hcons, List.append_nil] at hsplit
    rw [hsplit, trimLeft_append_of_isBlank ha, trimLeft_append_of_isBlank hw,
      trimLeft_cons_of_not_isSpace isSpace_hash]
    rfl
  · have hleft : trimLeft (body ++ (w ++ '#' :: ' ' :: x)) = c :: (u ++ (w ++ '#' :: ' ' :: x)) := by
      rw [hsplit, hcons, List.append_assoc, trimLeft_append_of_isBlank ha, List.cons_append,
        trimLeft_cons_of_not_isSpace (isSpace_of_trimLeft_eq_cons hcons)]
    rw [hleft, startsType, startsType, startsWord_append_of_not (startsWord_comment hw _)]
    by_cases hc : c = '('
    · rw [if_pos hc, if_pos hc, hc, contains_comment hw rfl (by decide)]
      rfl
    · rw [if_neg hc, if_neg hc]
      simp [hc]

/-- A field whose content begins with a parenthesis has a type unless the parenthesis stays open. -/
theorem not_mem_of_startsType_eq_false {body : Text} (h : startsType (trimLeft body) = false)
    (hopen : (trimLeft body).head? = some '(') : ')' ∉ body := by
  obtain ⟨a, ha, hsplit⟩ := exists_append_trimLeft body
  rcases hcons : trimLeft body with _ | ⟨c, u⟩
  · rw [hcons] at hopen
    cases hopen
  · rw [hcons] at hopen h hsplit
    cases hopen
    have hu : ')' ∉ u := by simpa [startsType] using h
    rw [hsplit]
    simp [hu, not_mem_of_isBlank ha (show isSpace ')' = false from rfl)]

/-- Whether a line is taken for a field that ends at its colon. -/
def lacksType (t : Text) : Bool := t.contains ':' && !hasTypeAfterColon t

theorem fieldProblem_eq_missingType_iff {t : Text} :
    (fieldProblem t).2 = .missingType ↔ lacksType t = true := by
  rw [fieldProblem_snd, ← lacksType]
  constructor
  · intro h
    by_contra hlacks
    rw [if_neg hlacks] at h
    split at h
    · cases h
    · split at h <;> cases h
  · intro h
    rw [if_pos h]

theorem lacksType_comment_iff (hw : isBlank w = true) :
    lacksType (l ++ (w ++ '#' :: ' ' :: x)) = lacksType l ↔
      ¬ ((':' ∈ l ∧ hasTypeAfterColon l = false ∧ hasTypeAfterColon x = true) ∨
        (':' ∉ l ∧ ':' ∈ x ∧ hasTypeAfterColon x = false)) := by
  rw [lacksType, lacksType, contains_comment hw isSpace_colon (by decide),
    hasTypeAfterColon_comment hw]
  by_cases hl : ':' ∈ l
  · cases hasTypeAfterColon l <;> cases hasTypeAfterColon x <;> simp [hl]
  · rw [hasTypeAfterColon_of_not_mem hl]
    cases hasTypeAfterColon x <;> simp [hl]

theorem wantsColon_comment {r : Text} (hw : isBlank w = true) (hr : isBlank r = false) :
    wantsColon (r ++ (w ++ '#' :: x)) = wantsColon r := by
  unfold wantsColon
  rw [isBlank_append, hr, Bool.false_and, Bool.false_or, Bool.false_or]
  rcases r with _ | ⟨c, r⟩
  · cases hr
  · by_cases hc : isSpace c = true
    · rw [List.cons_append, readGap?, if_pos hc, readGap?, if_pos hc, Option.any_some,
        Option.any_some, startsWord_append_of_not (startsWord_comment hw x)]
    · rw [List.cons_append, readGap?, if_neg hc, readGap?, if_neg hc]

/-- A commented line is no word. -/
theorem not_isName_comment (l w x : Text) : ¬ IsName (trim (l ++ (w ++ '#' :: x))) := fun h =>
  Shape.not_hash_of_isName h (Shape.hash_mem_trim l w x)

theorem missingNumber?_comment (l w x : Text) :
    (missingNumber? (l ++ (w ++ '#' :: x))).isSome = false := by
  rw [Bool.eq_false_iff, Ne, missingNumber?_isSome_iff]
  exact not_isName_comment l w x

/-- **A comment does not change what is wrong with a line**, if the line does not stand alone and the
comment does not supply what it lacks. -/
theorem fieldProblem_comment (hw : isBlank w = true) (hl : ¬ StandsAlone l) (hx : ¬ Supplies l x) :
    (fieldProblem (l ++ (w ++ '#' :: ' ' :: x))).2 = (fieldProblem l).2 := by
  have hcolon : (missingColon? (l ++ (w ++ '#' :: ' ' :: x))).isSome = (missingColon? l).isSome := by
    rw [missingColon?_isSome, missingColon?_isSome, Shape.nameAndNumber?_comment hw]
    rcases hnn : Shape.nameAndNumber? l with _ | ⟨name, n, r⟩
    · rfl
    · refine wantsColon_comment hw ?_
      rw [Bool.eq_false_iff]
      exact fun hr => hl (.wordAndNumber hnn hr)
  have hnumber : (missingNumber? (l ++ (w ++ '#' :: ' ' :: x))).isSome = (missingNumber? l).isSome := by
    rw [missingNumber?_comment, eq_comm, Bool.eq_false_iff, Ne, missingNumber?_isSome_iff]
    exact fun h => hl (.word h)
  have htype : lacksType (l ++ (w ++ '#' :: ' ' :: x)) = lacksType l :=
    (lacksType_comment_iff hw).mpr fun h => hx (supplies_iff.mpr (Or.inr h))
  rw [fieldProblem_snd, fieldProblem_snd, ← lacksType, ← lacksType, htype, hcolon, hnumber]

/-- A line that does not stand alone carries as much as it does with a comment. -/
theorem isSkipped_comment (hhash : '#' ∉ l) (hw : isBlank w = true) (hl : ¬ StandsAlone l) :
    isSkipped (Shape.read (l ++ (w ++ '#' :: ' ' :: x))) (l ++ (w ++ '#' :: ' ' :: x)) =
      isSkipped (Shape.read l) l := by
  have hword : ∀ k : BlockKind, decide (trim (l ++ (w ++ '#' :: ' ' :: x)) = k.word) = false ∧
      decide (trim l = k.word) = false := by
    intro k
    exact ⟨decide_eq_false fun h => not_isName_comment l w (' ' :: x) (h ▸ k.isName_word),
      decide_eq_false fun h => hl (.word (h ▸ k.isName_word))⟩
  obtain ⟨hreq, hreq'⟩ := hword .request
  obtain ⟨hres, hres'⟩ := hword .response
  rw [Shape.read_comment hhash hw]
  have hreads := Shape.reads_read l
  revert hreads
  generalize Shape.read l = sh
  intro hreads
  cases hreads with
  | closeBrace h => exact absurd (.brace (.inl h)) hl
  | openBrace h => exact absurd (.brace (.inr h)) hl
  | blank | banner | comment | block => rfl
  | protocol | field | other =>
    simp only [Shape.withComment, isSkipped, hreq, hreq', hres, hres']

/-- **A comment makes a field of a line that is none** exactly if it closes a parenthesis. -/
theorem exists_isFieldLine_comment_iff (hfeed : '\n' ∉ l ++ (w ++ '#' :: ' ' :: x)) (hhash : '#' ∉ l)
    (hw : isBlank w = true) (hnone : ∀ name n, ¬ IsFieldLine l name n) :
    (∃ name n, IsFieldLine (l ++ (w ++ '#' :: ' ' :: x)) name n) ↔
      (Shape.read l).opensParenthesis = true ∧ ')' ∈ x := by
  have hlfeed : '\n' ∉ l := fun h => hfeed (List.mem_append_left _ h)
  simp only [isFieldLine_iff hfeed, Shape.read_comment hhash hw]
  rcases hread : Shape.read l with _ | _ | _ | _ | _ | _ | _ | ⟨name, n, body⟩ | _
  case field =>
    have hbody : '\n' ∉ body ++ (w ++ '#' :: ' ' :: x) := by
      cases Shape.read_eq_iff.mp hread with
      | field hf =>
        obtain ⟨-, -, a, g, b, -, -, -, -, rfl⟩ := Shape.field?_eq_some_iff.mp hf
        exact fun h => hfeed (by simp only [List.append_assoc, List.cons_append]; simp [h])
    have htype : startsType (trimLeft body) = false := by
      rw [Bool.eq_false_iff]
      refine fun htype => hnone name n ((isFieldLine_iff hlfeed).mpr ⟨body, hread, ?_⟩)
      rwa [Shape.fieldContent_eq fun h => hbody (List.mem_append_left _ h)]
    have hlaw := @startsType_comment w x body hw
    rw [htype, Bool.false_or] at hlaw
    constructor
    · rintro ⟨_, _, _, heq, h⟩
      cases heq
      rw [Shape.fieldContent_eq hbody, hlaw, Bool.and_eq_true, decide_eq_true_eq,
        List.contains_iff_mem] at h
      have hclose := not_mem_of_startsType_eq_false htype h.1
      exact ⟨by simp [Shape.opensParenthesis, h.1, hclose], h.2⟩
    · rintro ⟨hopen, hx⟩
      simp only [Shape.opensParenthesis, Bool.and_eq_true] at hopen
      refine ⟨name, n, _, rfl, ?_⟩
      rw [Shape.fieldContent_eq hbody, hlaw, hopen.1, List.contains_iff_mem.mpr hx]
      rfl
  all_goals simp [Shape.withComment, Shape.opensParenthesis]

/-- A malformed line stays malformed if the comment does not supply what it lacks. -/
theorem isMalformed_comment (hfeed : '\n' ∉ l ++ (w ++ '#' :: ' ' :: x)) (hhash : '#' ∉ l)
    (hw : isBlank w = true) (hl : ¬ StandsAlone l) (hmal : IsMalformed l) (hx : ¬ Supplies l x) :
    IsMalformed (l ++ (w ++ '#' :: ' ' :: x)) := by
  refine ⟨(isSkipped_comment hhash hw hl).trans hmal.1, fun name n hline => ?_⟩
  have hopen := (exists_isFieldLine_comment_iff hfeed hhash hw hmal.2).mp ⟨name, n, hline⟩
  exact hx (supplies_iff.mpr (Or.inl hopen))

/-- **A comment that supplies what a malformed line lacks** makes a field of it, or another fault. -/
theorem Supplies.comment_cases (h : Supplies l x) (hfeed : '\n' ∉ l ++ (w ++ '#' :: ' ' :: x))
    (hhash : '#' ∉ l) (hw : isBlank w = true) (hnone : ∀ name n, ¬ IsFieldLine l name n) :
    (∃ name n, IsFieldLine (l ++ (w ++ '#' :: ' ' :: x)) name n) ∨
      (fieldProblem (l ++ (w ++ '#' :: ' ' :: x))).2 ≠ (fieldProblem l).2 := by
  rcases supplies_iff.mp h with hopen | hcolon
  · exact Or.inl ((exists_isFieldLine_comment_iff hfeed hhash hw hnone).mpr hopen)
  · refine Or.inr fun heq => (lacksType_comment_iff hw).mp ?_ hcolon
    rw [Bool.eq_iff_iff, ← fieldProblem_eq_missingType_iff, ← fieldProblem_eq_missingType_iff, heq]

/-! ## Lines that stand alone, with a comment -/

/-- A line that stands alone is a brace or holds nothing but words. -/
theorem StandsAlone.brace_or_words (h : StandsAlone l) :
    (trim l = ['}'] ∨ trim l = ['{']) ∨
      trim l ≠ [] ∧ ∀ c ∈ l, isSpace c = false → isWord c = true := by
  rcases h with h | h | ⟨h, hr⟩
  · exact Or.inl h
  · refine Or.inr ⟨h.1, fun c hc hs => ?_⟩
    by_contra hw
    exact not_isName_of_mem hc (Bool.eq_false_iff.mpr hw) hs h
  · obtain ⟨hname, hn, -, a, g, ha, -, hg, rfl⟩ := Shape.nameAndNumber?_eq_some_iff.mp h
    obtain ⟨d, u, rfl⟩ := List.exists_cons_of_ne_nil hname.1
    refine Or.inr ⟨fun hnil => ?_, fun c hc hs => ?_⟩
    · have hd := isBlank_iff.mp (trim_eq_nil_iff.mp hnil) d (by simp)
      rw [isSpace_eq_false_of_isWord (hname.2 d List.mem_cons_self)] at hd
      cases hd
    · simp only [List.mem_append] at hc
      rcases hc with hc | hc | hc | hc | hc
      · exact absurd hc (not_mem_of_isBlank ha hs)
      · exact hname.2 c hc
      · exact absurd hc (not_mem_of_isBlank hg hs)
      · exact hn.isName.2 c hc
      · exact absurd hc (not_mem_of_isBlank hr hs)

theorem StandsAlone.not_mem_colon (h : StandsAlone l) : ':' ∉ l := by
  intro hc
  rcases h.brace_or_words with (h | h) | ⟨-, h⟩
  · have hmem := contains_trim isSpace_colon l
    simp [h, hc] at hmem
  · have hmem := contains_trim isSpace_colon l
    simp [h, hc] at hmem
  · cases h ':' hc rfl

/-- The readers find nothing on a line that stands alone. -/
theorem StandsAlone.read_eq (h : StandsAlone l) :
    Shape.read l = .closeBrace ∨ Shape.read l = .openBrace ∨ Shape.read l = .other := by
  rcases h.brace_or_words with (h | h) | ⟨hne, hwords⟩
  · exact Or.inl (Shape.read_eq_iff.mpr (.closeBrace h))
  · exact Or.inr (Or.inl (Shape.read_eq_iff.mpr (.openBrace h)))
  · have hbrace : '{' ∉ l := fun h => by cases hwords _ h rfl
    have hreads := Shape.reads_read l
    revert hreads
    generalize Shape.read l = sh
    intro hreads
    cases hreads with
    | blank h => exact absurd h hne
    | banner h => cases hwords _ (Shape.hash_mem_of_head? (Shape.head?_of_isBanner h)) rfl
    | comment h => cases hwords _ (Shape.hash_mem_of_head? h) rfl
    | closeBrace h => exact Or.inl rfl
    | openBrace h => exact Or.inr (Or.inl rfl)
    | block h =>
      obtain ⟨a, b, r, -, -, -, rfl⟩ := Shape.block?_eq_some_iff.mp h
      exact absurd (by simp) hbrace
    | protocol _ h =>
      obtain ⟨-, m, -, rfl⟩ := Shape.protocol?_eq_some_iff.mp h
      exact absurd (by simp) hbrace
    | field h =>
      obtain ⟨-, -, a, g, b, -, -, -, -, rfl⟩ := Shape.field?_eq_some_iff.mp h
      cases hwords ':' (by simp) rfl
    | other => exact Or.inr (Or.inr rfl)

/-- **A line that stands alone is malformed with a comment.** -/
theorem StandsAlone.isMalformed_comment (h : StandsAlone l)
    (hfeed : '\n' ∉ l ++ (w ++ '#' :: ' ' :: x)) (hhash : '#' ∉ l) (hw : isBlank w = true) :
    IsMalformed (l ++ (w ++ '#' :: ' ' :: x)) := by
  have hread : Shape.read (l ++ (w ++ '#' :: ' ' :: x)) = .other := by
    rw [Shape.read_comment hhash hw]
    rcases h.read_eq with h | h | h <;> rw [h] <;> rfl
  have hword : ∀ k : BlockKind, trim (l ++ (w ++ '#' :: ' ' :: x)) ≠ k.word := fun k heq =>
    not_isName_comment l w (' ' :: x) (heq ▸ k.isName_word)
  refine ⟨?_, fun name n hline => ?_⟩
  · simp [hread, isSkipped, hword .request, hword .response]
  · obtain ⟨body, hfield, -⟩ := (isFieldLine_iff hfeed).mp hline
    rw [hread] at hfield
    cases hfield

/-- A name and a number are all there is on a line that stands alone. -/
theorem StandsAlone.isBlank_of_nameAndNumber? (h : StandsAlone l) {name r : Text} {n : Numeral}
    (hnn : Shape.nameAndNumber? l = some (name, n, r)) : isBlank r = true := by
  -- on the other lines there is no room for the gap between the two
  obtain ⟨c, hc, hspace⟩ : ∃ c ∈ trim l, isSpace c = true := by
    have htrim := nameAndNumber?_trim l
    rw [hnn, Option.map_some] at htrim
    obtain ⟨-, -, -, a, g, -, hne, hg, heq⟩ := Shape.nameAndNumber?_eq_some_iff.mp htrim
    obtain ⟨c, u, rfl⟩ := List.exists_cons_of_ne_nil hne
    exact ⟨c, by rw [heq]; simp, isBlank_iff.mp hg c List.mem_cons_self⟩
  rcases h with (h | h) | h | ⟨h, hr⟩
  · rw [h, List.mem_singleton] at hc
    rw [hc] at hspace
    cases hspace
  · rw [h, List.mem_singleton] at hc
    rw [hc] at hspace
    cases hspace
  · rw [isSpace_eq_false_of_isWord (h.2 c hc)] at hspace
    cases hspace
  · rw [hnn] at h
    cases h
    exact hr

/-- **What is wrong with a line that stands alone is not wrong with it when a comment follows.** -/
theorem StandsAlone.fieldProblem_comment_ne (h : StandsAlone l) (hmal : IsMalformed l)
    (hw : isBlank w = true) :
    (fieldProblem (l ++ (w ++ '#' :: ' ' :: x))).2 ≠ (fieldProblem l).2 := by
  have hbefore : (missingColon? l).isSome = true ∨ (missingNumber? l).isSome = true := by
    rcases h with h | h | ⟨h, hr⟩
    · have hskip : isSkipped (Shape.read l) l = true := by
        rcases h with h | h
        · rw [Shape.read_eq_iff.mpr (.closeBrace h)]
          rfl
        · rw [Shape.read_eq_iff.mpr (.openBrace h)]
          rfl
      rw [hmal.1] at hskip
      cases hskip
    · exact Or.inr ((missingNumber?_isSome_iff l).mpr h)
    · refine Or.inl ?_
      rw [missingColon?_isSome, h, Option.any_some, wantsColon, hr, Bool.true_or]
  have hcolon : (missingColon? (l ++ (w ++ '#' :: ' ' :: x))).isSome = false := by
    rw [missingColon?_isSome, Shape.nameAndNumber?_comment hw]
    rcases hnn : Shape.nameAndNumber? l with _ | ⟨name, n, r⟩
    · rfl
    · have hblank : isBlank (r ++ w) = true := by
        rw [isBlank_append, h.isBlank_of_nameAndNumber? hnn, hw]
        rfl
      rw [Option.map_some, Option.any_some, ← List.append_assoc]
      exact wantsColon_mark hblank rfl rfl _
  have hlacks : lacksType l = false := by
    rw [lacksType, List.contains_eq_mem, decide_eq_false h.not_mem_colon, Bool.false_and]
  intro heq
  have hafter : (fieldProblem (l ++ (w ++ '#' :: ' ' :: x))).2 ∈ [.missingType, .malformedField] := by
    rw [fieldProblem_snd, hcolon, missingNumber?_comment]
    split <;> simp
  rw [heq, fieldProblem_snd, ← lacksType, hlacks] at hafter
  rcases hbefore with hbefore | hbefore
  · simp [hbefore] at hafter
  · by_cases hmissing : (missingColon? l).isSome = true <;> simp [hbefore, hmissing] at hafter

end

end Sproto
