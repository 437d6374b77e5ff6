import Sproto.Proofs.Layout.Alike
import Sproto.Validation.Field

/-! # What is wrong with a field, whatever its layout

Whether a field has a type, and what is wrong with a line that is no field, is decided by the parts that
layout keeps.  `startsType_join` and `hasTypeAfterColon_join` say so for the content of a field, and
`fieldProblem_congr` for the problem of any line that is not skipped. -/
namespace Sproto

open Text

/-! ## Beginnings of words -/

theorem startsWord_trimLeft_append {u : Text} (hu : isBlank u = false) (r : Text) :
    startsWord (trimLeft (u ++ r)) = startsWord (trimLeft u) := by
  obtain ⟨a, ha, hsplit⟩ := exists_append_trimLeft u
  cases ht : trimLeft u with
  | nil =>
    rw [trimLeft_eq_nil_iff.mp ht] at hu
    cases hu
  | cons c v =>
    rw [hsplit, ht, List.append_assoc, trimLeft_append_of_isBlank ha, List.cons_append,
      trimLeft_cons_of_not_isSpace (isSpace_of_trimLeft_eq_cons ht)]
    rfl

/-- What does not begin with a word does not make one begin before it. -/
theorem startsWord_append_of_not {r : Text} (hr : startsWord (trimLeft r) = false) (u : Text) :
    startsWord (trimLeft (u ++ r)) = startsWord (trimLeft u) := by
  cases hu : isBlank u with
  | false => exact startsWord_trimLeft_append hu r
  | true =>
    rw [trimLeft_append_of_isBlank hu, hr, trimLeft_of_isBlank hu]
    rfl

/-- White space and a comment, or nothing, stand behind the code of a field. -/
theorem startsWord_tail {w e : Text} (hw : isBlank w = true) (he : isBlank e = true)
    {k : Option Text} (hk : Style.IsComment k) :
    startsWord (trimLeft (w ++ (k.getD [] ++ e))) = false := by
  rw [trimLeft_append_of_isBlank hw]
  cases k with
  | none =>
    rw [Option.getD_none, List.nil_append, trimLeft_of_isBlank he]
    rfl
  | some c =>
    obtain ⟨hc, -⟩ := hk c rfl
    cases c with
    | nil => cases hc
    | cons d u =>
      cases hc
      rfl

/-! ## Colons -/

theorem hasTypeAfterColon_append_of_not_mem {x : Text} (hx : ':' ∉ x) (r : Text) :
    hasTypeAfterColon (x ++ r) = hasTypeAfterColon r := by
  induction x with
  | nil => rfl
  | cons c x ih =>
    rw [List.mem_cons, not_or] at hx
    have hc : (c == ':') = false := by simpa using Ne.symm hx.1
    rw [List.cons_append, hasTypeAfterColon, hc, Bool.false_and, Bool.false_or, ih hx.2]

theorem hasTypeAfterColon_append {r : Text} (hr : startsWord (trimLeft r) = false) (u : Text) :
    hasTypeAfterColon (u ++ r) = (hasTypeAfterColon u || hasTypeAfterColon r) := by
  induction u with
  | nil => rfl
  | cons c u ih =>
    rw [List.cons_append, hasTypeAfterColon, hasTypeAfterColon, startsWord_append_of_not hr, ih,
      Bool.or_assoc]

theorem hasTypeAfterColon_of_not_mem {t : Text} (h : ':' ∉ t) : hasTypeAfterColon t = false := by
  have happ := hasTypeAfterColon_append_of_not_mem h []
  rwa [List.append_nil] at happ

theorem hasTypeAfterColon_of_isBlank {b : Text} (hb : isBlank b = true) :
    hasTypeAfterColon b = false :=
  hasTypeAfterColon_of_not_mem (not_mem_of_isBlank hb isSpace_colon)

theorem hasTypeAfterColon_append_of_isBlank (u : Text) {b : Text} (hb : isBlank b = true) :
    hasTypeAfterColon (u ++ b) = hasTypeAfterColon u := by
  have hword : startsWord (trimLeft b) = false := by rw [trimLeft_of_isBlank hb]; rfl
  rw [hasTypeAfterColon_append hword, hasTypeAfterColon_of_isBlank hb, Bool.or_false]

theorem hasTypeAfterColon_trim (t : Text) : hasTypeAfterColon (trim t) = hasTypeAfterColon t := by
  obtain ⟨a, ha, ht⟩ := exists_append_trimLeft t
  obtain ⟨b, hb, hb'⟩ := exists_trimRight_append (trimLeft t)
  conv_rhs => rw [ht, hasTypeAfterColon_append_of_not_mem (not_mem_of_isBlank ha isSpace_colon), hb',
    hasTypeAfterColon_append_of_isBlank _ hb]
  rfl

/-! ## The content of a field -/

/-- The content of a field is its code and its comment with white space around them. -/
theorem exists_splitComment (t : Text) :
    ∃ a w e, isBlank a = true ∧ isBlank w = true ∧ isBlank e = true ∧
      t = a ++ ((Style.splitComment t).1 ++ (w ++ ((Style.splitComment t).2.getD [] ++ e))) := by
  rw [Style.splitComment_eq]
  obtain ⟨a, ha, hfront⟩ := exists_append_trimLeft (beforeComment t)
  obtain ⟨w, hw, hcode⟩ := exists_trimRight_append (trimLeft (beforeComment t))
  rw [hcode] at hfront
  rcases dropWhile_ne_hash_cases t with ⟨hno, hnil⟩ | ⟨u, ht, hcons⟩
  · refine ⟨a, w, [], ha, hw, rfl, ?_⟩
    have hbefore : beforeComment t = t := by
      have h := beforeComment_append hno []
      simpa using h
    rw [commentOf, hnil, Option.getD_none, List.append_nil, List.append_nil]
    conv_lhs => rw [← hbefore, hfront]
    rfl
  · obtain ⟨e, he, hcomment⟩ := exists_trimRight_append ('#' :: u)
    refine ⟨a, w, e, ha, hw, he, ?_⟩
    have htrim : trim ('#' :: u) = trimRight ('#' :: u) := by
      rw [trim, trimLeft_cons_of_not_isSpace isSpace_hash]
    rw [commentOf, hcons]
    simp only [Option.getD_some]
    rw [htrim, ← hcomment]
    conv_lhs => rw [ht, hfront]
    simp only [List.append_assoc]
    rfl

section

variable {a code w e : Text} {k : Option Text}

theorem startsWord_join (ha : isBlank a = true) (hw : isBlank w = true) (he : isBlank e = true)
    (hk : Style.IsComment k) :
    startsWord (trimLeft (a ++ (code ++ (w ++ (k.getD [] ++ e))))) = startsWord (trimLeft code) := by
  rw [trimLeft_append_of_isBlank ha, startsWord_append_of_not (startsWord_tail hw he hk)]

theorem hasTypeAfterColon_join (ha : isBlank a = true) (hw : isBlank w = true)
    (he : isBlank e = true) (hk : Style.IsComment k) :
    hasTypeAfterColon (a ++ (code ++ (w ++ (k.getD [] ++ e)))) =
      (hasTypeAfterColon code || hasTypeAfterColon (k.getD [])) := by
  rw [hasTypeAfterColon_append_of_not_mem (not_mem_of_isBlank ha isSpace_colon),
    hasTypeAfterColon_append (startsWord_tail hw he hk),
    hasTypeAfterColon_append_of_not_mem (not_mem_of_isBlank hw isSpace_colon),
    hasTypeAfterColon_append_of_isBlank _ he]

/-- **Whether a field has a type does not depend on white space.** -/
theorem startsType_join (ha : isBlank a = true) (hw : isBlank w = true) (he : isBlank e = true)
    (hcode : trim code = code) (hk : Style.IsComment k) :
    startsType (trimLeft (a ++ (code ++ (w ++ (k.getD [] ++ e))))) =
      startsType (code ++ k.getD []) := by
  rw [trimLeft_append_of_isBlank ha]
  cases code with
  | nil =>
    rw [List.nil_append, List.nil_append, trimLeft_append_of_isBlank hw]
    cases k with
    | none =>
      rw [Option.getD_none, List.nil_append, trimLeft_of_isBlank he]
    | some c =>
      obtain ⟨hc, -⟩ := hk c rfl
      cases c with
      | nil => cases hc
      | cons d u =>
        cases hc
        rfl
  | cons c u =>
    have hc : isSpace c = false := by
      rw [← trimLeft_trimRight] at hcode
      exact isSpace_of_trimLeft_eq_cons hcode
    -- what is asked of the text behind the first character does not see white space
    have hclose : ∀ {b : Text}, isBlank b = true → b.contains ')' = false := by
      intro b hb
      simpa using not_mem_of_isBlank hb (show isSpace ')' = false from rfl)
    have hword : startsWord (trimLeft (u ++ (w ++ (k.getD [] ++ e)))) =
        startsWord (trimLeft (u ++ k.getD [])) := by
      have hnil : isBlank [] = true := rfl
      have htail := startsWord_tail hnil hnil hk
      rw [List.nil_append, List.append_nil] at htail
      rw [startsWord_append_of_not (startsWord_tail hw he hk), startsWord_append_of_not htail]
    rw [List.cons_append, trimLeft_cons_of_not_isSpace hc, List.cons_append, startsType, startsType,
      hword]
    simp only [List.contains_append, hclose hw, hclose he, Bool.false_or, Bool.or_false]

end

/-! ## Lines that are no fields -/

theorem mem_solid_iff {c : Char} {t : Text} : c ∈ solid t ↔ c ∈ t ∧ isSpace c = false := by
  simp [solid]

theorem contains_trim {c : Char} (hc : isSpace c = false) (t : Text) :
    (trim t).contains c = t.contains c := by
  have hmem : ∀ u : Text, c ∈ u ↔ c ∈ solid u := fun u => by rw [mem_solid_iff, and_iff_left hc]
  have h : c ∈ trim t ↔ c ∈ t := by rw [hmem, solid_trim, ← hmem]
  simp [h]

/-- Whether a colon is missed in front of a text that stands behind a name and a number. -/
def wantsColon (r : Text) : Bool := isBlank r || (readGap? r).any startsWord

theorem wantsColon_append (r : Text) {b : Text} (hb : isBlank b = true) :
    wantsColon (r ++ b) = wantsColon r := by
  unfold wantsColon
  cases hr : isBlank r with
  | true => rw [isBlank_append, hr, hb]; rfl
  | false =>
    rw [isBlank_append, hr, Bool.false_and, Bool.false_or, Bool.false_or]
    cases r with
    | nil => cases hr
    | cons c r =>
      by_cases hc : isSpace c = true
      · have hrest : isBlank r = false := by simpa [isBlank, hc] using hr
        rw [List.cons_append, readGap?, if_pos hc, readGap?, if_pos hc, Option.any_some,
          Option.any_some, startsWord_trimLeft_append hrest]
      · rw [List.cons_append, readGap?, if_neg hc, readGap?, if_neg hc]

theorem missingColon?_isSome (line : Text) :
    (missingColon? line).isSome = (Shape.nameAndNumber? line).any fun p => wantsColon p.2.2 := by
  unfold missingColon?
  cases Shape.nameAndNumber? line with
  | none => rfl
  | some p =>
    obtain ⟨name, n, r⟩ := p
    show (if wantsColon r then some (line.length - r.length) else none).isSome = wantsColon r
    cases wantsColon r <;> rfl

theorem nameAndNumber?_trimRight (t : Text) :
    Shape.nameAndNumber? (trimRight t) =
      (Shape.nameAndNumber? t).map fun p => (p.1, p.2.1, trimRight p.2.2) := by
  -- a numeral ends in a digit, so trimming stops there at the latest
  have hdigits : ∀ {n : Numeral}, n.Spelled → ∀ x r : Text,
      trimRight (x ++ (n.digits ++ r)) = x ++ (n.digits ++ trimRight r) := by
    intro n hn x r
    obtain ⟨ds, d, hd⟩ : ∃ ds d, n.digits = ds ++ [d] :=
      ⟨_, _, (List.dropLast_append_getLast hn.1).symm⟩
    have hspace := isSpace_eq_false_of_isDigit (hn.2 d (by rw [hd]; simp))
    have htrim := trimRight_append_cons (x ++ ds) hspace r
    rw [hd]
    simpa using htrim
  cases h : Shape.nameAndNumber? t with
  | some p =>
    obtain ⟨name, n, r⟩ := p
    obtain ⟨hname, hn, hr, a, g, ha, hne, hg, rfl⟩ := Shape.nameAndNumber?_eq_some_iff.mp h
    refine Shape.nameAndNumber?_eq_some_iff.mpr ⟨hname, hn, ?_, a, g, ha, hne, hg, ?_⟩
    · obtain ⟨e, -, he⟩ := exists_trimRight_append r
      cases hcons : trimRight r with
      | nil => exact stops_nil _
      | cons c u =>
        rw [he, hcons, List.cons_append] at hr
        exact stops_cons.mpr (stops_cons.mp hr)
    · have htrim := hdigits hn (a ++ (name ++ g)) r
      simpa only [List.append_assoc] using htrim
  | none =>
    cases h' : Shape.nameAndNumber? (trimRight t) with
    | none => rfl
    | some p =>
      obtain ⟨name, n, r⟩ := p
      obtain ⟨hname, hn, hr, a, g, ha, hne, hg, htrim⟩ := Shape.nameAndNumber?_eq_some_iff.mp h'
      obtain ⟨e, he, ht⟩ := exists_trimRight_append t
      have hsome : Shape.nameAndNumber? t = some (name, n, r ++ e) := by
        refine Shape.nameAndNumber?_eq_some_iff.mpr ⟨hname, hn, ?_, a, g, ha, hne, hg, ?_⟩
        · cases r with
          | nil =>
            have hstop := Shape.stops_isDigit_of_isBlank he (stops_nil isDigit)
            rwa [List.append_nil] at hstop
          | cons c r => exact stops_cons.mpr (stops_cons.mp hr)
        · rw [ht, htrim]
          simp only [List.append_assoc]
      rw [hsome] at h
      cases h

theorem nameAndNumber?_trim (t : Text) :
    Shape.nameAndNumber? (trim t) =
      (Shape.nameAndNumber? t).map fun p => (p.1, p.2.1, trimRight p.2.2) := by
  have hleft : Shape.nameAndNumber? (trimLeft t) = Shape.nameAndNumber? t := by
    unfold Shape.nameAndNumber?
    rw [trimLeft_trimLeft]
  rw [trim, nameAndNumber?_trimRight, hleft]

theorem missingColon?_trim (t : Text) : (missingColon? (trim t)).isSome = (missingColon? t).isSome := by
  have hright : ∀ r, wantsColon (trimRight r) = wantsColon r := fun r => by
    obtain ⟨e, he, hr⟩ := exists_trimRight_append r
    conv_rhs => rw [hr, wantsColon_append _ he]
  rw [missingColon?_isSome, missingColon?_isSome, nameAndNumber?_trim]
  cases Shape.nameAndNumber? t with
  | none => rfl
  | some p => exact hright p.2.2

/-- A number is missed behind a line that is one word. -/
theorem missingNumber?_isSome_iff (t : Text) : (missingNumber? t).isSome = true ↔ IsName (trim t) := by
  unfold missingNumber?
  constructor
  · intro h
    obtain ⟨start, hstart⟩ := Option.isSome_iff_exists.mp h
    obtain ⟨⟨w, r⟩, hword, hif⟩ := Option.bind_eq_some_iff.mp hstart
    obtain ⟨hw, -, ht⟩ := readWord?_eq_some_iff.mp hword
    have hr : isBlank r = true := by
      cases hb : isBlank r with
      | true => rfl
      | false => simp [hb] at hif
    have hend : trimRight w = w := by
      obtain ⟨e, he, hwe⟩ := exists_trimRight_append w
      cases e with
      | nil => rw [List.append_nil] at hwe; exact hwe.symm
      | cons c e =>
        have hc := hw.2 c (by rw [hwe]; simp)
        rw [isWord_eq_false_of_isSpace (isBlank_iff.mp he c List.mem_cons_self)] at hc
        cases hc
    rw [trim, ht, trimRight_append_of_isBlank w hr, hend]
    exact hw
  · intro h
    obtain ⟨b, hb, ht⟩ := exists_trimRight_append (trimLeft t)
    have hword : readWord? (trimLeft t) = some (trim t, b) := by
      refine readWord?_eq_some_iff.mpr ⟨h, ?_, ht⟩
      have hstop := Shape.stops_isWord_of_isBlank hb (stops_nil isWord)
      rwa [List.append_nil] at hstop
    simp [hword, hb]

theorem missingNumber?_trim (t : Text) :
    (missingNumber? (trim t)).isSome = (missingNumber? t).isSome := by
  rw [Bool.eq_iff_iff, missingNumber?_isSome_iff, missingNumber?_isSome_iff, trim_trim]

/-- The problem of a line without the place where it is found. -/
theorem fieldProblem_snd (line : Text) :
    (fieldProblem line).2 =
      if line.contains ':' && !hasTypeAfterColon line then .missingType
      else if (missingColon? line).isSome then .missingColon
      else if (missingNumber? line).isSome then .missingNumberAndType
      else .malformedField := by
  unfold fieldProblem
  split
  · rfl
  · cases missingColon? line with
    | some start => rfl
    | none =>
      cases missingNumber? line with
      | some start => rfl
      | none => rfl

theorem fieldProblem_trim (t : Text) : (fieldProblem (trim t)).2 = (fieldProblem t).2 := by
  rw [fieldProblem_snd, fieldProblem_snd, contains_trim isSpace_colon, hasTypeAfterColon_trim,
    missingColon?_trim, missingNumber?_trim]

/-! ## Alike lines have the same problem -/

theorem not_isName_of_mem {t : Text} {c : Char} (hc : c ∈ t) (hw : isWord c = false)
    (hs : isSpace c = false) : ¬ IsName (trim t) := by
  intro h
  have hmem : c ∈ trim t := by
    have hcontains := contains_trim hs t
    simpa [hc] using hcontains
  rw [h.2 c hmem] at hw
  cases hw

/-- Behind a number and white space, a mark is no word. -/
theorem wantsColon_mark {b : Text} (hb : isBlank b = true) {c : Char} (hw : isWord c = false)
    (hs : isSpace c = false) (r : Text) : wantsColon (b ++ c :: r) = false := by
  have hblank : isBlank (b ++ c :: r) = false := by
    rw [isBlank_append, hb]
    simp [isBlank, hs]
  rw [wantsColon, hblank, Bool.false_or]
  cases hgap : readGap? (b ++ c :: r) with
  | none => rfl
  | some u =>
    obtain ⟨hu, g, -, hg, heq⟩ := readGap?_eq_some_iff.mp hgap
    have hleft := congrArg trimLeft heq
    rw [trimLeft_append_of_isBlank hb, trimLeft_append_of_isBlank hg, trimLeft_of_stops hu,
      trimLeft_cons_of_not_isSpace hs] at hleft
    rw [← hleft, Option.any_some, startsWord, List.head?_cons, Option.any_some, hw]

namespace Token

variable {t : Token}

/-- A field that has no type lacks it, or is malformed when a later colon has one. -/
theorem fieldProblem_field (ht : t.Genuine) {name body : Text} {n : Numeral}
    (h : t.shape = .field name n body) :
    (fieldProblem t.text).2 =
      if startsWord (trimLeft body) || hasTypeAfterColon body then .malformedField
      else .missingType := by
  have hr := ht.reads
  rw [h] at hr
  obtain ⟨hname, hn, a, g, b, ha, hne, hg, hb, htext⟩ := ht.field h
  have hcolon : ':' ∈ t.text := by rw [htext]; simp
  have hmissing : (missingColon? t.text).isSome = false := by
    cases hr with
    | field hf =>
      obtain ⟨b', hb', hnn⟩ := Shape.nameAndNumber?_of_field? hf
      rw [missingColon?_isSome, hnn]
      exact wantsColon_mark hb' isWord_colon isSpace_colon body
  have hnumber : (missingNumber? t.text).isSome = false := by
    rw [Bool.eq_false_iff, ne_eq, missingNumber?_isSome_iff]
    exact not_isName_of_mem hcolon isWord_colon isSpace_colon
  have htype : hasTypeAfterColon t.text = (startsWord (trimLeft body) || hasTypeAfterColon body) := by
    have hno : ':' ∉ a ++ (name ++ (g ++ (n.digits ++ b))) := by
      simp only [List.mem_append, not_or]
      have hname' : ':' ∉ name := fun hm => by cases hname.2 _ hm
      have hdigits : ':' ∉ n.digits := fun hm => by cases hn.isWord _ hm
      exact ⟨not_mem_of_isBlank ha isSpace_colon, hname', not_mem_of_isBlank hg isSpace_colon, hdigits,
        not_mem_of_isBlank hb isSpace_colon⟩
    have happ := hasTypeAfterColon_append_of_not_mem hno (':' :: body)
    simp only [List.append_assoc] at happ
    rw [htext, happ, hasTypeAfterColon]
    rfl
  have hcontains : t.text.contains ':' = true := by simpa using hcolon
  rw [fieldProblem_snd, hmissing, hnumber, htype, hcontains]
  cases startsWord (trimLeft body) || hasTypeAfterColon body <;> rfl

/-- What is wrong with a declaration where a field should be. -/
theorem fieldProblem_protocol (ht : t.Genuine) {name rest : Text} {number : Option Numeral}
    (h : t.shape = .protocol name number rest) :
    (fieldProblem t.text).2 =
      if rest.contains ':' && !hasTypeAfterColon rest then .missingType else .malformedField := by
  obtain ⟨-, hname, m, hm, htext⟩ := ht.protocol h
  have hbrace : '{' ∈ t.text := by rw [htext]; simp
  have hmissing : (missingColon? t.text).isSome = false := by
    rw [missingColon?_isSome, htext]
    rcases Shape.nameAndNumber?_declaration hname hm rest with hnone | ⟨n, b, hb, hsome⟩
    · rw [hnone]
      rfl
    · rw [hsome]
      exact wantsColon_mark hb isWord_openBrace isSpace_openBrace rest
  have hnumber : (missingNumber? t.text).isSome = false := by
    rw [Bool.eq_false_iff, ne_eq, missingNumber?_isSome_iff]
    exact not_isName_of_mem hbrace isWord_openBrace isSpace_openBrace
  have hno : ':' ∉ name ++ (m ++ ['{']) := by
    have hname' : ':' ∉ name := by
      rcases hname with hname | ⟨w, hw, rfl⟩
      · exact fun hmem => by cases hname.2 _ hmem
      · intro hmem
        rcases List.mem_cons.mp hmem with hmem | hmem
        · cases hmem
        · cases hw.2 _ hmem
    have hm' : ':' ∉ m := by
      cases number with
      | none => exact not_mem_of_isBlank hm isSpace_colon
      | some n =>
        obtain ⟨hn, g, e, -, hg, he, rfl⟩ := hm
        have hdigits : ':' ∉ n.digits := fun hmem => by cases hn.isWord _ hmem
        simp only [List.mem_append, not_or]
        exact ⟨not_mem_of_isBlank hg isSpace_colon, hdigits, not_mem_of_isBlank he isSpace_colon⟩
    simp [hname', hm']
  have htext' : t.text = name ++ (m ++ ['{']) ++ rest := by
    rw [htext]
    simp
  have hcontains : t.text.contains ':' = rest.contains ':' := by
    have hfalse : (name ++ (m ++ ['{'])).contains ':' = false := by simpa using hno
    rw [htext', List.contains_append, hfalse, Bool.false_or]
  rw [fieldProblem_snd, hmissing, hnumber, hcontains, htext', hasTypeAfterColon_append_of_not_mem hno]
  rfl

/-- **Alike lines have the same problem.** -/
theorem fieldProblem_congr {t' : Token} (ht : t.Genuine) (ht' : t'.Genuine) (h : t.Alike t')
    (hother : t.shape.isPlain = true → t.shape = .other)
    (hblock : ∀ k closed rest, t.shape ≠ .block k closed rest) :
    (fieldProblem t.text).2 = (fieldProblem t'.text).2 := by
  have htext := h.text
  have hshape := h.shape
  generalize hsh : t.shape = sh at hshape htext hother hblock
  generalize hsh' : t'.shape = sh' at hshape
  cases hshape with
  | plain hp =>
    have hne : sh ≠ .comment := by rw [hother hp]; exact fun h => by cases h
    rw [← fieldProblem_trim t.text, htext hp hne, fieldProblem_trim]
  | block h => exact absurd rfl (hblock _ _ _)
  | protocol hn hrest =>
    rw [fieldProblem_protocol ht hsh, fieldProblem_protocol ht' hsh',
      ← contains_trim isSpace_colon, ← hasTypeAfterColon_trim, hrest, contains_trim isSpace_colon,
      hasTypeAfterColon_trim]
  | @field name body body' n n' hn hsplit =>
    rw [Shape.splitComment_fieldContent (ht.feed_field hsh),
      Shape.splitComment_fieldContent (ht'.feed_field hsh')] at hsplit
    have hk : Style.IsComment (Style.splitComment body).2 := by
      rw [Style.splitComment_eq]
      exact Style.isComment_commentOf body
    obtain ⟨a, w, e, ha, hw, he, hbody⟩ := exists_splitComment body
    obtain ⟨a', w', e', ha', hw', he', hbody'⟩ := exists_splitComment body'
    rw [← hsplit] at hbody'
    rw [fieldProblem_field ht hsh, fieldProblem_field ht' hsh', hbody, hbody',
      startsWord_join ha hw he hk, startsWord_join ha' hw' he' hk,
      hasTypeAfterColon_join ha hw he hk, hasTypeAfterColon_join ha' hw' he' hk]

/-- **Alike fields have a type together.** -/
theorem startsType_congr {t' : Token} (ht : t.Genuine) (ht' : t'.Genuine) {name name' body body' : Text}
    {n n' : Numeral} (hsh : t.shape = .field name n body) (hsh' : t'.shape = .field name' n' body')
    (h : Style.splitComment (fieldContent body) = Style.splitComment (fieldContent body')) :
    startsType (fieldContent body) = startsType (fieldContent body') := by
  rw [Shape.splitComment_fieldContent (ht.feed_field hsh),
    Shape.splitComment_fieldContent (ht'.feed_field hsh')] at h
  rw [Shape.fieldContent_eq (ht.feed_field hsh), Shape.fieldContent_eq (ht'.feed_field hsh')]
  have hk : Style.IsComment (Style.splitComment body).2 := by
    rw [Style.splitComment_eq]
    exact Style.isComment_commentOf body
  have hcode : trim (Style.splitComment body).1 = (Style.splitComment body).1 := by
    rw [Style.splitComment_eq, trim_trim]
  obtain ⟨a, w, e, ha, hw, he, hbody⟩ := exists_splitComment body
  obtain ⟨a', w', e', ha', hw', he', hbody'⟩ := exists_splitComment body'
  rw [← h] at hbody'
  rw [hbody, hbody', startsType_join ha hw he hcode hk, startsType_join ha' hw' he' hcode hk]

end Token
end Sproto
