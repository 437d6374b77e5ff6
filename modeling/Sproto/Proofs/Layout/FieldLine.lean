import Sproto.Proofs.Layout.Line

/-! # Fields that are written and read again

The line that is written for a field is a field again, with the same name, number, code and comment,
whatever the measures of the style are.  Writing it once more from what was read gives the same line.

A comment begins one column behind the comment column, or two blanks behind the code of the line
(`fieldCode`) where the code goes that far (`exists_before_comment`). -/
namespace Sproto

open Text

namespace Style

variable (s : Style) (level : Int) {name content comment : Text}

/-- The line of a field up to its comment, without the blanks before the comment. -/
def fieldCode (s : Style) (level : Int) (name number content : Text) : Text :=
  trimRight (s.margin level ++ name ++ ' ' :: number ++ ':' :: ' ' :: trim (beforeComment content))

theorem fieldLine_of_comment (name number : Text) (h : commentOf content = some comment) :
    s.fieldLine level name number content =
      (s.fieldCode level name number content ++
        fill ' ' (max 1 (s.commentColumn - (s.fieldCode level name number content).length) + 1)) ++
        comment := by
  have hfill : ∀ w : Int, 0 ≤ w → fill ' ' (w + 1) = fill ' ' w ++ [' '] := by
    intro w hw
    rw [fill, Int.toNat_add hw (by decide), show (1 : Int).toNat = 1 from rfl, List.replicate_succ']
    rfl
  rw [hfill _ (by omega)]
  simp only [fieldLine, splitComment_eq, h, fieldCode, List.append_assoc, List.singleton_append]

/-- Of all parts of a field only its comment has hash signs. -/
theorem not_mem_fieldCode (hname : IsName name) (n : Nat) (content : Text) :
    '#' ∉ s.fieldCode level name (decimal n) content := by
  have hmargin := not_mem_of_isBlank (s.isBlank_margin level) isSpace_hash
  have hword : '#' ∉ name := fun hm => by cases hname.2 _ hm
  have hdigit : '#' ∉ decimal n := fun hm => by cases Numeral.isDigit_of_mem_decimal hm
  have hcode : '#' ∉ trim (beforeComment content) := not_mem_trim (not_mem_beforeComment content)
  obtain ⟨b, -, hb⟩ := exists_trimRight_append
    (s.margin level ++ name ++ ' ' :: decimal n ++ ':' :: ' ' :: trim (beforeComment content))
  intro hm
  have hall := hb ▸ List.mem_append_left b hm
  simp [hmargin, hword, hdigit, hcode] at hall

/-- **Where the comment of a field stands.**  It ends the line, and the hash sign it begins with is the
first one of the line. -/
theorem exists_before_comment (hname : IsName name) (n : Nat) (h : commentOf content = some comment) :
    ∃ before, s.fieldLine level name (decimal n) content = before ++ comment ∧ '#' ∉ before ∧
      (before.length : Int) = max s.commentColumn ((trimRight before).length + 1) + 1 := by
  have hline := fieldLine_of_comment s level name (decimal n) h
  have hhash := not_mem_fieldCode s level hname n content
  have htrim : trimRight (s.fieldCode level name (decimal n) content) =
      s.fieldCode level name (decimal n) content := trimRight_trimRight _
  generalize s.fieldCode level name (decimal n) content = code at hline hhash htrim
  refine ⟨_, hline, ?_, ?_⟩
  · rw [List.mem_append, not_or]
    exact ⟨hhash, not_mem_of_isBlank (isBlank_fill _) isSpace_hash⟩
  · rw [trimRight_append_of_isBlank code (isBlank_fill _), htrim, List.length_append, fill,
      List.length_replicate]
    omega

/-- **What a field keeps when it is written as a line and the line is read.** -/
structure KeepsField (s : Style) (level : Int) (name : Text) (n : Nat) (content written : Text) :
    Prop where
  /-- The line is accepted as a field with the same name and number.  Its content has the same code and
  the same comment, and is written as the same line. -/
  readBack : ∃ token number body, Token.ofLines? [written] = .ok [token] ∧
    token.shape = .field name number body ∧ number.value = n ∧
    trim (beforeComment (fieldContent body)) = trim (beforeComment content) ∧
    commentOf (fieldContent body) = commentOf content ∧
    s.fieldLine level name (decimal number.value) (fieldContent body) = written
  /-- The hash sign of a comment stands one column behind the comment column, or behind the column after
  the code if that is further on. -/
  column : ∀ comment, commentOf content = some comment →
    ∃ before, written = before ++ comment ∧ '#' ∉ before ∧ written[before.length]? = some '#' ∧
      (before.length : Int) = max s.commentColumn ((trimRight before).length + 1) + 1

end Style

/-- **A field is read back from its line**, for all measures and levels, be they negative, and for any
content without line feeds or none at all. -/
theorem fieldLine_keepsField (s : Style) (level : Int) {name : Text} (hname : IsName name) {n : Nat}
    (hn : (decimal n).length ≤ Fault.maxDigits) {content : Option Text}
    (feed : ∀ c, content = some c → '\n' ∉ c) :
    s.KeepsField level name n (content.getD [])
      (s.fieldLine level name (decimal n) (content.getD [])) := by
  have hcontent : '\n' ∉ content.getD [] := by
    cases content with
    | none => exact List.not_mem_nil
    | some c => exact feed c rfl
  generalize content.getD [] = given at hcontent
  obtain ⟨body, hread, hsplit⟩ :=
    Row.read_field s level hname n (Token.not_mem_fieldLine s level hname n hcontent)
  change Shape.read (s.fieldLine level name (decimal n) given) = _ at hread
  have hsame := hsplit
  rw [Style.splitComment_eq, Style.splitComment_eq] at hsame
  obtain ⟨hcode, hcomment⟩ := Prod.mk.inj hsame
  constructor
  · have hfault : (Token.read 0 (s.fieldLine level name (decimal n) given)).fault? = none := by
      rw [Token.fault?, Token.read_shape, hread]
      exact (Numeral.fault?_eq_none_iff _).mpr hn
    refine ⟨_, ⟨decimal n⟩, body, Token.ofLines?_singleton hfault, hread, Numeral.value_decimal n,
      hcode, hcomment, ?_⟩
    rw [Numeral.value_decimal]
    exact Row.field_line_congr s level name n hsplit
  · intro comment hsome
    obtain ⟨before, hline, hhash, hlength⟩ :=
      Style.exists_before_comment s level hname n hsome
    refine ⟨before, hline, hhash, ?_, hlength⟩
    rw [hline, List.getElem?_append_right (Nat.le_refl _), Nat.sub_self, ← List.head?_eq_getElem?]
    exact (Style.isComment_commentOf given comment hsome).1

/-- A content with white space of several kinds around its code and its comment, and signs that mean
something elsewhere. -/
def oddContent : Text := " *Item(id) : \x7b\u3000# a # b\t".toList

/-- The content above in a style that does not indent and has its comment column within the code, and no
content at all in a style of negative measures. -/
theorem fieldLine_oddContent :
    Style.KeepsField ⟨0, 5, 4⟩ 2 "request".toList 7 oddContent
      "request 7: *Item(id) : \x7b  # a # b".toList ∧
    Style.KeepsField ⟨-4, -1, 0⟩ (-3) "_".toList 0 [] "            _ 0:".toList := by
  have hodd : Style.fieldLine ⟨0, 5, 4⟩ 2 "request".toList (decimal 7) oddContent =
      "request 7: *Item(id) : \x7b  # a # b".toList := by decide +kernel
  have hnone : Style.fieldLine ⟨-4, -1, 0⟩ (-3) "_".toList (decimal 0) [] =
      "            _ 0:".toList := by decide +kernel
  constructor
  · rw [← hodd]
    exact @fieldLine_keepsField ⟨0, 5, 4⟩ 2 "request".toList (by decide) 7 (by decide)
      (some oddContent) (by rintro c ⟨⟩; decide)
  · rw [← hnone]
    exact @fieldLine_keepsField ⟨-4, -1, 0⟩ (-3) "_".toList (by decide) 0 (by decide) none
      (by rintro c ⟨⟩)

end Sproto
