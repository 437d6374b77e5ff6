import Sproto.Layout.Row
import Sproto.Proofs.Layout.Alike

/-! # Reading rows back

The line that is written for a row has the shape that the row stands for, with the same parts.  For each
kind of row there is one lemma that says which shape that is, and one that says which solid text the
line holds. -/
namespace Sproto

open Text

namespace Shape

/-- A declaration is read as a block start exactly when its name is a block's word and it has no
number. -/
theorem block?_declaration_eq_none_iff {name m : Text} {number : Option Numeral}
    (hname : IsProtocolName name) (hm : NumberPart number m) (rest : Text) :
    block? (name ++ (m ++ '{' :: rest)) = none ↔
      (number = none → ∀ k : BlockKind, name ≠ k.word) := by
  constructor
  · rintro hnone rfl k rfl
    -- every rest of a line is one of the two kinds, so neither may follow the word
    have hno : ∀ {closed : Bool} {r : Text}, ¬ BlockRest closed rest r := by
      intro closed r hr
      have hsome : block? (k.word ++ (m ++ '{' :: rest)) = some (block k closed r) :=
        block?_eq_some_iff.mpr ⟨[], m, rest, rfl, hm, hr, rfl⟩
      rw [hnone] at hsome
      cases hsome
    obtain ⟨c, hc, hr⟩ := exists_append_trimLeft rest
    by_cases hclose : (trimLeft rest).head? = some '}'
    · cases ht : trimLeft rest with
      | nil => rw [ht] at hclose; cases hclose
      | cons d u =>
        rw [ht] at hclose hr
        cases hclose
        exact @hno true u ⟨c, hc, hr⟩
    · exact @hno false rest ⟨rfl, hclose⟩
  · intro h
    cases hb : block? (name ++ (m ++ '{' :: rest)) with
    | none => rfl
    | some sh =>
      exfalso
      obtain ⟨k, closed, rest', rfl⟩ := exists_of_block?_eq_some hb
      obtain ⟨a, b, r, ha, hbb, -, ht⟩ := block?_eq_some_iff.mp hb
      have hleft := congrArg trimLeft ht
      rw [trimLeft_append_of_isBlank ha,
        trimLeft_of_stops (stops_isSpace_of_isName k.isName_word)] at hleft
      rcases hname with hname | ⟨w, -, rfl⟩
      -- the name is read as the word, and a number in between would be read as a brace
      · rw [trimLeft_of_stops (stops_isSpace_of_isName hname)] at hleft
        have hword := readWord?_eq_some_iff.mpr ⟨hname, hm.stops rest, rfl⟩
        rw [hleft, readWord?_eq_some_iff.mpr ⟨k.isName_word,
          stops_isWord_of_isBlank hbb (stops_cons.mpr isWord_openBrace), rfl⟩] at hword
        obtain ⟨hk, hrest⟩ := Prod.mk.inj (Option.some.inj hword)
        cases number with
        | none => exact h rfl k hk.symm
        | some n =>
          obtain ⟨hn, g, e, -, hg, -, rfl⟩ := hm
          have hrest := congrArg trimLeft hrest
          rw [trimLeft_append_of_isBlank hbb, List.append_assoc, trimLeft_append_of_isBlank hg,
            trimLeft_cons_of_not_isSpace isSpace_openBrace, List.append_assoc,
            trimLeft_of_stops (stops_isSpace_of_isName hn.isName)] at hrest
          obtain ⟨c, w, hcw⟩ := List.exists_cons_of_ne_nil hn.1
          rw [hcw, List.cons_append, List.cons.injEq] at hrest
          have hc := hn.isWord c (by rw [hcw]; exact List.mem_cons_self)
          exact ne_of_isWord hc isWord_openBrace hrest.1.symm
      -- the name of a type begins with a full stop, and no word does
      · obtain ⟨c, w', hcw⟩ := List.exists_cons_of_ne_nil k.isName_word.1
        rw [List.cons_append, trimLeft_cons_of_not_isSpace isSpace_stop, hcw, List.cons_append,
          List.cons.injEq] at hleft
        have hc := k.isName_word.2 c (by rw [hcw]; exact List.mem_cons_self)
        exact ne_of_isWord hc isWord_stop hleft.1.symm

end Shape

namespace Row

/-! ## Declarations -/

theorem trim_afterBrace (rest : Text) : trim (afterBrace rest) = trim rest := by
  cases rest with
  | nil => rfl
  | cons c t =>
    simp only [afterBrace]
    split
    · rfl
    · exact trim_append_of_isBlank_left (show isBlank [' '] = true from rfl) (c :: t)

theorem solid_afterBrace (rest : Text) : solid (afterBrace rest) = solid rest := by
  rw [← solid_trim, trim_afterBrace, solid_trim]

theorem trimRight_afterBrace {rest : Text} (h : trimRight rest = rest) :
    trimRight (afterBrace rest) = afterBrace rest := by
  cases rest with
  | nil => rfl
  | cons c t =>
    simp only [afterBrace]
    split
    · exact h
    · exact trimRight_append_of_ne_nil [' '] (List.cons_ne_nil c t) h

/-- The line of a declaration: its name, its number in decimal, and what follows the brace. -/
theorem exists_header_line (s : Style) (name : Text) (number : Option Nat) (rest : Text) :
    ∃ m, Shape.NumberPart (number.map fun n => ⟨decimal n⟩) m ∧ '\n' ∉ m ∧
      (header name number rest).line s = name ++ (m ++ '{' :: afterBrace rest) := by
  cases number with
  | none => exact ⟨[' '], rfl, by decide, rfl⟩
  | some n =>
    refine ⟨[' '] ++ (decimal n ++ [' ']), ?_, ?_, ?_⟩
    · exact ⟨Numeral.spelled_decimal n, [' '], [' '], List.cons_ne_nil _ _, rfl, rfl, rfl⟩
    · have hdigit : '\n' ∉ decimal n := fun h => by cases Numeral.isDigit_of_mem_decimal h
      simp [hdigit]
    · simp [line]

theorem read_header (s : Style) {name : Text} {number : Option Nat} (rest : Text)
    (hname : Shape.IsProtocolName name) (hb : number = none → ∀ k : BlockKind, name ≠ k.word) :
    Shape.read ((header name number rest).line s) =
      .protocol name (number.map fun n => ⟨decimal n⟩) (afterBrace rest) := by
  obtain ⟨m, hm, -, hline⟩ := exists_header_line s name number rest
  rw [hline]
  refine Shape.Reads.read_eq (.protocol ?_ ?_)
  · rw [Shape.block?_declaration_eq_none_iff hname hm]
    intro h
    exact hb (Option.map_eq_none_iff.mp h)
  · exact Shape.protocol?_eq_some_iff.mpr ⟨hname, m, hm, rfl⟩

/-- The solid text between the name of a declaration and its brace is its number. -/
theorem solid_numberPart {number : Option Numeral} {m : Text} (hm : Shape.NumberPart number m) :
    solid m = (number.map Numeral.digits).getD [] := by
  cases number with
  | none => exact solid_of_isBlank hm
  | some n =>
    obtain ⟨hn, g, h, -, hg, hh, rfl⟩ := hm
    rw [solid_append, solid_append, solid_of_isBlank hg, solid_of_isBlank hh,
      solid_eq_self_of_isWord hn.isWord, List.nil_append, List.append_nil]
    rfl

theorem solid_header (s : Style) (name : Text) (number : Option Nat) (rest : Text) :
    solid ((header name number rest).line s) =
      solid name ++ ((number.map decimal).getD [] ++ '{' :: solid rest) := by
  obtain ⟨m, hm, -, hline⟩ := exists_header_line s name number rest
  rw [hline, solid_append, solid_append, solid_numberPart hm,
    solid_cons_of_not_isSpace isSpace_openBrace, solid_afterBrace, Option.map_map]
  rfl

/-! ## Blocks -/

theorem read_emptyBlock (s : Style) (k : BlockKind) :
    Shape.read ((emptyBlock k).line s) = .block k true [] := by
  refine Shape.Reads.read_eq (.block ?_)
  refine Shape.block?_eq_some_iff.mpr
    ⟨s.margin 1, [' '], ['}'], s.isBlank_margin 1, rfl, ⟨[], rfl, rfl⟩, ?_⟩
  simp [line]

theorem solid_emptyBlock (s : Style) (k : BlockKind) :
    solid ((emptyBlock k).line s) = k.word ++ ['{', '}'] := by
  rw [line, solid_append, solid_append, solid_of_isBlank (s.isBlank_margin 1),
    solid_eq_self_of_isWord k.isName_word.2]
  rfl

theorem read_block (s : Style) (k : BlockKind) {rest : Text}
    (h : (trimLeft rest).head? ≠ some '}') :
    Shape.read ((block k rest).line s) = .block k false (squeeze rest) := by
  refine Shape.Reads.read_eq (.block ?_)
  refine Shape.block?_eq_some_iff.mpr
    ⟨s.margin 1, [' '], squeeze rest, s.isBlank_margin 1, rfl, ⟨rfl, ?_⟩, ?_⟩
  · rw [trimLeft_squeeze]
    cases hr : trimLeft rest with
    | nil => exact fun h' => by cases h'
    | cons c u =>
      rw [squeeze_cons_of_not_isSpace (isSpace_of_trimLeft_eq_cons hr)]
      rw [hr] at h
      exact h
  · simp [line]

theorem solid_block (s : Style) (k : BlockKind) (rest : Text) :
    solid ((block k rest).line s) = k.word ++ '{' :: solid rest := by
  rw [line, solid_append, solid_append, solid_of_isBlank (s.isBlank_margin 1),
    solid_eq_self_of_isWord k.isName_word.2, solid_cons_of_isSpace isSpace_blank,
    solid_cons_of_not_isSpace isSpace_openBrace, solid_squeeze]
  rfl

/-! ## Fields -/

theorem solid_field (s : Style) (level : Int) {name : Text} (hname : IsName name) (n : Nat)
    (content : Text) :
    solid ((field level name n content).line s) = name ++ (decimal n ++ ':' :: solid content) := by
  obtain ⟨i, j, hline, -⟩ := s.exists_fieldLine level name (decimal n) content
  rw [line, hline, Style.solid_splitComment content]
  simp only [solid_append, solid_of_isBlank (s.isBlank_margin level),
    solid_of_isBlank (isBlank_replicate _), solid_eq_self_of_isWord hname.2,
    solid_eq_self_of_isWord (Numeral.spelled_decimal n).isWord,
    solid_cons_of_not_isSpace isSpace_colon, List.nil_append]
  rfl

/-- The line of a field is a field with the same code and comment. -/
theorem read_field (s : Style) (level : Int) {name : Text} (hname : IsName name) (n : Nat)
    {content : Text} (hfeed : '\n' ∉ (field level name n content).line s) :
    ∃ body, Shape.read ((field level name n content).line s) = .field name ⟨decimal n⟩ body ∧
      Style.splitComment (fieldContent body) = Style.splitComment content := by
  obtain ⟨i, j, hline, -⟩ := s.exists_fieldLine level name (decimal n) content
  have hcode : trim (Style.splitComment content).1 = (Style.splitComment content).1 := by
    rw [Style.splitComment_eq, trim_trim]
  have hhash : '#' ∉ (Style.splitComment content).1 := by
    rw [Style.splitComment_eq]
    obtain ⟨e, -, he⟩ := exists_append_trimLeft (beforeComment content)
    obtain ⟨e', -, he'⟩ := exists_trimRight_append (trimLeft (beforeComment content))
    intro hmem
    refine not_mem_beforeComment content ?_
    rw [he, he']
    exact List.mem_append_right _ (List.mem_append_left _ hmem)
  have hk : Style.IsComment (Style.splitComment content).2 := by
    rw [Style.splitComment_eq]
    exact Style.isComment_commentOf content
  rw [line, hline] at hfeed ⊢
  refine ⟨_, Shape.Reads.read_eq (.field (Shape.field?_eq_some_iff.mpr
    ⟨hname, Numeral.spelled_decimal n, s.margin level, [' '], [], s.isBlank_margin level,
      List.cons_ne_nil _ _, rfl, rfl, rfl⟩)), ?_⟩
  have hbody : ∀ body : Text, '\n' ∉ s.margin level ++ (name ++ ([' '] ++ (decimal n ++
      ([] ++ ':' :: body)))) → '\n' ∉ body := by
    intro body hbody
    simp only [List.mem_append, List.mem_cons, not_or] at hbody
    exact hbody.2.2.2.2.2.2
  rw [Shape.splitComment_fieldContent (hbody _ hfeed),
    Style.splitComment_join (isBlank_replicate i) hcode hhash (isBlank_replicate j) hk]

/-- A field's line depends on the code and the comment of its content alone. -/
theorem field_line_congr (s : Style) (level : Int) (name : Text) (n : Nat) {content content' : Text}
    (h : Style.splitComment content = Style.splitComment content') :
    (field level name n content).line s = (field level name n content').line s := by
  simp only [line, Style.fieldLine, h]

end Row
end Sproto
