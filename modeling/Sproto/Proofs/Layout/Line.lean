import Sproto.Layout.Section
import Sproto.Proofs.Layout.Row

/-! # The line that is written for a line

Outside protocols and inside them, every line that is not blank and not part of an empty block is laid
out by itself: `Style.lineOf s depth t` is the line that the style `s` writes for `t`, met at the depth
`depth`.

* `Style.written_lineOf_none` and `Style.written_lineOf_some`: the line that is written is alike to the
  one that was read, ends in no white space, holds no line feed, and spells no number that is refused.
* `Style.lineOf_none_lineOf_none` and `Style.lineOf_some_lineOf_some`: writing it again changes
  nothing. -/
namespace Sproto

open Text

namespace Style

/-- The line that is written for a line outside any protocol. -/
def outsideLine (t : Token) : Text := if t.shape = .comment then commentLine t.text else t.text

/-- The line that is written for a line that is met at a depth, `none` standing for outside any
protocol. -/
def lineOf (s : Style) (depth : Option Int) (t : Token) : Text :=
  match t.shape with
  | .banner => trim t.text
  | .protocol name number rest => (Row.header name (number.map Numeral.value) (trim rest)).line s
  | _ =>
      match depth with
      | none => outsideLine t
      | some d => (Body.rowOf t d (d + braceBalance t.text)).line s

end Style

namespace Token

/-- What stays of a line that is written anew as `l`, and what may be relied on. -/
structure Written (t : Token) (l : Text) : Prop where
  shape : t.shape.Alike (Shape.read l)
  solid : SameButDigits (Text.solid t.text) (Text.solid l)
  text : t.shape.isPlain = true → t.shape ≠ .comment → trim t.text = trim l
  trimmed : trimRight l = l
  feed : '\n' ∉ l
  fault : t.fault? = none → (Shape.read l).numeral?.bind Numeral.fault? = none

namespace Written

variable {t t' : Token} {l : Text}

/-- The token of the line that is written is alike to the one it is written for. -/
theorem alike (h : t.Written t'.text) (ht' : t'.shape = Shape.read t'.text) : t.Alike t' :=
  ⟨by rw [ht']; exact h.shape, h.solid, h.text⟩

theorem proper (h : t.Written t'.text) (ht : t.Proper) (ht' : t'.shape = Shape.read t'.text) :
    t'.Proper := by
  refine ⟨⟨ht', h.feed⟩, h.trimmed, fun hblank => ht.solid ?_⟩
  rwa [(h.alike ht').shape.eq_iff_of_isPlain rfl] at hblank

theorem fault_eq_none (h : t.Written t'.text) (ht' : t'.shape = Shape.read t'.text)
    (hf : t.fault? = none) : t'.fault? = none := by
  rw [fault?, ht']
  exact h.fault hf

/-- A line with the same shape and the same solid text. -/
theorem of_shape_eq (hshape : Shape.read l = t.shape)
    (hsolid : Text.solid l = Text.solid t.text)
    (htext : t.shape ≠ .comment → trim t.text = trim l) (htrim : trimRight l = l)
    (hfeed : '\n' ∉ l) : t.Written l := by
  refine ⟨?_, .of_eq hsolid.symm, fun _ => htext, htrim, hfeed, fun h => ?_⟩
  · rw [hshape]
    exact .refl _
  · rw [hshape]
    exact h

end Written

theorem not_mem_squeeze {l : Text} {c : Char} (h : c ∉ l) (hc : c ≠ ' ') : c ∉ squeeze l := by
  fun_induction squeeze l with
  | case1 => exact List.not_mem_nil
  | case2 a ha d t hd ih => exact ih fun hmem => h (List.mem_cons_of_mem _ hmem)
  | case3 a ha d t hd ih =>
    rw [List.mem_cons, not_or]
    exact ⟨hc, ih fun hmem => h (List.mem_cons_of_mem _ hmem)⟩
  | case4 a ha => simpa using hc
  | case5 a t ha ih =>
    rw [List.mem_cons, not_or] at h ⊢
    exact ⟨h.1, ih h.2⟩

/-! ## Kept lines and comments -/

theorem Proper.written_self {t : Token} (ht : t.Proper) : t.Written t.text :=
  ⟨by rw [ht.shape_eq]; exact .refl _, .refl _, fun _ _ => rfl, ht.trimmed, ht.feed,
    fun h => by rw [← ht.shape_eq]; exact h⟩

theorem Proper.written_banner {t : Token} (ht : t.Proper) (h : t.shape = .banner) :
    t.Written (trim t.text) := by
  refine .of_shape_eq ?_ (solid_trim _)
    (fun _ => (trim_trim _).symm) (trimRight_trim _) (not_mem_trim ht.feed)
  have hr := ht.reads
  rw [h] at hr ⊢
  cases hr with
  | banner hb => exact Shape.Reads.read_eq (.banner (by rwa [trim_trim]))

theorem Genuine.trim_comment {t : Token} (ht : t.Genuine) (h : t.shape = .comment) :
    ∃ rest, trim t.text = '#' :: rest := by
  have hr := ht.reads
  rw [h] at hr
  cases hr with
  | comment hh hb =>
    cases hs : trim t.text with
    | nil => rw [hs] at hh; cases hh
    | cons c u => rw [hs] at hh; cases hh; exact ⟨u, rfl⟩

theorem Proper.written_comment {t : Token} (ht : t.Proper) (h : t.shape = .comment) :
    t.Written (Style.commentLine t.text) := by
  obtain ⟨rest, hrest⟩ := ht.trim_comment h
  refine .of_shape_eq ?_ (Style.solid_commentLine hrest)
    (fun hne => absurd h hne) (Style.trimRight_commentLine hrest) ?_
  · rw [h]
    refine Shape.Reads.read_eq (.comment ?_ (Style.isBanner_commentLine hrest))
    rw [Style.trim_commentLine hrest]
    rfl
  · rw [Style.commentLine_eq hrest]
    have hfeed : '\n' ∉ rest := by
      have hline := not_mem_trim ht.feed
      rw [hrest, List.mem_cons, not_or] at hline
      exact hline.2
    have htail : '\n' ∉ ' ' :: trimLeft rest := by
      obtain ⟨a, -, ha⟩ := exists_append_trimLeft rest
      rw [ha] at hfeed
      simp only [List.mem_append, not_or] at hfeed
      simpa using hfeed.2
    obtain ⟨b, -, hb⟩ := exists_trimRight_append (' ' :: trimLeft rest)
    rw [hb, List.mem_append, not_or] at htail
    simpa using htail.1

/-! ## Declarations -/

theorem solid_protocol {t : Token} (ht : t.Genuine) {name rest : Text} {number : Option Numeral}
    (h : t.shape = .protocol name number rest) :
    Text.solid t.text =
      Text.solid name ++ ((number.map Numeral.digits).getD [] ++ '{' :: Text.solid rest) := by
  obtain ⟨-, -, m, hm, htext⟩ := ht.protocol h
  rw [htext, solid_append, solid_append, Row.solid_numberPart hm,
    solid_cons_of_not_isSpace isSpace_openBrace]

theorem Proper.written_header {t : Token} (ht : t.Proper) {name rest : Text}
    {number : Option Numeral} (h : t.shape = .protocol name number rest) (s : Style) :
    t.Written ((Row.header name (number.map Numeral.value) (trim rest)).line s) := by
  -- the header must not be read as a block start, which is decided by its name and number alone
  obtain ⟨hb, hname, m, hm, htext⟩ := ht.protocol h
  rw [htext, Shape.block?_declaration_eq_none_iff hname hm] at hb
  have hread := Row.read_header s (trim rest) hname
    fun hn : number.map Numeral.value = none => hb (Option.map_eq_none_iff.mp hn)
  obtain ⟨m', hm', hfeed', hline⟩ :=
    Row.exists_header_line s name (number.map Numeral.value) (trim rest)
  have hfeed := ht.feed
  rw [htext] at hfeed
  simp only [List.mem_append, List.mem_cons, not_or] at hfeed
  refine ⟨?_, ?_, ?_, ?_, ?_, ?_⟩
  · rw [h, hread]
    refine .protocol ?_ (by rw [Row.trim_afterBrace, trim_trim])
    cases number with
    | none => rfl
    | some n => exact congrArg some (Numeral.value_decimal n.value).symm
  · rw [solid_protocol ht.toGenuine h, Row.solid_header, solid_trim]
    refine SameButDigits.append_left _ ⟨[], (number.map Numeral.digits).getD [],
      ((number.map Numeral.value).map decimal).getD [], '{' :: Text.solid rest, ?_, ?_, rfl, rfl⟩
    · cases number with
      | none => exact fun c hc => by cases hc
      | some n => exact hm.1.2
    · cases number with
      | none => exact fun c hc => by cases hc
      | some n => exact (Numeral.spelled_decimal n.value).2
  · rw [h]
    exact fun hp => by cases hp
  · rw [hline]
    have htrim := trimRight_append_cons (name ++ m') isSpace_openBrace (Row.afterBrace (trim rest))
    rw [Row.trimRight_afterBrace (trimRight_trim rest)] at htrim
    simpa only [List.append_assoc] using htrim
  · have hrest : '\n' ∉ Row.afterBrace (trim rest) := by
      have hr := not_mem_trim hfeed.2.2.2
      cases hcons : trim rest with
      | nil => exact List.not_mem_nil
      | cons c u =>
        rw [hcons] at hr
        simp only [Row.afterBrace]
        split
        · exact hr
        · simpa using hr
    rw [hline]
    simp only [List.mem_append, List.mem_cons, not_or]
    exact ⟨hfeed.1, hfeed', by decide, hrest⟩
  · intro hf
    rw [fault?, h] at hf
    rw [hread]
    cases number with
    | none => rfl
    | some n => exact Numeral.fault?_decimal_value hm.1 hf

/-! ## Block starts and fields -/

/-- A line that does not end in white space has a last part that does not. -/
theorem Proper.trimRest_shape {t : Token} (ht : t.Proper) : t.shape.trimRest = t.shape := by
  rw [ht.shape_eq, ← Shape.read_trimRight, ht.trimmed]

theorem Proper.trimRight_block {t : Token} (ht : t.Proper) {k : BlockKind} {closed : Bool}
    {rest : Text} (h : t.shape = .block k closed rest) : trimRight rest = rest := by
  have hrest := ht.trimRest_shape
  rw [h] at hrest
  exact (Shape.block.inj hrest).2.2

theorem solid_block {t : Token} (ht : t.Genuine) {k : BlockKind} {rest : Text}
    (h : t.shape = .block k false rest) : Text.solid t.text = k.word ++ '{' :: Text.solid rest := by
  obtain ⟨a, b, r, ha, hb, ⟨rfl, -⟩, htext⟩ := ht.block h
  rw [htext, solid_append, solid_append, solid_append, solid_of_isBlank ha, solid_of_isBlank hb,
    solid_eq_self_of_isWord k.isName_word.2, solid_cons_of_not_isSpace isSpace_openBrace]
  rfl

theorem solid_closedBlock {t : Token} (ht : t.Genuine) {k : BlockKind} {rest : Text}
    (h : t.shape = .block k true rest) :
    Text.solid t.text = k.word ++ '{' :: '}' :: Text.solid rest := by
  obtain ⟨a, b, r, ha, hb, ⟨c, hc, rfl⟩, htext⟩ := ht.block h
  rw [htext, solid_append, solid_append, solid_append, solid_of_isBlank ha, solid_of_isBlank hb,
    solid_eq_self_of_isWord k.isName_word.2, solid_cons_of_not_isSpace isSpace_openBrace,
    solid_append, solid_of_isBlank hc, solid_cons_of_not_isSpace isSpace_closeBrace]
  rfl

theorem solid_closeBrace {t : Token} (ht : t.Genuine) (h : t.shape = .closeBrace) :
    Text.solid t.text = ['}'] := by
  have hr := ht.reads
  rw [h] at hr
  cases hr with
  | closeBrace htrim => rw [← solid_trim, htrim]; rfl

theorem Proper.written_block {t : Token} (ht : t.Proper) {k : BlockKind} {rest : Text}
    (h : t.shape = .block k false rest) (s : Style) : t.Written ((Row.block k rest).line s) := by
  obtain ⟨a, b, r, -, -, ⟨rfl, hhead⟩, htext⟩ := ht.block h
  have hrest := ht.trimRight_block h
  have hread := Row.read_block s k hhead
  refine ⟨?_, .of_eq ?_, ?_, ?_, ?_, ?_⟩
  · rw [h, hread]
    refine .block ?_
    rw [hrest, trimRight_squeeze hrest, squeeze_squeeze]
  · rw [solid_block ht.toGenuine h, Row.solid_block]
  · rw [h]
    exact fun hp => by cases hp
  · rw [Row.line]
    have happ := trimRight_append_cons (s.margin 1 ++ (k.word ++ [' '])) isSpace_openBrace (squeeze r)
    rw [trimRight_squeeze hrest] at happ
    simpa using happ
  · have hfeed := ht.feed
    rw [htext] at hfeed
    simp only [List.mem_append, List.mem_cons, not_or] at hfeed
    have hsq := not_mem_squeeze hfeed.2.2.2.2 (by decide)
    have hword := hfeed.2.1
    have hmargin : '\n' ∉ s.margin 1 := fun hm => by
      simpa using List.eq_of_mem_replicate hm
    simp [Row.line, hsq, hword, hmargin]
  · rw [hread]
    exact fun _ => rfl

theorem solid_field {t : Token} (ht : t.Genuine) {name body : Text} {n : Numeral}
    (h : t.shape = .field name n body) :
    Text.solid t.text = name ++ (n.digits ++ ':' :: Text.solid body) := by
  obtain ⟨hname, hn, a, g, b, ha, -, hg, hb, htext⟩ := ht.field h
  rw [htext, solid_append, solid_append, solid_append, solid_append, solid_append,
    solid_of_isBlank ha, solid_of_isBlank hg, solid_of_isBlank hb,
    solid_eq_self_of_isWord hname.2, solid_eq_self_of_isWord hn.isWord,
    solid_cons_of_not_isSpace isSpace_colon]
  rfl

/-- The line of a field holds no line feed if the content holds none. -/
theorem not_mem_fieldLine (s : Style) (level : Int) {name : Text} (hname : IsName name) (n : Nat)
    {content : Text} (h : '\n' ∉ content) : '\n' ∉ s.fieldLine level name (decimal n) content := by
  obtain ⟨i, j, hline, -⟩ := s.exists_fieldLine level name (decimal n) content
  rw [hline, Style.splitComment_eq]
  have hmargin : '\n' ∉ s.margin level := fun hm => by
    simpa using List.eq_of_mem_replicate hm
  have hname' : '\n' ∉ name := fun hm => by cases hname.2 _ hm
  have hdigit : '\n' ∉ decimal n := fun hm => by cases Numeral.isDigit_of_mem_decimal hm
  have hcode : '\n' ∉ trim (beforeComment content) :=
    not_mem_trim fun hm => h ((List.takeWhile_sublist _).subset hm)
  have hcomment : '\n' ∉ (commentOf content).getD [] := by
    unfold commentOf
    split
    · exact List.not_mem_nil
    · next c u hdrop =>
      refine not_mem_trim fun hm => h ?_
      rw [← hdrop] at hm
      exact (List.dropWhile_sublist _).subset hm
  simp [hmargin, hname', hdigit, hcode, hcomment, List.mem_replicate]

theorem Proper.written_field {t : Token} (ht : t.Proper) {name body : Text} {n : Numeral}
    (h : t.shape = .field name n body) (s : Style) (level : Int) :
    t.Written ((Row.field level name n.value (fieldContent body)).line s) := by
  obtain ⟨hname, hn, -⟩ := ht.field h
  have hbody := ht.feed_field h
  obtain ⟨i, j, -, htrim⟩ := s.exists_fieldLine level name (decimal n.value) (fieldContent body)
  have hcontent : '\n' ∉ fieldContent body := fun hm => by
    simpa using List.mem_takeWhile_imp hm
  have hfeed : '\n' ∉ (Row.field level name n.value (fieldContent body)).line s :=
    not_mem_fieldLine s level hname n.value hcontent
  obtain ⟨body', hread, hsplit⟩ := Row.read_field s level hname n.value hfeed
  refine ⟨?_, ?_, ?_, htrim, hfeed, ?_⟩
  · rw [h, hread]
    exact .field (Numeral.value_decimal n.value).symm hsplit.symm
  · rw [solid_field ht.toGenuine h, Row.solid_field s level hname, Shape.fieldContent_eq hbody,
      solid_trimLeft]
    exact SameButDigits.append_left _
      ⟨[], n.digits, decimal n.value, ':' :: Text.solid body, hn.2,
        (Numeral.spelled_decimal n.value).2, rfl, rfl⟩
  · rw [h]
    exact fun hp => by cases hp
  · intro hf
    rw [fault?, h] at hf
    rw [hread]
    exact Numeral.fault?_decimal_value hn hf

/-! ## Lines without parts -/

theorem Proper.written_indented {t : Token} (ht : t.Proper) (hp : t.shape.isPlain = true)
    {s : Style} {level : Int} (h : s.margin level ≠ [] ∨ (trim t.text).head? = some '}') :
    t.Written ((Row.plain level (trim t.text)).line s) := by
  have hread : Shape.read (s.margin level ++ trim t.text) = t.shape := by
    rw [ht.shape_eq] at hp ⊢
    exact Shape.read_indent ht.trimmed (s.isBlank_margin level) h hp
  have hne : trim t.text ≠ [] := by
    intro hnil
    exact ht.solid (by rw [ht.shape_eq]; exact Shape.Reads.read_eq (.blank hnil))
  refine .of_shape_eq hread ?_ (fun _ => ?_) ?_ ?_
  · rw [Row.line, solid_append, solid_of_isBlank (s.isBlank_margin level), solid_trim]
    rfl
  · rw [Row.line, trim_append_of_isBlank_left (s.isBlank_margin level), trim_trim]
  · exact trimRight_append_of_ne_nil _ hne (trimRight_trim _)
  · have hmargin : '\n' ∉ s.margin level := fun hm => by
      simpa using List.eq_of_mem_replicate hm
    rw [Row.line, List.mem_append, not_or]
    exact ⟨hmargin, not_mem_trim ht.feed⟩

end Token

namespace Style

/-! ## Every line -/

theorem lineOf_banner (s : Style) (depth : Option Int) {t : Token} (h : t.shape = .banner) :
    s.lineOf depth t = trim t.text := by
  simp only [lineOf, h]

theorem lineOf_protocol (s : Style) (depth : Option Int) {t : Token} {name rest : Text}
    {number : Option Numeral} (h : t.shape = .protocol name number rest) :
    s.lineOf depth t = (Row.header name (number.map Numeral.value) (trim rest)).line s := by
  simp only [lineOf, h]

theorem lineOf_block (s : Style) (d : Int) {t : Token} {k : BlockKind} {closed : Bool} {rest : Text}
    (h : t.shape = .block k closed rest) : s.lineOf (some d) t = (Row.block k rest).line s := by
  simp only [lineOf, Body.rowOf, h]

theorem lineOf_field (s : Style) (d : Int) {t : Token} {name body : Text} {n : Numeral}
    (h : t.shape = .field name n body) :
    s.lineOf (some d) t =
      (Row.field (max (d + braceBalance t.text) 2) name n.value (fieldContent body)).line s := by
  simp only [lineOf, Body.rowOf, h]

/-- The level at which a line without parts stands. -/
def plainLevel (d : Int) (text : Text) : Int :=
  max (if text.head? = some '}' then d - 1 else d) 0

theorem lineOf_plain (s : Style) (d : Int) {t : Token} (hp : t.shape.isPlain = true)
    (hb : t.shape ≠ .banner) :
    s.lineOf (some d) t = (Row.plain (plainLevel d (trim t.text)) (trim t.text)).line s := by
  cases h : t.shape with
  | banner => exact absurd h hb
  | block k closed rest => rw [h] at hp; cases hp
  | protocol name number rest => rw [h] at hp; cases hp
  | field name n body => rw [h] at hp; cases hp
  | _ => simp only [lineOf, Body.rowOf, h, plainLevel]

theorem lineOf_none {t : Token} (s : Style) (hb : t.shape ≠ .banner)
    (hp : ∀ name number rest, t.shape ≠ .protocol name number rest) :
    s.lineOf none t = outsideLine t := by
  cases h : t.shape with
  | banner => exact absurd h hb
  | protocol name number rest => exact absurd h (hp name number rest)
  | _ => simp only [lineOf, h]

/-- Every line that is not empty is kept when it is written anew outside any protocol. -/
theorem written_lineOf_none (s : Style) {t : Token} (ht : t.Proper) : t.Written (s.lineOf none t) := by
  by_cases hb : t.shape = .banner
  · rw [lineOf_banner s none hb]
    exact ht.written_banner hb
  · by_cases hp : ∃ name number rest, t.shape = .protocol name number rest
    · obtain ⟨name, number, rest, hp⟩ := hp
      rw [lineOf_protocol s none hp]
      exact ht.written_header hp s
    · rw [lineOf_none s hb fun name number rest h => hp ⟨name, number, rest, h⟩, outsideLine]
      by_cases hc : t.shape = .comment
      · rw [if_pos hc]
        exact ht.written_comment hc
      · rw [if_neg hc]
        exact ht.written_self

/-- **Every line but an empty block is kept when it is written anew inside a protocol.** -/
theorem written_lineOf_some {s : Style} (hs : 0 < s.indent) {t : Token} (ht : t.Proper) {d : Int}
    (hd : 0 < d) (hb : ∀ k rest, t.shape ≠ .block k true rest) :
    t.Written (s.lineOf (some d) t) := by
  cases h : t.shape with
  | banner =>
    rw [lineOf_banner s _ h]
    exact ht.written_banner h
  | protocol name number rest =>
    rw [lineOf_protocol s _ h]
    exact ht.written_header h s
  | block k closed rest =>
    cases closed with
    | true => exact absurd h (hb k rest)
    | false =>
      rw [lineOf_block s d h]
      exact ht.written_block h s
  | field name n body =>
    rw [lineOf_field s d h]
    exact ht.written_field h s _
  | _ =>
    have hp : t.shape.isPlain = true := by rw [h]; rfl
    rw [lineOf_plain s d hp (by rw [h]; exact fun h' => by cases h')]
    refine ht.written_indented hp ?_
    by_cases hh : (trim t.text).head? = some '}'
    · exact Or.inr hh
    · refine Or.inl (margin_ne_nil hs ?_)
      rw [plainLevel, if_neg hh]
      omega

/-! ## Writing a line twice -/

/-- Alike lines are written alike inside a protocol, comments aside. -/
theorem lineOf_congr (s : Style) (d : Int) {t t' : Token} (ht : t.Proper) (ht' : t'.Proper)
    (h : t.Alike t') (hc : t.shape = .comment → trim t.text = trim t'.text) :
    s.lineOf (some d) t = s.lineOf (some d) t' := by
  have hbal := h.braceBalance_eq
  have htext : t.shape.isPlain = true → trim t.text = trim t'.text := by
    intro hp
    by_cases hcomment : t.shape = .comment
    · exact hc hcomment
    · exact h.text hp hcomment
  have hshape := h.shape
  generalize hsh : t.shape = sh at hshape
  generalize hsh' : t'.shape = sh' at hshape
  cases hshape with
  | plain hp =>
    have htrim := htext (by rw [hsh]; exact hp)
    by_cases hb : sh = .banner
    · rw [lineOf_banner s _ (hsh.trans hb), lineOf_banner s _ (hsh'.trans hb), htrim]
    · rw [lineOf_plain s d (by rw [hsh]; exact hp) (by rw [hsh]; exact hb),
        lineOf_plain s d (by rw [hsh']; exact hp) (by rw [hsh']; exact hb), htrim]
  | block hrest =>
    rw [lineOf_block s d hsh, lineOf_block s d hsh']
    rw [ht.trimRight_block hsh, ht'.trimRight_block hsh'] at hrest
    rw [Row.line, Row.line, hrest]
  | protocol hn hrest =>
    rw [lineOf_protocol s _ hsh, lineOf_protocol s _ hsh', hn, hrest]
  | field hn hsplit =>
    rw [lineOf_field s d hsh, lineOf_field s d hsh', hn, hbal]
    exact Row.field_line_congr s _ _ _ hsplit

/-- **Writing a line twice is writing it once**, outside any protocol. -/
theorem lineOf_none_lineOf_none (s : Style) {t t' : Token} (ht : t.Proper)
    (ht' : t'.shape = Shape.read t'.text) (h : t'.text = s.lineOf none t) :
    s.lineOf none t' = t'.text := by
  have hw := s.written_lineOf_none ht
  rw [← h] at hw
  have hshape := (hw.alike ht').shape
  cases hsh : t.shape with
  | banner =>
    rw [lineOf_banner s none (hshape.eq_iff_of_isPlain rfl |>.mpr hsh), h, lineOf_banner s none hsh,
      trim_trim]
  | comment =>
    have hsh' := (hshape.eq_iff_of_isPlain rfl).mpr hsh
    obtain ⟨rest, hrest⟩ := ht.trim_comment hsh
    simp only [lineOf, hsh, outsideLine, if_true] at h
    simp only [lineOf, hsh', outsideLine, if_true]
    rw [h, commentLine_commentLine hrest]
  | protocol name number rest =>
    rw [hsh] at hshape
    generalize hsh' : t'.shape = sh' at hshape
    cases hshape with
    | plain hp => cases hp
    | protocol hn hrest =>
      rw [lineOf_protocol s none hsh', h, lineOf_protocol s none hsh, hn, hrest]
  | _ =>
    have hsame : s.lineOf none t = t.text := by simp [lineOf, hsh, outsideLine]
    have hsh' : t'.shape = t.shape := by
      rw [ht', h, hsame, ht.shape_eq]
    simp [lineOf, hsh', hsh, outsideLine]

/-- **Writing a line twice is writing it once**, inside a protocol. -/
theorem lineOf_some_lineOf_some {s : Style} (hs : 0 < s.indent) {t t' : Token} (ht : t.Proper)
    (ht' : t'.shape = Shape.read t'.text) {d : Int} (hd : 0 < d)
    (hb : ∀ k rest, t.shape ≠ .block k true rest) (h : t'.text = s.lineOf (some d) t) : s.lineOf (some d) t' = t'.text := by
  have hw := written_lineOf_some hs ht hd hb
  rw [← h] at hw
  rw [← lineOf_congr s d ht (hw.proper ht ht') (hw.alike ht'), h]
  intro hc
  rw [h, lineOf_plain s d (by rw [hc]; rfl) (by rw [hc]; exact fun h' => by cases h'), Row.line,
    trim_append_of_isBlank_left (s.isBlank_margin _), trim_trim]

end Style
end Sproto
