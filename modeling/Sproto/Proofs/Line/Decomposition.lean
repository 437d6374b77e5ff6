import Sproto.Line.Token
import Sproto.Proofs.Line.Shape

/-! # Taking a line apart

A line that is not blank, no comment and no lone brace is the start of a block, a declaration or a field
if it can be taken apart as one.  `BlockParts`, `DeclarationParts` and `FieldParts` hold the parts of a
line together with what makes them such parts; the order in which the readers are tried does not occur in
them.

White space, words and digits are read as far as they go, so a line can be taken apart in at most one way
of each kind (`run_append_inj` carries all three proofs).  Hence the parts decide what a line is read as
and what is captured from it: `Token.FollowsParts`, proved in `classified_by_parts`. -/
namespace Sproto

open Text

namespace Text

/-- A run of characters of a class that no character of the class follows ends at one place only. -/
theorem run_append_inj {p : Char → Bool} {w w' r r' : Text} (hw : ∀ c ∈ w, p c = true)
    (hw' : ∀ c ∈ w', p c = true) (hr : Stops p r) (hr' : Stops p r') (h : w ++ r = w' ++ r') :
    w = w' ∧ r = r' := by
  induction w generalizing w' with
  | nil =>
    cases w' with
    | nil => exact ⟨rfl, h⟩
    | cons d w' =>
      rw [List.nil_append] at h
      rw [h, List.cons_append, stops_cons, hw' d List.mem_cons_self] at hr
      cases hr
  | cons c w ih =>
    cases w' with
    | nil =>
      rw [List.nil_append] at h
      rw [← h, List.cons_append, stops_cons, hw c List.mem_cons_self] at hr'
      cases hr'
    | cons d w' =>
      rw [List.cons_append, List.cons_append, List.cons.injEq] at h
      obtain ⟨rfl, h⟩ := h
      obtain ⟨rfl, hrest⟩ := ih (fun e he => hw e (List.mem_cons_of_mem _ he))
        (fun e he => hw' e (List.mem_cons_of_mem _ he)) h
      exact ⟨rfl, hrest⟩

theorem blank_append_inj {a a' r r' : Text} (ha : isBlank a = true) (ha' : isBlank a' = true)
    (hr : Stops isSpace r) (hr' : Stops isSpace r') (h : a ++ r = a' ++ r') : a = a' ∧ r = r' :=
  run_append_inj (isBlank_iff.mp ha) (isBlank_iff.mp ha') hr hr' h

end Text

/-- There are no parts exactly when the reader that finds them finds nothing. -/
theorem isEmpty_iff_eq_none {α β : Type} {found : Option β} (parts : ∀ b, found = some b → Nonempty α)
    (reads : α → ∃ b, found = some b) : IsEmpty α ↔ found = none := by
  constructor
  · intro hempty
    by_contra hsome
    obtain ⟨b, hb⟩ := Option.ne_none_iff_exists'.mp hsome
    obtain ⟨a⟩ := parts b hb
    exact hempty.false a
  · intro hnone
    refine ⟨fun a => ?_⟩
    obtain ⟨b, hb⟩ := reads a
    rw [hnone] at hb
    cases hb

/-! ## Block starts -/

/-- A line taken apart as the start of a block: white space, the word of a kind, white space, an opening
brace and the rest. -/
structure BlockParts (t : Text) where
  indent : Text
  kind : BlockKind
  gap : Text
  rest : Text
  blank_indent : isBlank indent = true
  blank_gap : isBlank gap = true
  text_eq : t = indent ++ (kind.word ++ (gap ++ '{' :: rest))

namespace BlockParts

variable {t : Text}

/-- Whether the block is closed at once: only white space stands before a closing brace. -/
def Closes (p : BlockParts t) : Prop := ∃ g r, isBlank g = true ∧ p.rest = g ++ '}' :: r

/-- **A line is the start of a block in one way only.** -/
instance : Subsingleton (BlockParts t) where
  allEq := by
    rintro ⟨indent, kind, gap, rest, hindent, hgap, htext⟩
      ⟨indent', kind', gap', rest', hindent', hgap', htext'⟩
    obtain ⟨rfl, hword⟩ := blank_append_inj hindent hindent'
      (Shape.stops_isSpace_of_isName kind.isName_word)
      (Shape.stops_isSpace_of_isName kind'.isName_word) (htext.symm.trans htext')
    obtain ⟨rfl, hrest⟩ := BlockKind.word_append_inj hword
    obtain ⟨rfl, hbrace⟩ := blank_append_inj hgap hgap' (stops_cons.mpr isSpace_openBrace)
      (stops_cons.mpr isSpace_openBrace) hrest
    obtain rfl := (List.cons.inj hbrace).2
    rfl

/-- The rest of a block start is divided by whether the block is closed at once. -/
theorem exists_blockRest (p : BlockParts t) :
    ∃ closed rest, Shape.BlockRest closed p.rest rest ∧ (closed = true ↔ p.Closes) := by
  by_cases h : p.Closes
  · obtain ⟨g, r, hg, hrest⟩ := h
    exact ⟨true, r, ⟨g, hg, hrest⟩, iff_of_true rfl ⟨g, r, hg, hrest⟩⟩
  · refine ⟨false, p.rest, ⟨rfl, fun hhead => h ?_⟩, iff_of_false Bool.false_ne_true h⟩
    obtain ⟨r, hr⟩ := List.head?_eq_some_iff.mp hhead
    obtain ⟨g, hg, hrest⟩ := exists_append_trimLeft p.rest
    exact ⟨g, r, hg, by rw [hrest, hr]⟩

theorem block?_eq (p : BlockParts t) :
    ∃ closed rest, Shape.block? t = some (.block p.kind closed rest) ∧ (closed = true ↔ p.Closes) := by
  obtain ⟨closed, rest, hrest, hcloses⟩ := p.exists_blockRest
  exact ⟨closed, rest, Shape.block?_eq_some_iff.mpr
    ⟨p.indent, p.gap, p.rest, p.blank_indent, p.blank_gap, hrest, p.text_eq⟩, hcloses⟩

theorem nonempty_of_block? {sh : Shape} (h : Shape.block? t = some sh) : Nonempty (BlockParts t) := by
  obtain ⟨k, closed, rest, rfl⟩ := Shape.exists_of_block?_eq_some h
  obtain ⟨a, b, r, ha, hb, -, ht⟩ := Shape.block?_eq_some_iff.mp h
  exact ⟨⟨a, k, b, r, ha, hb, ht⟩⟩

theorem isEmpty_iff : IsEmpty (BlockParts t) ↔ Shape.block? t = none :=
  isEmpty_iff_eq_none (fun _ => nonempty_of_block?) fun p =>
    let ⟨_, _, hblock, _⟩ := p.block?_eq
    ⟨_, hblock⟩

end BlockParts

/-! ## Declarations -/

/-- What stands between the name of a declaration and its brace. -/
inductive Between where
  /-- White space. -/
  | blank (gap : Text)
  /-- White space, a number and white space. -/
  | numbered (gap : Text) (number : Numeral) (tail : Text)
  deriving DecidableEq, Repr

namespace Between

/-- The text of what stands between. -/
def text : Between → Text
  | blank gap => gap
  | numbered gap number tail => gap ++ (number.digits ++ tail)

/-- The number in between, if there is one. -/
def number? : Between → Option Numeral
  | blank _ => none
  | numbered _ number _ => some number

/-- Whether the white space is such, and the number one or more digits behind some white space. -/
def Proper : Between → Prop
  | blank gap => isBlank gap = true
  | numbered gap number tail =>
      gap ≠ [] ∧ isBlank gap = true ∧ number.Spelled ∧ isBlank tail = true

theorem Proper.numberPart {b : Between} (h : b.Proper) : Shape.NumberPart b.number? b.text := by
  cases b with
  | blank gap => exact h
  | numbered gap number tail =>
    obtain ⟨hne, hgap, hnumber, htail⟩ := h
    exact ⟨hnumber, gap, tail, hne, hgap, htail, rfl⟩

theorem exists_of_numberPart {number : Option Numeral} {m : Text} (h : Shape.NumberPart number m) :
    ∃ b : Between, b.Proper ∧ b.number? = number ∧ b.text = m := by
  cases number with
  | none => exact ⟨.blank m, h, rfl, rfl⟩
  | some n =>
    obtain ⟨hn, g, e, hne, hg, he, rfl⟩ := h
    exact ⟨.numbered g n e, ⟨hne, hg, hn, he⟩, rfl, rfl⟩

theorem length_digits_le {b : Between} {n : Numeral} (h : b.number? = some n) :
    n.digits.length ≤ b.text.length := by
  cases b with
  | blank gap => cases h
  | numbered gap number tail =>
    cases h
    simp only [text, List.length_append]
    omega

/-- What stands before a brace is divided in one way only: where one side has a digit behind its white
space, the other one has no brace. -/
theorem text_append_inj {b b' : Between} (h : b.Proper) (h' : b'.Proper) {r r' : Text}
    (heq : b.text ++ '{' :: r = b'.text ++ '{' :: r') : b = b' ∧ r = r' := by
  have hbrace : ∀ r, Stops isSpace ('{' :: r) := fun r => stops_cons.mpr isSpace_openBrace
  have hapart : ∀ {n : Numeral} {r r' : Text}, n.Spelled → n.digits ++ r ≠ '{' :: r' := by
    intro n r r' hn hcons
    obtain ⟨c, w, hcw⟩ := List.exists_cons_of_ne_nil hn.1
    rw [hcw, List.cons_append, List.cons.injEq] at hcons
    exact ne_of_isWord (hn.isWord c (by rw [hcw]; exact List.mem_cons_self)) isWord_openBrace hcons.1
  cases b with
  | blank gap =>
    cases b' with
    | blank gap' =>
      obtain ⟨rfl, hrest⟩ := blank_append_inj h h' (hbrace r) (hbrace r') heq
      exact ⟨rfl, (List.cons.inj hrest).2⟩
    | numbered gap' number' tail' =>
      obtain ⟨-, hgap', hnumber', -⟩ := h'
      simp only [text, List.append_assoc] at heq
      obtain ⟨-, hrest⟩ := blank_append_inj h hgap' (hbrace r)
        (Shape.stops_isSpace_of_isName hnumber'.isName) heq
      exact absurd hrest.symm (hapart hnumber')
  | numbered gap number tail =>
    obtain ⟨-, hgap, hnumber, htail⟩ := h
    cases b' with
    | blank gap' =>
      simp only [text, List.append_assoc] at heq
      obtain ⟨-, hrest⟩ := blank_append_inj hgap h' (Shape.stops_isSpace_of_isName hnumber.isName)
        (hbrace r') heq
      exact absurd hrest (hapart hnumber)
    | numbered gap' number' tail' =>
      obtain ⟨-, hgap', hnumber', htail'⟩ := h'
      simp only [text, List.append_assoc] at heq
      obtain ⟨rfl, hdigits⟩ := blank_append_inj hgap hgap'
        (Shape.stops_isSpace_of_isName hnumber.isName)
        (Shape.stops_isSpace_of_isName hnumber'.isName) heq
      obtain ⟨hnum, htails⟩ := run_append_inj hnumber.2 hnumber'.2
        (Shape.stops_isDigit_of_isBlank htail (stops_cons.mpr rfl))
        (Shape.stops_isDigit_of_isBlank htail' (stops_cons.mpr rfl)) hdigits
      obtain ⟨rfl, hrest⟩ := blank_append_inj htail htail' (hbrace r) (hbrace r') htails
      obtain rfl : number = number' := congrArg Numeral.mk hnum
      exact ⟨rfl, (List.cons.inj hrest).2⟩

end Between

/-- A line taken apart as a declaration: a name in the first column, a number or none, an opening brace
and the rest. -/
structure DeclarationParts (t : Text) where
  name : Text
  between : Between
  rest : Text
  isName : Shape.IsProtocolName name
  proper : between.Proper
  text_eq : t = name ++ (between.text ++ '{' :: rest)

namespace DeclarationParts

variable {t : Text}

/-- **A line is a declaration in one way only.** -/
instance : Subsingleton (DeclarationParts t) where
  allEq := by
    rintro ⟨name, between, rest, hname, hproper, htext⟩
      ⟨name', between', rest', hname', hproper', htext'⟩
    have hread := Shape.protocolName?_eq_some_iff.mpr ⟨hname, hproper.numberPart.stops rest, htext⟩
    rw [Shape.protocolName?_eq_some_iff.mpr ⟨hname', hproper'.numberPart.stops rest', htext'⟩] at hread
    obtain ⟨rfl, hbehind⟩ := Prod.mk.inj (Option.some.inj hread)
    obtain ⟨rfl, rfl⟩ := Between.text_append_inj hproper' hproper hbehind
    rfl

theorem protocol?_eq (p : DeclarationParts t) :
    Shape.protocol? t = some (.protocol p.name p.between.number? p.rest) :=
  Shape.protocol?_eq_some_iff.mpr ⟨p.isName, p.between.text, p.proper.numberPart, p.text_eq⟩

theorem length_digits_le (p : DeclarationParts t) {n : Numeral} (h : p.between.number? = some n) :
    n.digits.length ≤ t.length := by
  have hbetween := Between.length_digits_le h
  have hlength := congrArg List.length p.text_eq
  simp only [List.length_append] at hlength
  omega

theorem nonempty_of_protocol? {sh : Shape} (h : Shape.protocol? t = some sh) :
    Nonempty (DeclarationParts t) := by
  obtain ⟨name, number, rest, rfl⟩ := Shape.exists_of_protocol?_eq_some h
  obtain ⟨hname, m, hm, ht⟩ := Shape.protocol?_eq_some_iff.mp h
  obtain ⟨b, hb, -, rfl⟩ := Between.exists_of_numberPart hm
  exact ⟨⟨name, b, rest, hname, hb, ht⟩⟩

theorem isEmpty_iff : IsEmpty (DeclarationParts t) ↔ Shape.protocol? t = none :=
  isEmpty_iff_eq_none (fun _ => nonempty_of_protocol?) fun p => ⟨_, p.protocol?_eq⟩

end DeclarationParts

/-! ## Fields -/

/-- A line taken apart as a field: white space, a name, white space, a number, white space, a colon, white
space, and a content that does not begin with white space. -/
structure FieldParts (t : Text) where
  indent : Text
  name : Text
  gap : Text
  number : Numeral
  beforeColon : Text
  afterColon : Text
  content : Text
  blank_indent : isBlank indent = true
  isName : IsName name
  gap_ne_nil : gap ≠ []
  blank_gap : isBlank gap = true
  spelled : number.Spelled
  blank_beforeColon : isBlank beforeColon = true
  blank_afterColon : isBlank afterColon = true
  stops_content : Stops isSpace content
  text_eq : t =
    indent ++ (name ++ (gap ++ (number.digits ++ (beforeColon ++ ':' :: (afterColon ++ content)))))

namespace FieldParts

variable {t : Text}

/-- **A line is a field in one way only.** -/
instance : Subsingleton (FieldParts t) where
  allEq := by
    rintro ⟨indent, name, gap, number, before, after, content, hindent, hname, hne, hgap, hnumber, hbefore,
        hafter, hcontent, htext⟩
      ⟨indent', name', gap', number', before', after', content', hindent', hname', hne', hgap', hnumber',
        hbefore', hafter', hcontent', htext'⟩
    obtain ⟨rfl, hnames⟩ := blank_append_inj hindent hindent' (Shape.stops_isSpace_of_isName hname)
      (Shape.stops_isSpace_of_isName hname') (htext.symm.trans htext')
    obtain ⟨rfl, hgaps⟩ := run_append_inj hname.2 hname'.2 (Shape.stops_isWord_gap hne hgap _)
      (Shape.stops_isWord_gap hne' hgap' _) hnames
    obtain ⟨rfl, hdigits⟩ := blank_append_inj hgap hgap' (Shape.stops_isSpace_of_isName hnumber.isName)
      (Shape.stops_isSpace_of_isName hnumber'.isName) hgaps
    obtain ⟨hnum, hcolon⟩ := run_append_inj hnumber.2 hnumber'.2
      (Shape.stops_isDigit_of_isBlank hbefore (stops_cons.mpr rfl))
      (Shape.stops_isDigit_of_isBlank hbefore' (stops_cons.mpr rfl)) hdigits
    obtain ⟨rfl, hbody⟩ := blank_append_inj hbefore hbefore' (stops_cons.mpr isSpace_colon)
      (stops_cons.mpr isSpace_colon) hcolon
    obtain ⟨rfl, rfl⟩ := blank_append_inj hafter hafter' hcontent hcontent' (List.cons.inj hbody).2
    obtain rfl : number = number' := congrArg Numeral.mk hnum
    rfl

theorem field?_eq (p : FieldParts t) :
    Shape.field? t = some (.field p.name p.number (p.afterColon ++ p.content)) :=
  Shape.field?_eq_some_iff.mpr ⟨p.isName, p.spelled, p.indent, p.gap, p.beforeColon, p.blank_indent,
    p.gap_ne_nil, p.blank_gap, p.blank_beforeColon, p.text_eq⟩

theorem length_digits_le (p : FieldParts t) : p.number.digits.length ≤ t.length := by
  have hlength := congrArg List.length p.text_eq
  simp only [List.length_append] at hlength
  omega

theorem nonempty_of_field? {sh : Shape} (h : Shape.field? t = some sh) : Nonempty (FieldParts t) := by
  obtain ⟨name, n, body, rfl⟩ := Shape.exists_of_field?_eq_some h
  obtain ⟨hname, hn, a, g, b, ha, hne, hg, hb, ht⟩ := Shape.field?_eq_some_iff.mp h
  obtain ⟨e, he, hbody⟩ := exists_append_trimLeft body
  refine ⟨⟨a, name, g, n, b, e, trimLeft body, ha, hname, hne, hg, hn, hb, he, stops_trimLeft body, ?_⟩⟩
  rw [← hbody]
  exact ht

theorem isEmpty_iff : IsEmpty (FieldParts t) ↔ Shape.field? t = none :=
  isEmpty_iff_eq_none (fun _ => nonempty_of_field?) fun p => ⟨_, p.field?_eq⟩

theorem fieldContent_body (p : FieldParts t) (feed : '\n' ∉ t) :
    fieldContent (p.afterColon ++ p.content) = p.content := by
  have hbody : '\n' ∉ p.afterColon ++ p.content := by
    rw [p.text_eq] at feed
    simp only [List.mem_append, List.mem_cons, not_or] at feed ⊢
    exact feed.2.2.2.2.2.2
  rw [Shape.fieldContent_eq hbody, trimLeft_append_of_isBlank p.blank_afterColon,
    trimLeft_of_stops p.stops_content]

end FieldParts

/-! ## Classification -/

/-- **What a line is, by the ways to take it apart.**  There is at most one way of each kind.  Of the three
kinds the first one that there is decides, and all that is captured is found among the parts. -/
structure Token.FollowsParts (token : Token) : Prop where
  unique : Subsingleton (BlockParts token.text) ∧ Subsingleton (DeclarationParts token.text) ∧
    Subsingleton (FieldParts token.text)
  isBlock : (∃ kind closed rest, token.shape = .block kind closed rest) ↔
    Nonempty (BlockParts token.text)
  isProtocol : (∃ name number rest, token.shape = .protocol name number rest) ↔
    IsEmpty (BlockParts token.text) ∧ Nonempty (DeclarationParts token.text)
  isField : (∃ name number body, token.shape = .field name number body) ↔
    IsEmpty (BlockParts token.text) ∧ IsEmpty (DeclarationParts token.text) ∧
      Nonempty (FieldParts token.text)
  isOther : token.shape = .other ↔
    IsEmpty (BlockParts token.text) ∧ IsEmpty (DeclarationParts token.text) ∧
      IsEmpty (FieldParts token.text)
  /-- A block start is closed at once exactly when its parts say so. -/
  block : ∀ p : BlockParts token.text, ∃ closed rest,
    token.shape = .block p.kind closed rest ∧ (closed = true ↔ p.Closes)
  /-- A declaration has the name and the number of its parts, and is matched up to its brace. -/
  protocol : IsEmpty (BlockParts token.text) → ∀ p : DeclarationParts token.text,
    token.shape = .protocol p.name p.between.number? p.rest ∧
      token.matchEnd = (p.name ++ (p.between.text ++ ['{'])).length
  /-- A field has the name, the number and the content of its parts. -/
  field : IsEmpty (BlockParts token.text) → IsEmpty (DeclarationParts token.text) →
    ∀ p : FieldParts token.text, ∃ body,
      token.shape = .field p.name p.number body ∧ fieldContent body = p.content

namespace Shape

variable {t : Text}

theorem read_of_declarationParts (hb : IsEmpty (BlockParts t)) (p : DeclarationParts t) :
    read t = .protocol p.name p.between.number? p.rest :=
  Reads.read_eq (.protocol (BlockParts.isEmpty_iff.mp hb) p.protocol?_eq)

theorem read_of_fieldParts (p : FieldParts t) :
    read t = .field p.name p.number (p.afterColon ++ p.content) :=
  Reads.read_eq (.field p.field?_eq)

/-- A line that can be taken apart in none of the three ways is none of the three. -/
theorem read_eq_other_iff (solid : trim t ≠ []) (hash : (trim t).head? ≠ some '#')
    (close : trim t ≠ ['}']) (opens : trim t ≠ ['{']) :
    read t = .other ↔
      IsEmpty (BlockParts t) ∧ IsEmpty (DeclarationParts t) ∧ IsEmpty (FieldParts t) := by
  rw [BlockParts.isEmpty_iff, DeclarationParts.isEmpty_iff, FieldParts.isEmpty_iff]
  constructor
  · intro h
    cases read_eq_iff.mp h with
    | other _ _ _ _ hb hp hf => exact ⟨hb, hp, hf⟩
  · rintro ⟨hb, hp, hf⟩
    exact Reads.read_eq (.other solid hash close opens hb hp hf)

end Shape

theorem followsParts_read (index : Nat) {t : Text} (feed : '\n' ∉ t) (solid : trim t ≠ [])
    (hash : (trim t).head? ≠ some '#') (close : trim t ≠ ['}']) (opens : trim t ≠ ['{']) :
    (Token.read index t).FollowsParts where
  unique := ⟨inferInstance, inferInstance, inferInstance⟩
  isBlock := by
    constructor
    · rintro ⟨kind, closed, rest, h⟩
      cases Shape.read_eq_iff.mp h with
      | block hb => exact BlockParts.nonempty_of_block? hb
    · rintro ⟨p⟩
      obtain ⟨closed, rest, hb, -⟩ := p.block?_eq
      exact ⟨p.kind, closed, rest, Shape.Reads.read_eq (.block hb)⟩
  isProtocol := by
    constructor
    · rintro ⟨name, number, rest, h⟩
      cases Shape.read_eq_iff.mp h with
      | protocol hb hp =>
        exact ⟨BlockParts.isEmpty_iff.mpr hb, DeclarationParts.nonempty_of_protocol? hp⟩
    · rintro ⟨hb, ⟨p⟩⟩
      exact ⟨_, _, _, Shape.read_of_declarationParts hb p⟩
  isField := by
    constructor
    · rintro ⟨name, number, body, h⟩
      cases Shape.read_eq_iff.mp h with
      | field hf =>
        exact ⟨BlockParts.isEmpty_iff.mpr (Shape.block?_eq_none_of_field? hf),
          DeclarationParts.isEmpty_iff.mpr (Shape.protocol?_eq_none_of_field? hf),
          FieldParts.nonempty_of_field? hf⟩
    · rintro ⟨-, -, ⟨p⟩⟩
      exact ⟨_, _, _, Shape.read_of_fieldParts p⟩
  isOther := Shape.read_eq_other_iff solid hash close opens
  block p := by
    obtain ⟨closed, rest, hb, hcloses⟩ := p.block?_eq
    exact ⟨closed, rest, Shape.Reads.read_eq (.block hb), hcloses⟩
  protocol hb p := by
    have hshape : (Token.read index t).shape = .protocol p.name p.between.number? p.rest :=
      Shape.read_of_declarationParts hb p
    refine ⟨hshape, ?_⟩
    have hlength := congrArg List.length p.text_eq
    simp only [Token.read_text, List.length_append, List.length_cons] at hlength
    simp only [Token.matchEnd, hshape, Token.read_text, List.length_append, List.length_singleton]
    omega
  field _ _ p := ⟨_, Shape.read_of_fieldParts p, p.fieldContent_body feed⟩

/-- A line whose numbers can be converted, however it is taken apart, has no fault. -/
theorem fault?_read_eq_none_of_parts (index : Nat) {t : Text}
    (declared : ∀ p : DeclarationParts t, ∀ n, p.between.number? = some n →
      n.digits.length ≤ Fault.maxDigits)
    (numbered : ∀ p : FieldParts t, p.number.digits.length ≤ Fault.maxDigits) :
    (Token.read index t).fault? = none := by
  have hreads := Shape.reads_read t
  rw [Token.fault?, Token.read_shape]
  revert hreads
  generalize Shape.read t = sh
  intro hreads
  cases hreads with
  | protocol hb hp =>
    obtain ⟨p⟩ := DeclarationParts.nonempty_of_protocol? hp
    rw [p.protocol?_eq] at hp
    cases hp
    rw [Shape.numeral?]
    rcases hn : p.between.number? with _ | n
    · rfl
    · exact (Numeral.fault?_eq_none_iff n).mpr (declared p n hn)
  | field hf =>
    obtain ⟨p⟩ := FieldParts.nonempty_of_field? hf
    rw [p.field?_eq] at hf
    cases hf
    exact (Numeral.fault?_eq_none_iff p.number).mpr (numbered p)
  | _ => rfl

/-- **A line is classified by its grammar.**  A line without line feeds that is not blank, no comment and
no lone brace, and whose numbers can be converted, is accepted, and its token is what its parts say. -/
theorem classified_by_parts {t : Text} (feed : '\n' ∉ t) (solid : trim t ≠ [])
    (hash : (trim t).head? ≠ some '#') (close : trim t ≠ ['}']) (opens : trim t ≠ ['{'])
    (declared : ∀ p : DeclarationParts t, ∀ n, p.between.number? = some n →
      n.digits.length ≤ Fault.maxDigits)
    (numbered : ∀ p : FieldParts t, p.number.digits.length ≤ Fault.maxDigits) :
    ∃ token, Token.ofLines? [t] = .ok [token] ∧ token.text = t ∧ token.FollowsParts := by
  have hfault := fault?_read_eq_none_of_parts 0 declared numbered
  exact ⟨Token.read 0 t, Token.ofLines?_singleton hfault, rfl,
    followsParts_read 0 feed solid hash close opens⟩

/-- A field with the name of a block, digits of another script, and braces in its content. -/
def blockNamedField : Text := "\trequest ٠٧ :\t*\x7b\x7d # \x7b".toList

/-- The field above is taken apart as a field alone. -/
theorem classified_blockNamedField :
    ∃ token, Token.ofLines? [blockNamedField] = .ok [token] ∧ token.FollowsParts ∧
      token.shape = .field "request".toList ⟨"٠٧".toList⟩ "\t*\x7b\x7d # \x7b".toList ∧
      token.shape.numeral?.map Numeral.value = some 7 := by
  have hmax : blockNamedField.length ≤ Fault.maxDigits := by decide
  obtain ⟨token, htoken, -, hparts⟩ := classified_by_parts (t := blockNamedField) (by decide)
    (by decide) (by decide) (by decide) (by decide)
    (fun p n hn => (p.length_digits_le hn).trans hmax) (fun p => p.length_digits_le.trans hmax)
  refine ⟨token, htoken, hparts, ?_⟩
  cases htoken
  decide +kernel

end Sproto
