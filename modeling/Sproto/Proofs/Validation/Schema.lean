import Sproto.Proofs.Layout.Row
import Sproto.Proofs.Validation.Canonical

/-! # The grammar of schemas

A schema is a sequence of protocols with remarks between them; a protocol is a header, then remarks,
fields and blocks, and a closing brace (`IsSchema`).  The grammar says how lines are put together and
nothing of how they are told apart: a field may be named `request`, a comment may look like a banner.

Lines are told apart as the grammar means them.  Each kind of line has one shape (`IsHeader.read`,
`IsOpening.read`, `IsEmptyBlock.read`, `IsClosing.read`, `IsField.isFieldLine`), or one of the three that
carry nothing (`IsRemark.read_isPlain`). -/
namespace Sproto

open Text

/-! ## Lines -/

/-- White space, with a comment behind it or none: a line without content, or the end of one with
content. -/
inductive IsRemark : Text → Prop
  | blank {t : Text} (ht : isBlank t = true) : IsRemark t
  | comment {b : Text} (hb : isBlank b = true) (c : Text) : IsRemark (b ++ '#' :: c)

/-- A number as lines may spell it. -/
structure Numeral.Admissible (n : Numeral) : Prop where
  spelled : n.Spelled
  short : n.digits.length ≤ Fault.maxDigits

instance (n : Numeral) : Decidable n.Admissible :=
  decidable_of_iff (n.Spelled ∧ n.digits.length ≤ Fault.maxDigits)
    ⟨fun h => ⟨h.1, h.2⟩, fun h => ⟨h.spelled, h.short⟩⟩

/-- The line that opens a protocol, and the number that it gives to it.  A protocol without a number
cannot have the name of a block. -/
inductive IsHeader : Text → Option Numeral → Prop
  | numbered {name g b e : Text} {n : Numeral} (hname : IsName name) (hn : n.Admissible)
      (hne : g ≠ []) (hg : isBlank g = true) (hb : isBlank b = true) (he : IsRemark e) :
      IsHeader (name ++ (g ++ (n.digits ++ (b ++ '{' :: e)))) (some n)
  | plain {name b e : Text} (hname : IsName name) (hkind : ∀ k : BlockKind, name ≠ k.word)
      (hb : isBlank b = true) (he : IsRemark e) : IsHeader (name ++ (b ++ '{' :: e)) none
  | type {name b e : Text} (hname : IsName name) (hb : isBlank b = true) (he : IsRemark e) :
      IsHeader ('.' :: (name ++ (b ++ '{' :: e))) none

/-- The line that opens a block. -/
inductive IsOpening (k : BlockKind) : Text → Prop
  | mk {a b e : Text} (ha : isBlank a = true) (hb : isBlank b = true) (he : IsRemark e) :
      IsOpening k (a ++ (k.word ++ (b ++ '{' :: e)))

/-- A block without fields, on one line. -/
inductive IsEmptyBlock : Text → Prop
  | mk {a b c e : Text} (k : BlockKind) (ha : isBlank a = true) (hb : isBlank b = true)
      (hc : isBlank c = true) (he : IsRemark e) :
      IsEmptyBlock (a ++ (k.word ++ (b ++ '{' :: (c ++ '}' :: e))))

/-- The line that closes a block or a protocol. -/
inductive IsClosing : Text → Prop
  | mk {a b : Text} (ha : isBlank a = true) (hb : isBlank b = true) : IsClosing (a ++ '}' :: b)

/-- The type of a field: a word, with an asterisk before it for an array. -/
inductive IsElement : Text → Prop
  | single {w : Text} (hw : IsName w) : IsElement w
  | array {g w : Text} (hg : isBlank g = true) (hw : IsName w) : IsElement ('*' :: (g ++ w))

/-- What may follow the type of a field: nothing, or a word in parentheses. -/
inductive IsKey : Text → Prop
  | none : IsKey []
  | some {a b c w : Text} (ha : isBlank a = true) (hb : isBlank b = true) (hw : IsName w)
      (hc : isBlank c = true) : IsKey (a ++ '(' :: (b ++ (w ++ (c ++ [')']))))

/-- The line of a field with its number. -/
inductive IsField : Text → Numeral → Prop
  | mk {a name g b c type key e : Text} {n : Numeral} (ha : isBlank a = true) (hname : IsName name)
      (hne : g ≠ []) (hg : isBlank g = true) (hn : n.Admissible) (hb : isBlank b = true)
      (hc : isBlank c = true) (htype : IsElement type) (hkey : IsKey key) (he : IsRemark e) :
      IsField (a ++ (name ++ (g ++ (n.digits ++ (b ++ ':' :: (c ++ (type ++ (key ++ e)))))))) n

/-! ## Documents -/

/-- The lines between the braces of a block, with the numbers of its fields in order. -/
inductive IsBlockBody : List Text → List Nat → Prop
  | nil : IsBlockBody [] []
  | remark {l : Text} {ls : List Text} {ns : List Nat} (hl : IsRemark l) (h : IsBlockBody ls ns) :
      IsBlockBody (l :: ls) ns
  | field {l : Text} {ls : List Text} {n : Numeral} {ns : List Nat} (hl : IsField l n)
      (h : IsBlockBody ls ns) : IsBlockBody (l :: ls) (n.value :: ns)

/-- The lines of a protocol behind its header, the closing brace included.  The numbers of a block's
fields differ from each other. -/
inductive IsProtocolBody : List Text → Prop
  | closing {l : Text} (hl : IsClosing l) : IsProtocolBody [l]
  | remark {l : Text} {ls : List Text} (hl : IsRemark l) (h : IsProtocolBody ls) :
      IsProtocolBody (l :: ls)
  | field {l : Text} {ls : List Text} {n : Numeral} (hl : IsField l n) (h : IsProtocolBody ls) :
      IsProtocolBody (l :: ls)
  | emptyBlock {l : Text} {ls : List Text} (hl : IsEmptyBlock l) (h : IsProtocolBody ls) :
      IsProtocolBody (l :: ls)
  | block {k : BlockKind} {l m : Text} {inner ls : List Text} {ns : List Nat} (hl : IsOpening k l)
      (hinner : IsBlockBody inner ns) (hns : ns.Nodup) (hm : IsClosing m) (h : IsProtocolBody ls) :
      IsProtocolBody (l :: (inner ++ m :: ls))

/-- The lines of a schema, with the numbers of its protocols in order. -/
inductive IsSchema : List Text → List Nat → Prop
  | nil : IsSchema [] []
  | remark {l : Text} {ls : List Text} {ns : List Nat} (hl : IsRemark l) (h : IsSchema ls ns) :
      IsSchema (l :: ls) ns
  | protocol {l : Text} {body ls : List Text} {number : Option Numeral} {ns : List Nat}
      (hl : IsHeader l number) (hbody : IsProtocolBody body) (h : IsSchema ls ns) :
      IsSchema (l :: (body ++ ls)) ((number.map Numeral.value).toList ++ ns)

/-! ## Every line is read as it is meant -/

theorem IsRemark.head?_trimLeft {t : Text} (h : IsRemark t) :
    (trimLeft t).head? = none ∨ (trimLeft t).head? = some '#' := by
  cases h with
  | blank ht =>
    rw [trimLeft_of_isBlank ht]
    exact Or.inl rfl
  | comment hb c =>
    rw [trimLeft_append_of_isBlank hb, trimLeft_cons_of_not_isSpace isSpace_hash]
    exact Or.inr rfl

theorem IsRemark.read_isPlain {l : Text} (h : IsRemark l) :
    Shape.read l = .blank ∨ Shape.read l = .banner ∨ Shape.read l = .comment := by
  cases h with
  | blank hl => exact Or.inl (Shape.Reads.blank (trim_eq_nil_iff.mpr hl)).read_eq
  | @comment b hb c =>
    have hhead : (trim (b ++ '#' :: c)).head? = some '#' := by
      rw [Shape.head?_trim, trimLeft_append_of_isBlank hb, trimLeft_cons_of_not_isSpace isSpace_hash]
      rfl
    cases hbanner : Banner.isBanner (trim (b ++ '#' :: c)) with
    | true => exact Or.inr (Or.inl (Shape.Reads.banner hbanner).read_eq)
    | false => exact Or.inr (Or.inr (Shape.Reads.comment hhead hbanner).read_eq)

theorem head?_ne_stop_of_isName {w : Text} (hw : IsName w) : w.head? ≠ some '.' := by
  intro hdot
  have hword := hw.2 '.' (List.mem_of_mem_head? hdot)
  rw [isWord_stop] at hword
  cases hword

theorem IsHeader.read {l : Text} {number : Option Numeral} (h : IsHeader l number) :
    ∃ name rest, Shape.read l = .protocol name number rest ∧
      ∀ n, number = some n → name.head? ≠ some '.' ∧ n.Admissible := by
  -- the three kinds of header are the declarations that cannot be taken for the start of a block
  have hdeclaration : ∀ {name m e : Text}, Shape.IsProtocolName name → Shape.NumberPart number m →
      (number = none → ∀ k : BlockKind, name ≠ k.word) →
      Shape.read (name ++ (m ++ '{' :: e)) = .protocol name number e := by
    intro name m e hname hm hkind
    exact Shape.Reads.read_eq (.protocol
      ((Shape.block?_declaration_eq_none_iff hname hm e).mpr hkind)
      (Shape.protocol?_eq_some_iff.mpr ⟨hname, m, hm, rfl⟩))
  cases h with
  | @numbered name g b e n hname hn hne hg hb he =>
    refine ⟨name, e, ?_, ?_⟩
    · have hread := @hdeclaration name (g ++ (n.digits ++ b)) e (Or.inl hname)
        ⟨hn.spelled, g, b, hne, hg, hb, rfl⟩ (fun h => by cases h)
      simpa only [List.append_assoc] using hread
    · intro n' hn'
      cases hn'
      exact ⟨head?_ne_stop_of_isName hname, hn⟩
  | @plain name b e hname hkind hb he =>
    exact ⟨name, e, hdeclaration (Or.inl hname) hb fun _ => hkind, fun _ h => by cases h⟩
  | @type name b e hname hb he =>
    refine ⟨'.' :: name, e, hdeclaration (Or.inr ⟨name, hname, rfl⟩) hb fun _ k hk => ?_,
      fun _ h => by cases h⟩
    exact head?_ne_stop_of_isName k.isName_word (by rw [← hk]; rfl)

theorem IsOpening.read {k : BlockKind} {l : Text} (h : IsOpening k l) :
    ∃ rest, Shape.read l = .block k false rest := by
  cases h with
  | @mk a b e ha hb he =>
    have hopen : (trimLeft e).head? ≠ some '}' := by
      rcases he.head?_trimLeft with h | h <;> rw [h] <;> decide
    exact ⟨e, Shape.Reads.read_eq
      (.block (Shape.block?_eq_some_iff.mpr ⟨a, b, e, ha, hb, ⟨rfl, hopen⟩, rfl⟩))⟩

theorem IsEmptyBlock.read {l : Text} (h : IsEmptyBlock l) :
    ∃ k rest, Shape.read l = .block k true rest := by
  cases h with
  | @mk a b c e k ha hb hc he =>
    exact ⟨k, e, Shape.Reads.read_eq
      (.block (Shape.block?_eq_some_iff.mpr ⟨a, b, _, ha, hb, ⟨c, hc, rfl⟩, rfl⟩))⟩

theorem IsClosing.read {l : Text} (h : IsClosing l) : Shape.read l = .closeBrace := by
  cases h with
  | @mk a b ha hb =>
    refine Shape.Reads.read_eq (.closeBrace ?_)
    rw [trim_append_of_isBlank_left ha, trim, trimLeft_cons_of_not_isSpace isSpace_closeBrace,
      trimRight_cons_of_not_isSpace isSpace_closeBrace, trimRight_eq_nil_iff.mpr hb]

theorem IsElement.isTypeStart {type : Text} (h : IsElement type) : IsTypeStart type := by
  cases h with
  | single hw => exact .word hw
  | array hg hw => exact .array hg hw

theorem IsField.isFieldLine {l : Text} {n : Numeral} (h : IsField l n) :
    n.Admissible ∧ ∃ name, IsFieldLine l name n := by
  cases h with
  | @mk a name g b c type key e n ha hname hne hg hn hb hc htype hkey he =>
    exact ⟨hn, name, hname, hn.spelled, a, g, b, c, type, key ++ e, ha, hne, hg, hb, hc,
      htype.isTypeStart, rfl⟩

end Sproto
