import Sproto.Line.Token
import Sproto.Proofs.Layout.Style
import Sproto.Proofs.Line.Shape

/-! # Lines that differ in layout only

Two lines are *alike* when they have the same shape with the same parts, up to what layout may change:
white space, the spelling of numbers, and the place of a comment behind a field.  Alike lines have the
same brace balance (`Token.Alike.braceBalance_eq`), and a line is alike to itself without the white
space at its end (`Token.Genuine.alike_trimRight`). -/
namespace Sproto

open Text

/-! ## Alike shapes -/

/-- Shapes that layout does not tell apart. -/
inductive Shape.Alike : Shape → Shape → Prop
  | plain {sh : Shape} (h : sh.isPlain = true) : Alike sh sh
  | block {k : BlockKind} {closed : Bool} {rest rest' : Text}
      (h : squeeze (trimRight rest) = squeeze (trimRight rest')) :
      Alike (.block k closed rest) (.block k closed rest')
  | protocol {name rest rest' : Text} {number number' : Option Numeral}
      (hn : number.map Numeral.value = number'.map Numeral.value) (h : trim rest = trim rest') :
      Alike (.protocol name number rest) (.protocol name number' rest')
  | field {name body body' : Text} {n n' : Numeral} (hn : n.value = n'.value)
      (h : Style.splitComment (fieldContent body) = Style.splitComment (fieldContent body')) :
      Alike (.field name n body) (.field name n' body')

namespace Shape

theorem Alike.refl (sh : Shape) : Alike sh sh := by
  cases sh with
  | block k closed rest => exact .block rfl
  | protocol name number rest => exact .protocol rfl rfl
  | field name n body => exact .field rfl rfl
  | _ => exact .plain rfl

/-- A shape without parts is alike to itself only. -/
theorem Alike.eq_of_isPlain {sh sh' : Shape} (h : Alike sh sh') (hp : sh.isPlain = true) :
    sh' = sh := by
  cases h with
  | plain h => rfl
  | block h => cases hp
  | protocol hn h => cases hp
  | field hn h => cases hp

/-- Alike shapes have parts or none together. -/
theorem Alike.isPlain_eq {sh sh' : Shape} (h : Alike sh sh') : sh'.isPlain = sh.isPlain := by
  cases h with
  | plain h => rfl
  | block h => rfl
  | protocol hn h => rfl
  | field hn h => rfl

/-- Shapes alike to one without parts are that one. -/
theorem Alike.eq_iff_of_isPlain {sh sh' p : Shape} (h : Alike sh sh') (hp : p.isPlain = true) :
    sh' = p ↔ sh = p := by
  constructor
  · rintro rfl
    rw [h.isPlain_eq] at hp
    exact (h.eq_of_isPlain hp).symm
  · rintro rfl
    exact h.eq_of_isPlain hp

theorem splitComment_trimLeft (t : Text) :
    Style.splitComment (trimLeft t) = Style.splitComment t := by
  simp only [Style.splitComment, trim_trimLeft]

theorem splitComment_trimRight (t : Text) :
    Style.splitComment (trimRight t) = Style.splitComment t := by
  simp only [Style.splitComment, trim_trimRight]

/-- The code and the comment of a field, whose line holds no line feed. -/
theorem splitComment_fieldContent {body : Text} (h : '\n' ∉ body) :
    Style.splitComment (fieldContent body) = Style.splitComment body := by
  rw [fieldContent_eq h, splitComment_trimLeft]

end Shape

theorem SameButDigits.append_left (p : Text) {a b : Text} (h : SameButDigits a b) :
    SameButDigits (p ++ a) (p ++ b) := by
  obtain ⟨u, d, e, v, hd, he, rfl, rfl⟩ := h
  exact ⟨p ++ u, d, e, v, hd, he, (List.append_assoc ..).symm, (List.append_assoc ..).symm⟩

namespace Token

/-! ## Tokens of lines -/

/-- A token that was read from a line. -/
structure Genuine (t : Token) : Prop where
  shape_eq : t.shape = Shape.read t.text
  feed : '\n' ∉ t.text

/-- A token of a line that is not blank and does not end in white space. -/
structure Proper (t : Token) : Prop extends Genuine t where
  trimmed : trimRight t.text = t.text
  solid : t.shape ≠ .blank

theorem Genuine.reads {t : Token} (ht : t.Genuine) : Shape.Reads t.text t.shape :=
  Shape.read_eq_iff.mp ht.shape_eq.symm

theorem genuine_read {l : Text} (hl : '\n' ∉ l) (i : Nat) : (read i l).Genuine := ⟨rfl, hl⟩

/-- What the parts of a block start are. -/
theorem Genuine.block {t : Token} (ht : t.Genuine) {k : BlockKind} {closed : Bool} {rest : Text}
    (h : t.shape = .block k closed rest) :
    ∃ a b r, isBlank a = true ∧ isBlank b = true ∧ Shape.BlockRest closed r rest ∧
      t.text = a ++ (k.word ++ (b ++ '{' :: r)) := by
  have hr := ht.reads
  rw [h] at hr
  cases hr with
  | block hb => exact Shape.block?_eq_some_iff.mp hb

/-- What the parts of a declaration are. -/
theorem Genuine.protocol {t : Token} (ht : t.Genuine) {name rest : Text} {number : Option Numeral}
    (h : t.shape = .protocol name number rest) :
    Shape.block? t.text = none ∧ Shape.IsProtocolName name ∧
      ∃ m, Shape.NumberPart number m ∧ t.text = name ++ (m ++ '{' :: rest) := by
  have hr := ht.reads
  rw [h] at hr
  cases hr with
  | protocol hb hp => exact ⟨hb, Shape.protocol?_eq_some_iff.mp hp⟩

/-- What the parts of a field are. -/
theorem Genuine.field {t : Token} (ht : t.Genuine) {name body : Text} {n : Numeral}
    (h : t.shape = .field name n body) :
    IsName name ∧ n.Spelled ∧
      ∃ a g b, isBlank a = true ∧ g ≠ [] ∧ isBlank g = true ∧ isBlank b = true ∧
        t.text = a ++ (name ++ (g ++ (n.digits ++ (b ++ ':' :: body)))) := by
  have hr := ht.reads
  rw [h] at hr
  cases hr with
  | field hf => exact Shape.field?_eq_some_iff.mp hf

/-- The last part of a line's shape holds no line feed either. -/
theorem Genuine.feed_field {t : Token} (ht : t.Genuine) {name body : Text} {n : Numeral}
    (h : t.shape = .field name n body) : '\n' ∉ body := by
  obtain ⟨-, -, a, g, b, -, -, -, -, heq⟩ := ht.field h
  have hfeed := ht.feed
  rw [heq] at hfeed
  simp only [List.mem_append, List.mem_cons, not_or] at hfeed
  exact hfeed.2.2.2.2.2.2

/-! ## Alike tokens -/

/-- Tokens that layout does not tell apart. -/
structure Alike (t t' : Token) : Prop where
  shape : t.shape.Alike t'.shape
  solid : SameButDigits (Text.solid t.text) (Text.solid t'.text)
  /-- A line without parts is kept as it is, comments aside. -/
  text : t.shape.isPlain = true → t.shape ≠ .comment → trim t.text = trim t'.text

theorem Alike.braceBalance_eq {t t' : Token} (h : Alike t t') :
    braceBalance t'.text = braceBalance t.text :=
  (braceBalance_congr h.solid).symm

/-- **A line is alike to itself without the white space at its end.** -/
theorem Genuine.alike_trimRight {t : Token} (ht : t.Genuine) (i : Nat) :
    Alike t (read i (trimRight t.text)) := by
  refine ⟨?_, .of_eq (by rw [read_text, solid_trimRight]), fun _ _ => by rw [read_text, trim_trimRight]⟩
  rw [read_shape, Shape.read_trimRight, ← ht.shape_eq]
  cases hs : t.shape with
  | block k closed rest => exact .block (by rw [trimRight_trimRight])
  | protocol name number rest => exact .protocol rfl (by rw [trim_trimRight])
  | field name n body =>
    have hfeed := ht.feed_field hs
    have hfeed' : '\n' ∉ trimRight body := by
      obtain ⟨b, -, hb⟩ := exists_trimRight_append body
      rw [hb] at hfeed
      exact fun h => hfeed (List.mem_append_left _ h)
    refine .field rfl ?_
    rw [Shape.splitComment_fieldContent hfeed, Shape.splitComment_fieldContent hfeed',
      Shape.splitComment_trimRight]
  | _ => exact .plain rfl

theorem Genuine.alike_of_trimRight {t t' : Token} (ht : t.Genuine) (ht' : t'.Genuine)
    (h : t'.text = trimRight t.text) : Alike t t' := by
  have halike := ht.alike_trimRight 0
  refine ⟨?_, ?_, ?_⟩
  · rw [ht'.shape_eq, h]
    exact halike.shape
  · rw [h]
    exact halike.solid
  · rw [h]
    exact halike.text

end Token
end Sproto
