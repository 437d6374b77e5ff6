import Sproto.Line.Shape
import Sproto.Proofs.Numeral

/-! # The grammar of lines

Which texts the readers of block starts, declarations and fields accept, as decompositions of the text:
each of `block?_eq_some_iff`, `protocol?_eq_some_iff` and `field?_eq_some_iff` says that a reader gives
certain parts exactly when the text is put together from them. -/
namespace Sproto

open Text

namespace BlockKind

theorem word_append_inj {k k' : BlockKind} {r r' : Text} (h : k.word ++ r = k'.word ++ r') :
    k = k' ∧ r = r' := by
  cases k with
  | request =>
    cases k' with
    | request => exact ⟨rfl, List.append_cancel_left h⟩
    | response => exact absurd (List.cons.inj (List.cons.inj (List.cons.inj h).2).2).1 (by decide)
  | response =>
    cases k' with
    | request => exact absurd (List.cons.inj (List.cons.inj (List.cons.inj h).2).2).1 (by decide)
    | response => exact ⟨rfl, List.append_cancel_left h⟩

theorem read?_eq_some_iff {t r : Text} {k : BlockKind} : read? t = some (k, r) ↔ t = k.word ++ r := by
  unfold read?
  split
  · next r' h =>
    rw [isPrefixOf?_eq_some_iff] at h
    constructor
    · intro h'; cases h'; exact h
    · intro h'
      obtain ⟨rfl, rfl⟩ := word_append_inj (h.symm.trans h')
      rfl
  · next hnone =>
    constructor
    · intro h
      obtain ⟨r', hr', h⟩ := Option.map_eq_some_iff.mp h
      cases h
      exact isPrefixOf?_eq_some_iff.mp hr'
    · intro h
      cases k with
      | request => rw [isPrefixOf?_eq_some_iff.mpr h] at hnone; cases hnone
      | response => rw [isPrefixOf?_eq_some_iff.mpr h]; rfl

theorem isName_word (k : BlockKind) : IsName k.word := by
  cases k with
  | request => exact ⟨by decide, List.all_eq_true.mp (by decide)⟩
  | response => exact ⟨by decide, List.all_eq_true.mp (by decide)⟩

end BlockKind

namespace Shape

/-! ## Block starts -/

/-- What follows the opening brace of a block start, by whether the block is closed at once. -/
def BlockRest (closed : Bool) (r rest : Text) : Prop :=
  if closed then ∃ c, isBlank c = true ∧ r = c ++ '}' :: rest
  else r = rest ∧ (trimLeft rest).head? ≠ some '}'

theorem block?_eq_some_iff {t rest : Text} {k : BlockKind} {closed : Bool} :
    block? t = some (block k closed rest) ↔
      ∃ a b r, isBlank a = true ∧ isBlank b = true ∧ BlockRest closed r rest ∧
        t = a ++ (k.word ++ (b ++ '{' :: r)) := by
  constructor
  · intro hsome
    obtain ⟨⟨k', u⟩, hk, h⟩ := Option.bind_eq_some_iff.mp hsome
    obtain ⟨r, hr, hmatch⟩ := Option.bind_eq_some_iff.mp h
    clear hsome h
    obtain ⟨-, a, ha, rfl⟩ := trimLeft_eq_iff.mp (BlockKind.read?_eq_some_iff.mp hk)
    obtain ⟨b, hb, rfl⟩ := (readChar?_trimLeft_eq_some_iff isSpace_openBrace).mp hr
    split at hmatch
    · next r' hr' =>
      cases hmatch
      exact ⟨a, b, r, ha, hb, (readChar?_trimLeft_eq_some_iff isSpace_closeBrace).mp hr', rfl⟩
    · next hr' =>
      cases hmatch
      exact ⟨a, b, rest, ha, hb, ⟨rfl, readChar?_eq_none_iff.mp hr'⟩, rfl⟩
  · rintro ⟨a, b, r, ha, hb, hrest, rfl⟩
    have hk : BlockKind.read? (trimLeft (a ++ (k.word ++ (b ++ '{' :: r)))) =
        some (k, b ++ '{' :: r) := by
      rw [BlockKind.read?_eq_some_iff, trimLeft_append_of_isBlank ha]
      cases k <;> rfl
    have hr : readChar? '{' (trimLeft (b ++ '{' :: r)) = some r :=
      (readChar?_trimLeft_eq_some_iff isSpace_openBrace).mpr ⟨b, hb, rfl⟩
    unfold block?
    simp only [hk, hr, Option.bind_eq_bind, Option.bind_some]
    cases closed with
    | true =>
      rw [(readChar?_trimLeft_eq_some_iff isSpace_closeBrace).mpr hrest]
      rfl
    | false =>
      obtain ⟨rfl, hne⟩ := hrest
      rw [readChar?_eq_none_iff.mpr hne]
      rfl

/-- Nothing but a block start is read by the reader of block starts. -/
theorem exists_of_block?_eq_some {t : Text} {sh : Shape} (h : block? t = some sh) :
    ∃ k closed rest, sh = block k closed rest := by
  obtain ⟨⟨k, u⟩, -, hk⟩ := Option.bind_eq_some_iff.mp h
  obtain ⟨r, -, hr⟩ := Option.bind_eq_some_iff.mp hk
  split at hr
  · cases hr; exact ⟨_, _, _, rfl⟩
  · cases hr; exact ⟨_, _, _, rfl⟩

theorem block?_append_of_isBlank {a : Text} (ha : isBlank a = true) (t : Text) :
    block? (a ++ t) = block? t := by
  unfold block?
  rw [trimLeft_append_of_isBlank ha]

/-! ## Declarations -/

/-- The name of a protocol, or of a type with its full stop. -/
def IsProtocolName (name : Text) : Prop := IsName name ∨ ∃ w, IsName w ∧ name = '.' :: w

theorem IsProtocolName.head {name : Text} (h : IsProtocolName name) :
    ∃ c w, name = c :: w ∧ (isWord c = true ∨ c = '.') := by
  rcases h with ⟨hne, hw⟩ | ⟨w, -, rfl⟩
  · obtain ⟨c, w, rfl⟩ := List.exists_cons_of_ne_nil hne
    exact ⟨c, w, rfl, Or.inl (hw c List.mem_cons_self)⟩
  · exact ⟨'.', w, rfl, Or.inr rfl⟩

theorem protocolName?_eq_some_iff {t name r : Text} :
    protocolName? t = some (name, r) ↔ IsProtocolName name ∧ Stops isWord r ∧ t = name ++ r := by
  unfold protocolName?
  split
  · next u hu =>
    obtain rfl := readChar?_eq_some_iff.mp hu
    constructor
    · intro h
      obtain ⟨⟨w, r'⟩, hw, h⟩ := Option.map_eq_some_iff.mp h
      cases h
      obtain ⟨hname, hr, rfl⟩ := readWord?_eq_some_iff.mp hw
      exact ⟨Or.inr ⟨w, hname, rfl⟩, hr, rfl⟩
    · rintro ⟨hname | ⟨w, hw, rfl⟩, hr, h⟩
      · obtain ⟨c, w, rfl⟩ := List.exists_cons_of_ne_nil hname.1
        have hc := hname.2 c List.mem_cons_self
        rw [List.cons_append, List.cons.injEq] at h
        rw [← h.1] at hc
        cases hc
      · rw [List.cons_append, List.cons.injEq] at h
        rw [readWord?_eq_some_iff.mpr ⟨hw, hr, h.2⟩]
        rfl
  · next hu =>
    rw [readWord?_eq_some_iff]
    constructor
    · rintro ⟨hname, hr, rfl⟩
      exact ⟨Or.inl hname, hr, rfl⟩
    · rintro ⟨hname | ⟨w, hw, rfl⟩, hr, rfl⟩
      · exact ⟨hname, hr, rfl⟩
      · exact absurd rfl (readChar?_eq_none_iff.mp hu)

/-- What stands between the name of a declaration and its opening brace: white space, or white space,
a number and white space. -/
def NumberPart : Option Numeral → Text → Prop
  | none, m => isBlank m = true
  | some n, m =>
      n.Spelled ∧ ∃ g h, g ≠ [] ∧ isBlank g = true ∧ isBlank h = true ∧ m = g ++ (n.digits ++ h)

theorem stops_isWord_of_isBlank {g t : Text} (hg : isBlank g = true) (ht : Stops isWord t) :
    Stops isWord (g ++ t) :=
  Stops.append_of_isBlank (fun _ => isWord_eq_false_of_isSpace) hg ht

theorem stops_isWord_gap {g : Text} (hne : g ≠ []) (hg : isBlank g = true) (t : Text) :
    Stops isWord (g ++ t) := by
  obtain ⟨c, g, rfl⟩ := List.exists_cons_of_ne_nil hne
  exact stops_cons.mpr (isWord_eq_false_of_isSpace (isBlank_iff.mp hg c List.mem_cons_self))

theorem NumberPart.stops {number : Option Numeral} {m : Text} (hm : NumberPart number m) (r : Text) :
    Stops isWord (m ++ '{' :: r) := by
  cases number with
  | none => exact stops_isWord_of_isBlank hm (stops_cons.mpr isWord_openBrace)
  | some n =>
    obtain ⟨-, g, h, hne, hg, -, rfl⟩ := hm
    rw [List.append_assoc]
    exact stops_isWord_gap hne hg _

theorem stops_isSpace_of_isName {w r : Text} (hw : IsName w) : Stops isSpace (w ++ r) := by
  obtain ⟨c, w, rfl⟩ := List.exists_cons_of_ne_nil hw.1
  exact stops_cons.mpr (isSpace_eq_false_of_isWord (hw.2 c List.mem_cons_self))

theorem stops_isDigit_of_isBlank {g t : Text} (hg : isBlank g = true) (ht : Stops isDigit t) :
    Stops isDigit (g ++ t) :=
  Stops.append_of_isBlank (fun _ => isDigit_eq_false_of_isSpace) hg ht

theorem protocol?_eq_some_iff {t name rest : Text} {number : Option Numeral} :
    protocol? t = some (protocol name number rest) ↔
      IsProtocolName name ∧ ∃ m, NumberPart number m ∧ t = name ++ (m ++ '{' :: rest) := by
  constructor
  · intro hsome
    obtain ⟨⟨name', r⟩, hread, hmatch⟩ := Option.bind_eq_some_iff.mp hsome
    clear hsome
    obtain ⟨hname, -, rfl⟩ := protocolName?_eq_some_iff.mp hread
    dsimp only at hmatch
    split at hmatch
    · next u hu =>
      cases hmatch
      obtain ⟨g, hg, rfl⟩ := (readChar?_trimLeft_eq_some_iff isSpace_openBrace).mp hu
      exact ⟨hname, g, hg, rfl⟩
    · obtain ⟨u, hu, h₁⟩ := Option.bind_eq_some_iff.mp hmatch
      obtain ⟨⟨n, v⟩, hnum, h₂⟩ := Option.bind_eq_some_iff.mp h₁
      obtain ⟨w, hw, h₃⟩ := Option.bind_eq_some_iff.mp h₂
      cases h₃
      clear hmatch h₁ h₂
      obtain ⟨-, g, hne, hg, rfl⟩ := readGap?_eq_some_iff.mp hu
      obtain ⟨hn, -, rfl⟩ := Numeral.read?_eq_some_iff.mp hnum
      obtain ⟨b, hb, rfl⟩ := (readChar?_trimLeft_eq_some_iff isSpace_openBrace).mp hw
      refine ⟨hname, g ++ (n.digits ++ b), ⟨hn, g, b, hne, hg, hb, rfl⟩, ?_⟩
      simp only [List.append_assoc]
  · rintro ⟨hname, m, hm, rfl⟩
    unfold protocol?
    simp only [protocolName?_eq_some_iff.mpr ⟨hname, hm.stops rest, rfl⟩, Option.bind_eq_bind,
      Option.bind_some]
    cases number with
    | none =>
      rw [(readChar?_trimLeft_eq_some_iff isSpace_openBrace).mpr ⟨m, hm, rfl⟩]
      rfl
    | some n =>
      obtain ⟨hn, g, b, hne, hg, hb, rfl⟩ := hm
      -- the brace is looked for first, and a digit is in its place
      have hfirst : readChar? '{' (trimLeft (g ++ (n.digits ++ b) ++ '{' :: rest)) = none := by
        rw [List.append_assoc, trimLeft_append_of_isBlank hg, List.append_assoc,
          trimLeft_of_stops (stops_isSpace_of_isName hn.isName), readChar?_eq_none_iff]
        obtain ⟨c, w, hcw⟩ := List.exists_cons_of_ne_nil hn.1
        rw [hcw]
        have hc := hn.isWord c (by rw [hcw]; exact List.mem_cons_self)
        simpa using ne_of_isWord hc isWord_openBrace
      have hgap : readGap? (g ++ (n.digits ++ b) ++ '{' :: rest) =
          some (n.digits ++ (b ++ '{' :: rest)) := by
        rw [readGap?_eq_some_iff]
        exact ⟨stops_isSpace_of_isName hn.isName, g, hne, hg, by simp only [List.append_assoc]⟩
      have hnum : Numeral.read? (n.digits ++ (b ++ '{' :: rest)) = some (n, b ++ '{' :: rest) := by
        rw [Numeral.read?_eq_some_iff]
        exact ⟨hn, stops_isDigit_of_isBlank hb (stops_cons.mpr rfl), rfl⟩
      have hbrace : readChar? '{' (trimLeft (b ++ '{' :: rest)) = some rest :=
        (readChar?_trimLeft_eq_some_iff isSpace_openBrace).mpr ⟨b, hb, rfl⟩
      simp only [hfirst, hgap, hnum, hbrace, Option.bind_some]
      rfl

/-- Nothing but a declaration is read by the reader of declarations. -/
theorem exists_of_protocol?_eq_some {t : Text} {sh : Shape} (h : protocol? t = some sh) :
    ∃ name number rest, sh = protocol name number rest := by
  obtain ⟨⟨name, r⟩, -, hmatch⟩ := Option.bind_eq_some_iff.mp h
  dsimp only at hmatch
  split at hmatch
  · cases hmatch; exact ⟨_, _, _, rfl⟩
  · obtain ⟨u, -, h₁⟩ := Option.bind_eq_some_iff.mp hmatch
    obtain ⟨⟨n, v⟩, -, h₂⟩ := Option.bind_eq_some_iff.mp h₁
    obtain ⟨w, -, h₃⟩ := Option.bind_eq_some_iff.mp h₂
    cases h₃; exact ⟨_, _, _, rfl⟩

/-- A declaration stands in the first column, and it begins with a word or a full stop. -/
theorem protocol?_cons_eq_none {c : Char} (hw : isWord c = false) (hc : c ≠ '.') (t : Text) :
    protocol? (c :: t) = none := by
  cases h : protocol? (c :: t) with
  | none => rfl
  | some sh =>
    obtain ⟨name, number, rest, rfl⟩ := exists_of_protocol?_eq_some h
    obtain ⟨hname, m, -, ht⟩ := protocol?_eq_some_iff.mp h
    obtain ⟨d, w, rfl, hd⟩ := hname.head
    rw [List.cons_append, List.cons.injEq] at ht
    obtain ⟨rfl, -⟩ := ht
    rcases hd with hd | hd
    · rw [hw] at hd; cases hd
    · exact absurd hd hc

/-! ## Fields -/

theorem nameAndNumber?_eq_some_iff {t name r : Text} {n : Numeral} :
    nameAndNumber? t = some (name, n, r) ↔
      IsName name ∧ n.Spelled ∧ Stops isDigit r ∧
        ∃ a g, isBlank a = true ∧ g ≠ [] ∧ isBlank g = true ∧
          t = a ++ (name ++ (g ++ (n.digits ++ r))) := by
  constructor
  · intro hsome
    obtain ⟨⟨name', u⟩, hword, h₁⟩ := Option.bind_eq_some_iff.mp hsome
    obtain ⟨v, hgap, h₂⟩ := Option.bind_eq_some_iff.mp h₁
    obtain ⟨⟨n', w⟩, hnum, h₃⟩ := Option.bind_eq_some_iff.mp h₂
    cases h₃
    clear hsome h₁ h₂
    obtain ⟨hname, -, ht⟩ := readWord?_eq_some_iff.mp hword
    clear hword
    obtain ⟨-, a, ha, rfl⟩ := trimLeft_eq_iff.mp ht
    obtain ⟨-, g, hne, hg, rfl⟩ := readGap?_eq_some_iff.mp hgap
    obtain ⟨hn, hr, rfl⟩ := Numeral.read?_eq_some_iff.mp hnum
    exact ⟨hname, hn, hr, a, g, ha, hne, hg, rfl⟩
  · rintro ⟨hname, hn, hr, a, g, ha, hne, hg, rfl⟩
    have hword : readWord? (trimLeft (a ++ (name ++ (g ++ (n.digits ++ r))))) =
        some (name, g ++ (n.digits ++ r)) := by
      rw [trimLeft_append_of_isBlank ha, trimLeft_of_stops (stops_isSpace_of_isName hname)]
      exact readWord?_eq_some_iff.mpr ⟨hname, stops_isWord_gap hne hg _, rfl⟩
    have hgap : readGap? (g ++ (n.digits ++ r)) = some (n.digits ++ r) :=
      readGap?_eq_some_iff.mpr ⟨stops_isSpace_of_isName hn.isName, g, hne, hg, rfl⟩
    have hnum : Numeral.read? (n.digits ++ r) = some (n, r) :=
      Numeral.read?_eq_some_iff.mpr ⟨hn, hr, rfl⟩
    unfold nameAndNumber?
    simp only [hword, hgap, hnum, Option.bind_eq_bind, Option.bind_some]
    rfl

theorem field?_eq_some_iff {t name body : Text} {n : Numeral} :
    field? t = some (field name n body) ↔
      IsName name ∧ n.Spelled ∧
        ∃ a g b, isBlank a = true ∧ g ≠ [] ∧ isBlank g = true ∧ isBlank b = true ∧
          t = a ++ (name ++ (g ++ (n.digits ++ (b ++ ':' :: body)))) := by
  constructor
  · intro hsome
    obtain ⟨⟨name', n', r⟩, hnn, h₁⟩ := Option.bind_eq_some_iff.mp hsome
    obtain ⟨u, hu, h₂⟩ := Option.bind_eq_some_iff.mp h₁
    cases h₂
    clear hsome h₁
    obtain ⟨hname, hn, -, a, g, ha, hne, hg, rfl⟩ := nameAndNumber?_eq_some_iff.mp hnn
    obtain ⟨b, hb, rfl⟩ := (readChar?_trimLeft_eq_some_iff isSpace_colon).mp hu
    exact ⟨hname, hn, a, g, b, ha, hne, hg, hb, rfl⟩
  · rintro ⟨hname, hn, a, g, b, ha, hne, hg, hb, rfl⟩
    have hr : Stops isDigit (b ++ ':' :: body) := stops_isDigit_of_isBlank hb (stops_cons.mpr rfl)
    unfold field?
    simp only [nameAndNumber?_eq_some_iff.mpr ⟨hname, hn, hr, a, g, ha, hne, hg, rfl⟩,
      (readChar?_trimLeft_eq_some_iff isSpace_colon).mpr ⟨b, hb, rfl⟩, Option.bind_eq_bind,
      Option.bind_some]
    rfl

/-- Nothing but a field is read by the reader of fields. -/
theorem exists_of_field?_eq_some {t : Text} {sh : Shape} (h : field? t = some sh) :
    ∃ name n body, sh = field name n body := by
  obtain ⟨⟨name, n, r⟩, -, h₁⟩ := Option.bind_eq_some_iff.mp h
  obtain ⟨u, -, h₂⟩ := Option.bind_eq_some_iff.mp h₁
  cases h₂
  exact ⟨_, _, _, rfl⟩

theorem field?_append_of_isBlank {a : Text} (ha : isBlank a = true) (t : Text) :
    field? (a ++ t) = field? t := by
  unfold field? nameAndNumber?
  rw [trimLeft_append_of_isBlank ha]

end Shape
end Sproto
