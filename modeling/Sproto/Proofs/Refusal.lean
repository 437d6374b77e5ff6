import Sproto.Proofs.Layout.Conservation
import Sproto.Proofs.Outline.Placement

/-! # Documents that are refused

A document is refused for one reason only: a number that has to be converted is spelled with more digits
than are converted.  Tokens, reports and symbols need the numbers of protocols and fields; layout needs
in addition the ranges of banners, up to the first banner whose range is converted (`refused_iff_overlong`).

Positions never refuse a document of less than `2 ^ 31` lines that are each shorter than that, and what
is looked up on the way is always there (`Grounded`). -/
namespace Sproto

open Text Validation

/-- Whether a number is spelled with more digits than are converted. -/
def Numeral.IsOverlong (n : Numeral) : Prop := Fault.maxDigits < n.digits.length

instance (n : Numeral) : Decidable n.IsOverlong := inferInstanceAs (Decidable (_ < _))

/-- Whether a line declares a protocol or a field with a number that is not converted. -/
inductive SpellsOverlong (l : Text) : Prop
  | protocol {name rest : Text} {n : Numeral} (h : Shape.read l = .protocol name (some n) rest)
      (hn : n.IsOverlong) : SpellsOverlong l
  | field {name body : Text} {n : Numeral} (h : Shape.read l = .field name n body)
      (hn : n.IsOverlong) : SpellsOverlong l

/-- Whether some line of a document declares a protocol or a field with a number that is not
converted. -/
def Overlong (source : Text) : Prop := ∃ l ∈ lines source, SpellsOverlong l

/-- Whether a line is a banner that announces a range, one bound of which is not converted. -/
def RangeRefused (l : Text) : Prop :=
  Shape.read l = .banner ∧
    ∃ low high, Banner.range? l = some (low, high) ∧ (low.IsOverlong ∨ high.IsOverlong)

/-- Whether a line is a banner that announces a range, both bounds of which are converted. -/
def RangeConverted (l : Text) : Prop :=
  Shape.read l = .banner ∧
    ∃ low high, Banner.range? l = some (low, high) ∧ ¬ low.IsOverlong ∧ ¬ high.IsOverlong

/-- Whether some line announces a range that is not converted, and no line before it one that is. -/
def OverlongRange (ls : List Text) : Prop :=
  ∃ front l rest, ls = front ++ l :: rest ∧ RangeRefused l ∧ ∀ b ∈ front, ¬ RangeConverted b

/-- Whether a computation fails exactly if something is the case, and never for another reason than a
number that is spelled with too many digits. -/
structure RefusesIff {α : Type} (r : Except Fault α) (p : Prop) : Prop where
  refuses : (∃ f, r = .error f) ↔ p
  fault : ∀ f, r = .error f → ∃ digits, Fault.maxDigits < digits ∧ f = .numeralTooLong digits

namespace RefusesIff

variable {α β : Type} {r : Except Fault α} {p q : Prop}

theorem of_ok {a : α} (h : r = .ok a) (hp : ¬ p) : RefusesIff r p := by
  subst h
  refine ⟨iff_of_false ?_ hp, ?_⟩
  · rintro ⟨f, hf⟩
    cases hf
  · intro f hf
    cases hf

theorem of_error {digits : Nat} (h : r = .error (.numeralTooLong digits))
    (hd : Fault.maxDigits < digits) (hp : p) : RefusesIff r p := by
  subst h
  refine ⟨iff_of_true ⟨_, rfl⟩ hp, fun f hf => ?_⟩
  cases hf
  exact ⟨digits, hd, rfl⟩

theorem congr (h : RefusesIff r p) (hpq : p ↔ q) : RefusesIff r q :=
  ⟨h.refuses.trans hpq, h.fault⟩

theorem exists_ok (h : RefusesIff r p) (hp : ¬ p) : ∃ a, r = .ok a := by
  rcases r with f | a
  · exact absurd (h.refuses.mp ⟨f, rfl⟩) hp
  · exact ⟨a, rfl⟩

/-- Two computations in a row fail if one of them does. -/
theorem bind (h : RefusesIff r p) {k : α → Except Fault β}
    (hk : ∀ a, r = .ok a → RefusesIff (k a) q) : RefusesIff (r >>= k) (p ∨ q) := by
  rcases r with f | a
  · obtain ⟨digits, hd, rfl⟩ := h.fault f rfl
    exact of_error rfl hd (.inl (h.refuses.mp ⟨_, rfl⟩))
  · have hp : ¬ p := by
      intro hp
      obtain ⟨f, hf⟩ := h.refuses.mpr hp
      cases hf
    exact (hk a rfl).congr (by simp [hp])

theorem map (h : RefusesIff r p) (g : α → β) : RefusesIff (r.map g) p := by
  have hmap : r.map g = r >>= fun a => .ok (g a) := by rcases r with f | a <;> rfl
  rw [hmap, ← or_false p]
  exact h.bind fun a _ => of_ok rfl id

end RefusesIff

/-! ## Numbers of protocols and fields -/

theorem Numeral.fault?_of_isOverlong {n : Numeral} (h : n.IsOverlong) :
    n.fault? = some (.numeralTooLong n.digits.length) := if_pos h

theorem Numeral.fault?_of_not_isOverlong {n : Numeral} (h : ¬ n.IsOverlong) : n.fault? = none :=
  if_neg h

theorem spellsOverlong_iff {l : Text} :
    SpellsOverlong l ↔ ∃ n, (Shape.read l).numeral? = some n ∧ n.IsOverlong := by
  constructor
  · rintro (⟨h, hn⟩ | ⟨h, hn⟩)
    · exact ⟨_, by rw [h]; rfl, hn⟩
    · exact ⟨_, by rw [h]; rfl, hn⟩
  · rintro ⟨n, h, hn⟩
    unfold Shape.numeral? at h
    split at h
    · next hs =>
      subst h
      exact .protocol hs hn
    · next hs =>
      cases h
      exact .field hs hn
    · cases h

instance (l : Text) : Decidable (SpellsOverlong l) :=
  decidable_of_iff ((Shape.read l).numeral?.any (decide <| Numeral.IsOverlong ·) = true)
    (by simp [spellsOverlong_iff, Option.any_eq_true])

instance (source : Text) : Decidable (Overlong source) :=
  inferInstanceAs (Decidable (∃ l ∈ lines source, SpellsOverlong l))

theorem spellsOverlong_trimRight (l : Text) : SpellsOverlong (trimRight l) ↔ SpellsOverlong l := by
  rw [spellsOverlong_iff, spellsOverlong_iff, Token.numeral?_trimRight]

theorem not_spellsOverlong_iff {l : Text} :
    ¬ SpellsOverlong l ↔ (Shape.read l).numeral?.bind Numeral.fault? = none := by
  rw [spellsOverlong_iff]
  rcases (Shape.read l).numeral? with _ | n
  · simp
  · rw [Option.bind_some, Numeral.fault?_eq_none_iff]
    simp [Numeral.IsOverlong]

/-- **Lines are refused exactly if one of them spells too long a number.** -/
theorem refusesIff_ofLines? (ls : List Text) :
    RefusesIff (Token.ofLines? ls) (∃ l ∈ ls, SpellsOverlong l) := by
  by_cases h : ∃ l ∈ ls, SpellsOverlong l
  · unfold Token.ofLines?
    split
    · next f hf =>
      obtain ⟨t, -, hf⟩ := List.exists_of_findSome?_eq_some hf
      obtain ⟨n, -, hn⟩ := Option.bind_eq_some_iff.mp hf
      by_cases hover : n.IsOverlong
      · rw [Numeral.fault?_of_isOverlong hover] at hn
        cases hn
        exact .of_error rfl hover h
      · rw [Numeral.fault?_of_not_isOverlong hover] at hn
        cases hn
    · next hnone =>
      rw [List.findSome?_eq_none_iff] at hnone
      obtain ⟨l, hl, hover⟩ := h
      exact absurd hover (not_spellsOverlong_iff.mpr (Token.forall_fault?_ofLines.mp hnone l hl))
  · have hfault : ∀ t ∈ Token.ofLines ls, t.fault? = none := by
      refine Token.forall_fault?_ofLines.mpr fun l hl => not_spellsOverlong_iff.mp fun hover => ?_
      exact h ⟨l, hl, hover⟩
    exact .of_ok (Token.ofLines?_eq_ok_iff.mpr ⟨rfl, hfault⟩) h

theorem overlong_map_trimRight (ls : List Text) :
    (∃ l ∈ ls.map trimRight, SpellsOverlong l) ↔ ∃ l ∈ ls, SpellsOverlong l := by
  simp only [List.mem_map, exists_exists_and_eq_and, spellsOverlong_trimRight]

/-- The lines that layout reads have no fault if no line of the document spells too long a number. -/
theorem fault?_eq_none_of_not_overlong {source : Text} (h : ¬ Overlong source) :
    ∀ t ∈ Token.ofLines ((lines source).map trimRight), t.fault? = none := by
  refine Token.forall_fault?_ofLines.mpr fun l hl => not_spellsOverlong_iff.mp fun hover => ?_
  exact h ((overlong_map_trimRight _).mp ⟨l, hl, hover⟩)

/-! ## Ranges of banners -/

theorem Token.map_text_ofLines (ls : List Text) : (Token.ofLines ls).map Token.text = ls := by
  refine List.ext_getElem (by simp [ofLines]) fun i hi hi' => ?_
  simp [ofLines]

theorem overlongRange_cons (l : Text) (ls : List Text) :
    OverlongRange (l :: ls) ↔ RangeRefused l ∨ ¬ RangeConverted l ∧ OverlongRange ls := by
  constructor
  · rintro ⟨front, b, rest, heq, hb, hfront⟩
    rcases front with _ | ⟨c, front⟩
    · cases heq
      exact .inl hb
    · cases heq
      obtain ⟨hc, hfront⟩ := List.forall_mem_cons.mp hfront
      exact .inr ⟨hc, front, b, rest, rfl, hb, hfront⟩
  · rintro (h | ⟨hl, front, b, rest, rfl, hb, hfront⟩)
    · exact ⟨[], l, ls, rfl, h, fun b hb => by cases hb⟩
    · exact ⟨l :: front, b, rest, rfl, hb, List.forall_mem_cons.mpr ⟨hl, hfront⟩⟩

instance (l : Text) : Decidable (RangeRefused l) :=
  decidable_of_iff (Shape.read l = .banner ∧
      (Banner.range? l).any (fun (low, high) => low.IsOverlong ∨ high.IsOverlong) = true)
    (by simp [RangeRefused, Option.any_eq_true])

instance (l : Text) : Decidable (RangeConverted l) :=
  decidable_of_iff (Shape.read l = .banner ∧
      (Banner.range? l).any (fun (low, high) => ¬ low.IsOverlong ∧ ¬ high.IsOverlong) = true)
    (by simp [RangeConverted, Option.any_eq_true])

instance decidableOverlongRange : (ls : List Text) → Decidable (OverlongRange ls)
  | [] => .isFalse fun ⟨front, _, _, heq, _⟩ => by cases front <;> cases heq
  | l :: ls =>
      have := decidableOverlongRange ls
      decidable_of_iff _ (overlongRange_cons l ls).symm

theorem overlongRange_map_trimRight (ls : List Text) :
    OverlongRange (ls.map trimRight) ↔ OverlongRange ls := by
  have hbanner : ∀ l, Shape.read (trimRight l) = .banner ↔ Shape.read l = .banner := by
    intro l
    rw [Shape.read_trimRight]
    cases Shape.read l <;> simp [Shape.trimRest]
  have hrange : ∀ l, Banner.range? (trimRight l) = Banner.range? l := by
    intro l
    rw [Banner.range?, trim_trimRight, Banner.range?]
  induction ls with
  | nil => rfl
  | cons l ls ih =>
    rw [List.map_cons, overlongRange_cons, overlongRange_cons]
    simp only [RangeRefused, RangeConverted, hbanner, hrange, ih]

/-- **Layout fails on the first banner whose range is not converted**, unless a banner before it announces
one that is. -/
theorem refusesIff_hasRange {ts : List Token} (hts : ∀ t ∈ ts, t.shape = Shape.read t.text) :
    RefusesIff (hasRange ts) (OverlongRange (ts.map Token.text)) := by
  induction ts with
  | nil =>
    refine .of_ok rfl ?_
    rintro ⟨front, l, rest, heq, -⟩
    rcases front with _ | ⟨b, front⟩ <;> cases heq
  | cons t ts ih =>
    obtain ⟨ht, htail⟩ := List.forall_mem_cons.mp hts
    rw [List.map_cons]
    refine RefusesIff.congr ?_ (overlongRange_cons _ _).symm
    by_cases hb : t.shape = .banner
    · have hread : Shape.read t.text = .banner := ht ▸ hb
      rw [hasRange, if_pos hb]
      rcases hr : Banner.range? t.text with _ | ⟨low, high⟩
      · have hvalue : Banner.rangeValue? t.text = .ok none := by rw [Banner.rangeValue?, hr]
        simp only [hvalue]
        exact (ih htail).congr (by simp [RangeRefused, RangeConverted, hr])
      · by_cases hlow : low.IsOverlong
        · have hvalue : Banner.rangeValue? t.text = .error (.numeralTooLong low.digits.length) := by
            simp only [Banner.rangeValue?, hr, Numeral.fault?_of_isOverlong hlow]
          simp only [hvalue]
          exact .of_error rfl hlow (.inl ⟨hread, low, high, hr, .inl hlow⟩)
        by_cases hhigh : high.IsOverlong
        · have hvalue : Banner.rangeValue? t.text = .error (.numeralTooLong high.digits.length) := by
            simp only [Banner.rangeValue?, hr, Numeral.fault?_of_not_isOverlong hlow,
              Numeral.fault?_of_isOverlong hhigh]
          simp only [hvalue]
          exact .of_error rfl hhigh (.inl ⟨hread, low, high, hr, .inr hhigh⟩)
        · have hvalue : Banner.rangeValue? t.text = .ok (some (low.value, high.value)) := by
            simp only [Banner.rangeValue?, hr, Numeral.fault?_of_not_isOverlong hlow,
              Numeral.fault?_of_not_isOverlong hhigh]
          simp only [hvalue]
          refine .of_ok rfl ?_
          simp [RangeRefused, RangeConverted, hread, hr, hlow, hhigh]
    · have hread : Shape.read t.text ≠ .banner := ht ▸ hb
      rw [hasRange_cons_of_ne hb]
      exact (ih htail).congr (by simp [RangeRefused, RangeConverted, hread])

/-! ## What is looked up on the way -/

/-- Whether the line of a section outside protocols can be read again: it spells no number that is not
converted. -/
def Section.IsReadable : Section → Prop
  | .banner text | .comment text | .stray text => ¬ SpellsOverlong text
  | .protocol _ => True

/-- All that is looked up in a document whose numbers are converted is there. -/
structure Grounded (source : Text) : Prop where
  /-- The parts of the outline begin and end on lines of the document. -/
  outline : ∀ x, (Outline.ofTokens (Token.ofLines (lines source))).HasPart x →
    x.line < (lines source).length ∧ x.stop < (lines source).length
  /-- Whenever a protocol is filed under a label, there is a group for the label. -/
  label : ∀ i ≤ (lines source).length, (State.before (lines source) i).Shelved
  /-- What layout has written outside protocols can be read again. -/
  outside : ∀ s ∈ Section.ofTokens (Token.ofLines ((lines source).map trimRight)), s.IsReadable
  /-- The numbers of protocols and fields can be written. -/
  numbers : ∀ l ∈ lines source, ∀ n, (Shape.read l).numeral? = some n →
    (decimal n.value).length ≤ Fault.maxDigits
  /-- The bounds of the range of a banner in front can be written. -/
  front : ∃ low high, frontRange (Token.ofLines ((lines source).map trimRight)) =
      decimal low ++ '-' :: decimal high ∧
    (decimal low).length ≤ Fault.maxDigits ∧ (decimal high).length ≤ Fault.maxDigits

/-- A line that starts with a hash sign spells no number. -/
theorem not_spellsOverlong_of_hash {l rest : Text} (h : trim l = '#' :: rest) : ¬ SpellsOverlong l := by
  rw [spellsOverlong_iff]
  rintro ⟨n, hn, -⟩
  have hread : Shape.read l = .banner ∨ Shape.read l = .comment := by
    by_cases hb : Banner.isBanner (trim l) = true
    · exact .inl (Shape.Reads.read_eq (.banner hb))
    · exact .inr (Shape.Reads.read_eq (.comment (by rw [h]; rfl) (by simpa using hb)))
  rcases hread with hread | hread
  · rw [hread] at hn
    cases hn
  · rw [hread] at hn
    cases hn

namespace Section

theorem isReadable_outside {t : Token} (ht : t.shape = Shape.read t.text) (hf : t.fault? = none) :
    (outside t).IsReadable := by
  unfold outside
  split
  · next hs =>
    have hread : Shape.Reads t.text .comment := by
      rw [← hs, ht]
      exact Shape.reads_read _
    rcases hread with _ | _ | ⟨hhead, -⟩
    obtain ⟨rest, hrest⟩ := List.head?_eq_some_iff.mp hhead
    exact not_spellsOverlong_of_hash (Style.trim_commentLine hrest)
  · rw [Token.fault?, ht] at hf
    exact not_spellsOverlong_iff.mpr hf

theorem isReadable_cutOff (current : Option Body) : ∀ s ∈ cutOff current, s.IsReadable := by
  rcases current with _ | b
  · exact fun s hs => by cases hs
  · intro s hs
    cases List.mem_singleton.mp hs
    trivial

theorem isReadable_ended (b : Body) : ∀ s ∈ b.ended, s.IsReadable := by
  unfold Body.ended
  split
  · intro s hs
    cases List.mem_singleton.mp hs
    trivial
  · exact fun s hs => by cases hs

/-- What one item completes can be read again. -/
theorem isReadable_step (current : Option Body) {i : Item}
    (hi : ∀ t ∈ i.tokens, t.shape = Shape.read t.text ∧ t.fault? = none) :
    ∀ s ∈ (step current i).1, s.IsReadable := by
  rcases i with t | ⟨kind, ts⟩
  · obtain ⟨ht, hf⟩ := hi t List.mem_cons_self
    have houtside := isReadable_outside ht hf
    cases hs : t.shape with
    | banner =>
      have hread : Shape.Reads t.text .banner := by
        rw [← hs, ht]
        exact Shape.reads_read _
      rcases hread with _ | hbanner
      simp only [step, hs, List.forall_mem_append, List.forall_mem_singleton]
      refine ⟨isReadable_cutOff current, ?_⟩
      have hread' : Shape.read (trim t.text) = .banner :=
        Shape.Reads.read_eq (.banner (by rw [trim_trim]; exact hbanner))
      show ¬ SpellsOverlong (trim t.text)
      rw [not_spellsOverlong_iff, hread']
      rfl
    | protocol name number rest =>
      simp only [step, hs, List.forall_mem_append]
      exact ⟨isReadable_cutOff current, isReadable_ended _⟩
    | _ =>
      rcases current with _ | b
      · simpa only [step, hs, List.forall_mem_singleton] using houtside
      · simpa only [step, hs] using isReadable_ended _
  · rcases current with _ | b
    · intro s hs
      obtain ⟨t, ht, rfl⟩ := List.mem_map.mp hs
      exact isReadable_outside (hi t ht).1 (hi t ht).2
    · exact fun s hs => by cases hs

/-- **What layout writes outside protocols can be read again.** -/
theorem isReadable_run {is : List Item} (current : Option Body)
    (his : ∀ t ∈ is.flatMap Item.tokens, t.shape = Shape.read t.text ∧ t.fault? = none) :
    ∀ s ∈ run current is, s.IsReadable := by
  induction is generalizing current with
  | nil => exact isReadable_cutOff current
  | cons i is ih =>
    rw [List.flatMap_cons, List.forall_mem_append] at his
    rw [run, List.forall_mem_append]
    exact ⟨isReadable_step current his.1, ih _ his.2⟩

end Section

theorem Validation.shelved_before {ls : List Text} (hls : ∀ l ∈ ls, '\n' ∉ l) {i : Nat}
    (hi : i ≤ ls.length) : (State.before ls i).Shelved := by
  induction i with
  | zero => exact fun L hL => by cases hL
  | succ i ih =>
    have hl : ls[i]? = some ls[i] := List.getElem?_eq_getElem hi
    rw [State.before_succ hl]
    exact (files_step _ (Token.genuine_read (hls _ (List.getElem_mem hi)) i)).shelved (ih (by omega))

/-- **All that is looked up in a document is there**, if its numbers are converted. -/
theorem grounded_of_not_overlong {source : Text} (h : ¬ Overlong source) : Grounded source := by
  have hfeed : ∀ l ∈ lines source, '\n' ∉ l := fun l hl => not_mem_of_mem_lines hl
  have hlines : ∀ l ∈ lines source, ¬ SpellsOverlong l := fun l hl hover => h ⟨l, hl, hover⟩
  have hfault := fault?_eq_none_of_not_overlong h
  have hdecimal : ∀ {n : Nat}, Numeral.fault? ⟨decimal n⟩ = none →
      (decimal n).length ≤ Fault.maxDigits := fun hn => (Numeral.fault?_eq_none_iff _).mp hn
  refine ⟨fun x hx => ?_, fun i hi => shelved_before hfeed hi, ?_, fun l hl n hn => ?_, ?_⟩
  · have hpart := (Outline.within_ofTokens (Outline.numbered_ofLines (lines source))).part hx
    have hupright := hpart.upright
    have hstop := hpart.stop_le
    have hlength : (Token.ofLines (lines source)).length = (lines source).length := by
      simp [Token.ofLines]
    have hpos : 0 < (lines source).length := by simp [lines, List.length_pos_iff]
    omega
  · refine Section.isReadable_run none fun t ht => ?_
    rw [Item.flatMap_tokens_ofTokens] at ht
    have hmem := (List.mem_filter.mp ht).1
    obtain ⟨i, l, -, rfl⟩ := Token.mem_ofLines hmem
    exact ⟨rfl, hfault _ hmem⟩
  · have hn' : ¬ n.IsOverlong := fun hover => hlines l hl (spellsOverlong_iff.mpr ⟨n, hn, hover⟩)
    have hlt : n.value < 10 ^ Fault.maxDigits :=
      Nat.lt_of_lt_of_le n.value_lt (Nat.pow_le_pow_right (by omega) (Nat.not_lt.mp hn'))
    exact hdecimal (fault?_decimal hlt)
  · obtain ⟨low, high, hfront, hlow, hhigh⟩ := exists_frontRange hfault
    exact ⟨low, high, hfront, hdecimal hlow, hdecimal hhigh⟩

/-! ## The engines -/

/-- Symbols fail only where tokens do, if positions can hold the places of the document. -/
theorem refusesIff_symbols {source : Text} (hcount : (lines source).length < 2 ^ 31)
    (hlength : ∀ l ∈ lines source, l.length < 2 ^ 31) :
    RefusesIff (Symbol.ofSource source) (Overlong source) := by
  have htokens : RefusesIff (Token.ofSource? source) (Overlong source) := refusesIff_ofLines? _
  have hmax : Fault.maxCoordinate = 2 ^ 31 - 1 := rfl
  have hplaceable : Placeable source := by
    refine ⟨by omega, fun l hl => ?_⟩
    have hl := hlength l hl
    omega
  by_cases hover : Overlong source
  · obtain ⟨f, hf⟩ := htokens.refuses.mpr hover
    obtain ⟨digits, hd, rfl⟩ := htokens.fault f hf
    exact .of_error (by rw [Symbol.ofSource, hf]; rfl) hd hover
  · have hfault : ∀ t ∈ layoutTokens source, t.fault? = none :=
      fun t ht => fault?_eq_none_of_not_overlong hover t (List.mem_filter.mp ht).1
    obtain ⟨ss, hss⟩ := (Symbol.rendersAll_ofSource hfault).2 hplaceable
    exact .of_ok hss hover

theorem refusesIff_format (source : Text) :
    RefusesIff (format source) (Overlong source ∨ OverlongRange (lines source)) := by
  have htokens := (refusesIff_ofLines? ((lines source).map trimRight)).congr
    (overlong_map_trimRight (lines source))
  refine htokens.bind fun ts hts => ?_
  obtain ⟨rfl, -⟩ := Token.ofLines?_eq_ok_iff.mp hts
  have hread : ∀ t ∈ Token.ofLines ((lines source).map trimRight), t.shape = Shape.read t.text := by
    intro t ht
    obtain ⟨i, l, -, rfl⟩ := Token.mem_ofLines ht
    rfl
  have hrange := refusesIff_hasRange hread
  rw [Token.map_text_ofLines] at hrange
  have hrange := hrange.congr (overlongRange_map_trimRight (lines source))
  refine (hrange.bind (q := False) fun ranged _ => .of_ok rfl id).congr ?_
  rw [or_false]

/-- **Documents are refused for their numbers only**: of a document of less than `2 ^ 31` lines that are
each shorter than that there are tokens, a report and symbols, unless a line declares a protocol or a field
with a number of more than `Fault.maxDigits` digits, and there is a layout unless that holds or a banner
has such a number in its range and no banner before it has a range that is converted.  Nothing else fails,
and what is looked up in a document that is not refused is there. -/
theorem refused_iff_overlong {source : Text} (hcount : (lines source).length < 2 ^ 31)
    (hlength : ∀ l ∈ lines source, l.length < 2 ^ 31) :
    RefusesIff (Token.ofSource? source) (Overlong source) ∧
      RefusesIff (validate source) (Overlong source) ∧
      RefusesIff (Symbol.ofSource source) (Overlong source) ∧
      RefusesIff (format source) (Overlong source ∨ OverlongRange (lines source)) ∧
      (¬ Overlong source → Grounded source) := by
  have htokens : RefusesIff (Token.ofSource? source) (Overlong source) := refusesIff_ofLines? _
  exact ⟨htokens, htokens.map _, refusesIff_symbols hcount hlength, refusesIff_format source,
    grounded_of_not_overlong⟩

/-- A document with a bound of too many digits in the range of its banner. -/
def overlongBound : Text :=
  "#### Module 0-".toList ++ List.replicate 4301 '9' ++ " ####\na 1 \x7b\n\x7d".toList

theorem refused_overlongBound :
    ¬ Overlong overlongBound ∧ OverlongRange (lines overlongBound) ∧
      (∃ f, format overlongBound = .error f) ∧ ∃ r, validate overlongBound = .ok r := by
  have hcount : (lines overlongBound).length < 2 ^ 31 := by decide +kernel
  have hlength : ∀ l ∈ lines overlongBound, l.length < 2 ^ 31 := by decide +kernel
  have hnumbers : ¬ Overlong overlongBound := by decide +kernel
  have hrange : OverlongRange (lines overlongBound) := by decide +kernel
  obtain ⟨-, hvalidate, -, hformat, -⟩ := refused_iff_overlong hcount hlength
  exact ⟨hnumbers, hrange, hformat.refuses.mpr (.inr hrange), hvalidate.exists_ok hnumbers⟩

end Sproto
