import Sproto.Proofs.Layout.Style
import Sproto.Proofs.Line.Shape

/-! # Lines with a comment behind them

What the readers of block starts, declarations and fields take off the front of a line ends in a mark
that is neither white space nor a hash sign, and it holds no hash sign.  So a comment that is put behind
a line is out of their reach: it lengthens the last part of the shape, which no reader has looked at
(`read_comment`).  Only the shapes that take the whole line see it: an empty line becomes a comment, and
a brace no longer stands alone. -/
namespace Sproto

open Text

/-- **A part of a commented line that ends in a mark is a part of the line.** -/
theorem exists_of_append_comment {l w x p q : Text} {c : Char} (hw : isBlank w = true)
    (hp : '#' ∉ p) (hs : isSpace c = false) (hc : c ≠ '#')
    (h : l ++ (w ++ '#' :: x) = p ++ c :: q) :
    ∃ q', l = p ++ c :: q' ∧ q = q' ++ (w ++ '#' :: x) := by
  have hblank : ∀ {a b u v : Text}, a ++ c :: u = b ++ '#' :: v → isBlank b = true → '#' ∉ a → False := by
    intro a b u v heq hb ha
    rcases List.append_eq_append_iff.mp heq with ⟨d, hbd, hd⟩ | ⟨d, had, hd⟩
    · -- the mark would be white space, or the hash sign
      rcases d with _ | ⟨e, d⟩
      · exact hc (List.cons.inj hd).1
      · obtain ⟨rfl, -⟩ := List.cons.inj hd
        have hspace := isBlank_iff.mp hb c (by rw [hbd]; simp)
        rw [hs] at hspace
        cases hspace
    · rcases d with _ | ⟨e, d⟩
      · exact hc (List.cons.inj hd).1.symm
      · obtain ⟨rfl, -⟩ := List.cons.inj hd
        exact ha (by rw [had]; simp)
  rcases List.append_eq_append_iff.mp h with ⟨d, hpd, hd⟩ | ⟨d, hld, hd⟩
  · exact absurd hd.symm fun heq => hblank heq hw fun hmem => hp (by rw [hpd]; simp [hmem])
  · rcases d with _ | ⟨e, d⟩
    · exact (hblank (a := []) hd hw (by simp)).elim
    · obtain ⟨rfl, hq⟩ := List.cons.inj hd
      exact ⟨d, hld, hq⟩

namespace Shape

/-- The shape of a line once a comment stands behind it. -/
def withComment (tail : Text) : Shape → Shape
  | blank => comment
  | closeBrace => other
  | openBrace => other
  | block k closed rest => block k closed (rest ++ tail)
  | protocol name number rest => protocol name number (rest ++ tail)
  | field name n body => field name n (body ++ tail)
  | sh => sh

@[simp] theorem numeral?_withComment (tail : Text) (sh : Shape) :
    (sh.withComment tail).numeral? = sh.numeral? := by
  cases sh <;> rfl

theorem not_hash_of_isName {w : Text} (hw : IsName w) : '#' ∉ w := fun h => by
  cases hw.2 _ h

theorem IsProtocolName.not_hash {name : Text} (h : IsProtocolName name) : '#' ∉ name := by
  rcases h with h | ⟨w, hw, rfl⟩
  · exact not_hash_of_isName h
  · intro hmem
    rcases List.mem_cons.mp hmem with hmem | hmem
    · cases hmem
    · exact not_hash_of_isName hw hmem

theorem NumberPart.not_hash {number : Option Numeral} {m : Text} (h : NumberPart number m) :
    '#' ∉ m := by
  rcases number with _ | n
  · exact not_mem_of_isBlank h isSpace_hash
  · obtain ⟨hn, g, b, -, hg, hb, rfl⟩ := h
    simp only [List.mem_append, not_or]
    exact ⟨not_mem_of_isBlank hg isSpace_hash, not_hash_of_isName hn.isName,
      not_mem_of_isBlank hb isSpace_hash⟩

section

variable {l w x : Text}

theorem BlockRest.append_comment {closed : Bool} {r rest : Text} (hw : isBlank w = true)
    (h : BlockRest closed r rest) :
    BlockRest closed (r ++ (w ++ '#' :: x)) (rest ++ (w ++ '#' :: x)) := by
  cases closed with
  | true =>
    obtain ⟨c, hc, rfl⟩ := h
    exact ⟨c, hc, by rw [List.append_assoc, List.cons_append]⟩
  | false =>
    obtain ⟨rfl, hne⟩ := h
    refine ⟨rfl, ?_⟩
    obtain ⟨a, ha, hr⟩ := exists_append_trimLeft r
    rcases hcons : trimLeft r with _ | ⟨d, u⟩
    · rw [hr, hcons, List.append_nil, trimLeft_append_of_isBlank ha, trimLeft_append_of_isBlank hw,
        trimLeft_cons_of_not_isSpace isSpace_hash]
      simp
    · rw [hr, hcons, List.append_assoc, trimLeft_append_of_isBlank ha, List.cons_append,
        trimLeft_cons_of_not_isSpace (isSpace_of_trimLeft_eq_cons hcons)]
      rwa [hcons] at hne

/-- What follows an opening brace is closed at once by the line itself or not at all. -/
theorem BlockRest.of_append_comment {closed : Bool} {r rest : Text} (hw : isBlank w = true)
    (h : BlockRest closed (r ++ (w ++ '#' :: x)) rest) :
    ∃ rest', BlockRest closed r rest' := by
  cases closed with
  | true =>
    obtain ⟨c, hc, heq⟩ := h
    obtain ⟨q, hq, -⟩ := exists_of_append_comment hw (not_mem_of_isBlank hc isSpace_hash)
      isSpace_closeBrace (by decide) heq
    exact ⟨q, c, hc, hq⟩
  | false =>
    obtain ⟨rfl, hne⟩ := h
    refine ⟨r, rfl, fun hhead => hne ?_⟩
    obtain ⟨a, ha, hr⟩ := exists_append_trimLeft r
    rcases hcons : trimLeft r with _ | ⟨d, u⟩
    · rw [hcons] at hhead
      cases hhead
    · rw [hr, hcons, List.append_assoc, trimLeft_append_of_isBlank ha, List.cons_append,
        trimLeft_cons_of_not_isSpace (isSpace_of_trimLeft_eq_cons hcons)]
      rwa [hcons] at hhead

theorem block?_comment (hw : isBlank w = true) :
    block? (l ++ (w ++ '#' :: x)) = (block? l).map (withComment (w ++ '#' :: x)) := by
  cases h : block? l with
  | some sh =>
    obtain ⟨k, closed, rest, rfl⟩ := exists_of_block?_eq_some h
    obtain ⟨a, b, r, ha, hb, hr, rfl⟩ := block?_eq_some_iff.mp h
    refine block?_eq_some_iff.mpr ⟨a, b, _, ha, hb, hr.append_comment hw, ?_⟩
    simp only [List.append_assoc, List.cons_append]
  | none =>
    cases h' : block? (l ++ (w ++ '#' :: x)) with
    | none => rfl
    | some sh =>
      obtain ⟨k, closed, rest, rfl⟩ := exists_of_block?_eq_some h'
      obtain ⟨a, b, r, ha, hb, hr, heq⟩ := block?_eq_some_iff.mp h'
      have hp : '#' ∉ a ++ (k.word ++ b) := by
        simp only [List.mem_append, not_or]
        exact ⟨not_mem_of_isBlank ha isSpace_hash, not_hash_of_isName k.isName_word,
          not_mem_of_isBlank hb isSpace_hash⟩
      have hcut : l ++ (w ++ '#' :: x) = a ++ (k.word ++ b) ++ '{' :: r := by
        rw [heq]
        simp only [List.append_assoc]
      obtain ⟨q, hq, rfl⟩ := exists_of_append_comment hw hp isSpace_openBrace (by decide) hcut
      obtain ⟨rest', hr'⟩ := hr.of_append_comment hw
      have hsome : block? l = some (block k closed rest') :=
        block?_eq_some_iff.mpr ⟨a, b, q, ha, hb, hr', by rw [hq]; simp only [List.append_assoc]⟩
      rw [hsome] at h
      cases h

theorem protocol?_comment (hw : isBlank w = true) :
    protocol? (l ++ (w ++ '#' :: x)) = (protocol? l).map (withComment (w ++ '#' :: x)) := by
  cases h : protocol? l with
  | some sh =>
    obtain ⟨name, number, rest, rfl⟩ := exists_of_protocol?_eq_some h
    obtain ⟨hname, m, hm, rfl⟩ := protocol?_eq_some_iff.mp h
    refine protocol?_eq_some_iff.mpr ⟨hname, m, hm, ?_⟩
    simp only [List.append_assoc, List.cons_append]
  | none =>
    cases h' : protocol? (l ++ (w ++ '#' :: x)) with
    | none => rfl
    | some sh =>
      obtain ⟨name, number, rest, rfl⟩ := exists_of_protocol?_eq_some h'
      obtain ⟨hname, m, hm, heq⟩ := protocol?_eq_some_iff.mp h'
      have hp : '#' ∉ name ++ m := by
        simp only [List.mem_append, not_or]
        exact ⟨hname.not_hash, hm.not_hash⟩
      have hcut : l ++ (w ++ '#' :: x) = name ++ m ++ '{' :: rest := by
        rw [heq, List.append_assoc]
      obtain ⟨q, hq, -⟩ := exists_of_append_comment hw hp isSpace_openBrace (by decide) hcut
      have hsome : protocol? l = some (protocol name number q) :=
        protocol?_eq_some_iff.mpr ⟨hname, m, hm, by rw [hq]; simp only [List.append_assoc]⟩
      rw [hsome] at h
      cases h

theorem field?_comment (hw : isBlank w = true) :
    field? (l ++ (w ++ '#' :: x)) = (field? l).map (withComment (w ++ '#' :: x)) := by
  cases h : field? l with
  | some sh =>
    obtain ⟨name, n, body, rfl⟩ := exists_of_field?_eq_some h
    obtain ⟨hname, hn, a, g, b, ha, hne, hg, hb, rfl⟩ := field?_eq_some_iff.mp h
    refine field?_eq_some_iff.mpr ⟨hname, hn, a, g, b, ha, hne, hg, hb, ?_⟩
    simp only [List.append_assoc, List.cons_append]
  | none =>
    cases h' : field? (l ++ (w ++ '#' :: x)) with
    | none => rfl
    | some sh =>
      obtain ⟨name, n, body, rfl⟩ := exists_of_field?_eq_some h'
      obtain ⟨hname, hn, a, g, b, ha, hne, hg, hb, heq⟩ := field?_eq_some_iff.mp h'
      have hp : '#' ∉ a ++ (name ++ (g ++ (n.digits ++ b))) := by
        simp only [List.mem_append, not_or]
        exact ⟨not_mem_of_isBlank ha isSpace_hash, not_hash_of_isName hname,
          not_mem_of_isBlank hg isSpace_hash, not_hash_of_isName hn.isName,
          not_mem_of_isBlank hb isSpace_hash⟩
      have hcut : l ++ (w ++ '#' :: x) = a ++ (name ++ (g ++ (n.digits ++ b))) ++ ':' :: body := by
        rw [heq]
        simp only [List.append_assoc]
      obtain ⟨q, hq, -⟩ := exists_of_append_comment hw hp isSpace_colon (by decide) hcut
      have hsome : field? l = some (field name n q) :=
        field?_eq_some_iff.mpr ⟨hname, hn, a, g, b, ha, hne, hg, hb, by
          rw [hq]; simp only [List.append_assoc]⟩
      rw [hsome] at h
      cases h

/-- A name and a number that begin a commented line begin the line. -/
theorem nameAndNumber?_comment (hw : isBlank w = true) :
    nameAndNumber? (l ++ (w ++ '#' :: x)) =
      (nameAndNumber? l).map fun p => (p.1, p.2.1, p.2.2 ++ (w ++ '#' :: x)) := by
  have htail : Stops isDigit (w ++ '#' :: x) :=
    stops_isDigit_of_isBlank hw (stops_cons.mpr rfl)
  cases h : nameAndNumber? l with
  | some p =>
    obtain ⟨name, n, r⟩ := p
    obtain ⟨hname, hn, hr, a, g, ha, hne, hg, rfl⟩ := nameAndNumber?_eq_some_iff.mp h
    refine nameAndNumber?_eq_some_iff.mpr ⟨hname, hn, ?_, a, g, ha, hne, hg, ?_⟩
    · rcases r with _ | ⟨c, r⟩
      · exact htail
      · exact stops_cons.mpr (stops_cons.mp hr)
    · simp only [List.append_assoc]
  | none =>
    cases h' : nameAndNumber? (l ++ (w ++ '#' :: x)) with
    | none => rfl
    | some p =>
      obtain ⟨name, n, r⟩ := p
      obtain ⟨hname, hn, hr, a, g, ha, hne, hg, heq⟩ := nameAndNumber?_eq_some_iff.mp h'
      -- the last digit is the mark that the line must have
      obtain ⟨ds, d, hd⟩ : ∃ ds d, n.digits = ds ++ [d] :=
        ⟨_, _, (List.dropLast_append_getLast hn.1).symm⟩
      have hdigit : isDigit d = true := hn.2 d (by rw [hd]; simp)
      have hds : '#' ∉ ds := fun hmem => not_hash_of_isName hn.isName (by rw [hd]; simp [hmem])
      have hp : '#' ∉ a ++ (name ++ (g ++ ds)) := by
        simp only [List.mem_append, not_or]
        exact ⟨not_mem_of_isBlank ha isSpace_hash, not_hash_of_isName hname,
          not_mem_of_isBlank hg isSpace_hash, hds⟩
      have hcut : l ++ (w ++ '#' :: x) = a ++ (name ++ (g ++ ds)) ++ d :: r := by
        rw [heq, hd]
        simp only [List.append_assoc, List.cons_append, List.nil_append]
      have hne' : d ≠ '#' := by
        rintro rfl
        cases hdigit
      obtain ⟨q, hq, rfl⟩ :=
        exists_of_append_comment hw hp (isSpace_eq_false_of_isDigit hdigit) hne' hcut
      have hstop : Stops isDigit q := by
        rcases q with _ | ⟨c, q⟩
        · exact stops_nil _
        · exact stops_cons.mpr (stops_cons.mp hr)
      have hsome : nameAndNumber? l = some (name, n, q) :=
        nameAndNumber?_eq_some_iff.mpr ⟨hname, hn, hstop, a, g, ha, hne, hg, by
          rw [hq, hd]; simp only [List.append_assoc]; rfl⟩
      rw [hsome] at h
      cases h

/-! ## The shape of a commented line -/

theorem hash_mem_trim (l w x : Text) : '#' ∈ trim (l ++ (w ++ '#' :: x)) := by
  have hmem : '#' ∈ solid (trim (l ++ (w ++ '#' :: x))) := by
    rw [solid_trim, solid, List.mem_filter]
    exact ⟨by simp, by simp⟩
  exact mem_of_mem_solid hmem

/-- A line that carries something and its commented form begin with the same character. -/
theorem head?_trim_comment {l : Text} (hl : trim l ≠ []) (t : Text) :
    (trim (l ++ t)).head? = (trim l).head? := by
  obtain ⟨a, ha, hsplit⟩ := exists_append_trimLeft l
  rw [head?_trim, head?_trim]
  rcases hcons : trimLeft l with _ | ⟨c, u⟩
  · exact absurd (trim_eq_nil_iff.mpr (trimLeft_eq_nil_iff.mp hcons)) hl
  · rw [hsplit, hcons, List.append_assoc, trimLeft_append_of_isBlank ha, List.cons_append,
      trimLeft_cons_of_not_isSpace (isSpace_of_trimLeft_eq_cons hcons)]
    rfl

/-- A hash sign and a blank begin no banner. -/
theorem isBanner_hash_blank (x : Text) : Banner.isBanner ('#' :: trimRight (' ' :: x)) = false := by
  rw [Bool.eq_false_iff]
  intro h
  obtain ⟨b, -, hx⟩ := exists_trimRight_append (' ' :: x)
  rcases hcons : trimRight (' ' :: x) with _ | ⟨c, u⟩
  · rw [hcons] at h
    cases h
  · rw [hcons, List.cons_append] at hx
    obtain ⟨rfl, -⟩ := List.cons.inj hx
    rw [hcons] at h
    simp [Banner.isBanner, Banner.isHash] at h

theorem hash_mem_of_head? {l : Text} (h : (trim l).head? = some '#') : '#' ∈ l := by
  have hmem : '#' ∈ solid (trim l) :=
    List.mem_filter.mpr ⟨List.mem_of_head? h, by simp⟩
  rw [solid_trim] at hmem
  exact mem_of_mem_solid hmem

/-- A line of one mark is read by none of the readers: each of them wants a name. -/
theorem readers_eq_none_of_trim {c : Char} (hword : isWord c = false) (hstop : c ≠ '.')
    (h : trim l = [c]) : block? l = none ∧ protocol? l = none ∧ field? l = none := by
  have honly : ∀ d ∈ l, isSpace d = false → d = c := by
    intro d hd hs
    have hmem : d ∈ solid (trim l) := by
      rw [solid_trim]
      exact List.mem_filter.mpr ⟨hd, by simp [hs]⟩
    rw [h] at hmem
    exact List.mem_singleton.mp (mem_of_mem_solid hmem)
  have hname : ∀ {w : Text}, IsName w → w ⊆ l → False := by
    intro w hw hsub
    obtain ⟨d, u, rfl⟩ := List.exists_cons_of_ne_nil hw.1
    have hd := hw.2 d List.mem_cons_self
    rw [honly d (hsub List.mem_cons_self) (isSpace_eq_false_of_isWord hd), hword] at hd
    cases hd
  refine ⟨?_, ?_, ?_⟩
  · cases hb : block? l with
    | none => rfl
    | some sh =>
      obtain ⟨k, closed, rest, rfl⟩ := exists_of_block?_eq_some hb
      obtain ⟨a, b, r, -, -, -, ht⟩ := block?_eq_some_iff.mp hb
      exact (hname k.isName_word fun d hd => by rw [ht]; simp [hd]).elim
  · cases hp : protocol? l with
    | none => rfl
    | some sh =>
      obtain ⟨name, number, rest, rfl⟩ := exists_of_protocol?_eq_some hp
      obtain ⟨hn | ⟨w, hw, rfl⟩, m, -, ht⟩ := protocol?_eq_some_iff.mp hp
      · exact (hname hn fun d hd => by rw [ht]; simp [hd]).elim
      · exact absurd (honly '.' (by rw [ht]; simp) isSpace_stop).symm hstop
  · cases hf : field? l with
    | none => rfl
    | some sh =>
      obtain ⟨name, n, body, rfl⟩ := exists_of_field?_eq_some hf
      obtain ⟨hn, -, a, g, b, -, -, -, -, ht⟩ := field?_eq_some_iff.mp hf
      exact (hname hn fun d hd => by rw [ht]; simp [hd]).elim

/-- **A comment behind a line only lengthens the last part of its shape**, or ends its standing
alone.  A blank follows the hash sign, so no banner comes of it. -/
theorem read_comment (hhash : '#' ∉ l) (hw : isBlank w = true) :
    read (l ++ (w ++ '#' :: ' ' :: x)) = (read l).withComment (w ++ '#' :: ' ' :: x) := by
  have hmem := hash_mem_trim l w (' ' :: x)
  have hne : ∀ {s : Text}, '#' ∉ s → trim (l ++ (w ++ '#' :: ' ' :: x)) ≠ s := by
    intro s hs heq
    rw [heq] at hmem
    exact hs hmem
  -- a line that carries something and is read by none of the readers
  have hother : trim l ≠ [] → block? l = none → protocol? l = none → field? l = none →
      Reads (l ++ (w ++ '#' :: ' ' :: x)) other := by
    intro hl hb hp hf
    refine .other (hne (by simp)) ?_ (hne (by decide)) (hne (by decide))
      (by rw [block?_comment hw, hb]; rfl) (by rw [protocol?_comment hw, hp]; rfl)
      (by rw [field?_comment hw, hf]; rfl)
    rw [head?_trim_comment hl]
    exact fun hhead => hhash (hash_mem_of_head? hhead)
  refine Reads.read_eq ?_
  have hl := reads_read l
  revert hl
  generalize read l = sh
  intro hl
  cases hl with
  | blank h =>
    have hblank : isBlank (l ++ w) = true := by
      rw [isBlank_append, trim_eq_nil_iff.mp h, hw]
      rfl
    have htrim : trim (l ++ (w ++ '#' :: ' ' :: x)) = '#' :: trimRight (' ' :: x) := by
      rw [← List.append_assoc, trim_append_of_isBlank_left hblank, trim,
        trimLeft_cons_of_not_isSpace isSpace_hash, trimRight_cons_of_not_isSpace isSpace_hash]
    exact .comment (by rw [htrim]; rfl) (by rw [htrim, isBanner_hash_blank])
  | banner h => exact absurd (hash_mem_of_head? (head?_of_isBanner h)) hhash
  | comment h hb => exact absurd (hash_mem_of_head? h) hhash
  | closeBrace h =>
    obtain ⟨hb, hp, hf⟩ := readers_eq_none_of_trim isWord_closeBrace (by decide) h
    exact hother (by rw [h]; simp) hb hp hf
  | openBrace h =>
    obtain ⟨hb, hp, hf⟩ := readers_eq_none_of_trim isWord_openBrace (by decide) h
    exact hother (by rw [h]; simp) hb hp hf
  | block h => exact .block (by rw [block?_comment hw, h]; rfl)
  | protocol hb h =>
    exact .protocol (by rw [block?_comment hw, hb]; rfl) (by rw [protocol?_comment hw, h]; rfl)
  | field h => exact .field (by rw [field?_comment hw, h]; rfl)
  | other hnil hh hc ho hb hp hf => exact hother hnil hb hp hf

end
end Shape
end Sproto
