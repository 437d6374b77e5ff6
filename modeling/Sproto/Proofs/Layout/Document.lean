import Sproto.Layout.Format
import Sproto.Proofs.Banner
import Sproto.Proofs.Layout.Rewriting
import Sproto.Proofs.Text.Lines

/-! # The formatted document

What formatting makes of a whole document.  Layout reads the lines of a document that are not blank
(`layoutTokens`); the document is *balanced* when no protocol of it is cut off (`Balanced`).

The main result is `formatted_of_format`: the lines of the formatted document that are not blank are the
lines of the document rewritten, with one banner in front if no banner announced a range. -/
namespace Sproto

open Text

/-! ## Lines and tokens -/

namespace Token

theorem mem_ofLines {ls : List Text} {t : Token} (h : t ∈ ofLines ls) :
    ∃ i, ∃ l ∈ ls, t = read i l := by
  obtain ⟨i, hi, rfl⟩ := List.mem_mapIdx.mp h
  exact ⟨i, ls[i], List.getElem_mem hi, rfl⟩

theorem exists_mem_ofLines {ls : List Text} {l : Text} (h : l ∈ ls) :
    ∃ i, read i l ∈ ofLines ls := by
  obtain ⟨i, hi, rfl⟩ := List.getElem_of_mem h
  exact ⟨i, List.mem_mapIdx.mpr ⟨i, hi, rfl⟩⟩

/-- Lines have no fault exactly when none of them spells too long a number. -/
theorem forall_fault?_ofLines {ls : List Text} :
    (∀ t ∈ ofLines ls, t.fault? = none) ↔
      ∀ l ∈ ls, (Shape.read l).numeral?.bind Numeral.fault? = none := by
  constructor
  · intro h l hl
    obtain ⟨i, hi⟩ := exists_mem_ofLines hl
    exact h _ hi
  · intro h t ht
    obtain ⟨i, l, hl, rfl⟩ := mem_ofLines ht
    exact h l hl

/-- White space at the end of a line does not change the number in it. -/
theorem numeral?_trimRight (l : Text) :
    (Shape.read (trimRight l)).numeral? = (Shape.read l).numeral? := by
  rw [Shape.read_trimRight]
  cases Shape.read l <;> rfl

/-- The texts of the tokens that are not blank, whatever their indices are. -/
theorem map_text_filter_mapIdx {f : Nat → Text → Token} (ht : ∀ i l, (f i l).text = l)
    (hs : ∀ i l, (f i l).shape = Shape.read l) (ls : List Text) :
    ((ls.mapIdx f).filter fun t => t.shape ≠ .blank).map text =
      ls.filter fun l => Shape.read l ≠ .blank := by
  induction ls generalizing f with
  | nil => rfl
  | cons l ls ih =>
    have htail := @ih (fun i => f (i + 1)) (fun i => ht (i + 1)) (fun i => hs (i + 1))
    rw [List.mapIdx_cons, List.filter_cons, List.filter_cons, hs 0 l]
    by_cases hb : Shape.read l = .blank
    · simpa [hb] using htail
    · simpa [hb, ht 0 l] using htail

/-- Blank lines are passed over in a search that finds nothing in them. -/
theorem findSome?_filter {α : Type} {f : Token → Option α} (hf : ∀ t, t.shape = .blank → f t = none)
    (ts : List Token) : (ts.filter fun t => t.shape ≠ .blank).findSome? f = ts.findSome? f := by
  induction ts with
  | nil => rfl
  | cons t ts ih =>
    rw [List.filter_cons]
    by_cases hb : t.shape = .blank
    · rw [List.findSome?_cons, hf t hb]
      simpa [hb] using ih
    · rw [if_pos (by simpa using hb), List.findSome?_cons, List.findSome?_cons, ih]

end Token

/-- The lines of a document that layout reads: those that are not blank, without the white space at
their ends. -/
def layoutTokens (source : Text) : List Token :=
  (Token.ofLines ((lines source).map trimRight)).filter fun t => t.shape ≠ .blank

/-- No protocol of a document is cut off: the braces of each one balance before the next banner, before
the next declaration in the first column, and before the end. -/
def Balanced (source : Text) : Prop :=
  Section.settles none (Item.ofTokens (layoutTokens source)) = true

instance (source : Text) : Decidable (Balanced source) := inferInstanceAs (Decidable (_ = true))

theorem proper_of_mem_layoutTokens {source : Text} {t : Token} (h : t ∈ layoutTokens source) :
    t.Proper := by
  obtain ⟨hmem, hsolid⟩ := List.mem_filter.mp h
  obtain ⟨i, l, hl, rfl⟩ := Token.mem_ofLines hmem
  obtain ⟨u, hu, rfl⟩ := List.mem_map.mp hl
  refine ⟨⟨rfl, ?_⟩, trimRight_trimRight u, of_decide_eq_true hsolid⟩
  obtain ⟨b, -, hb⟩ := exists_trimRight_append u
  have hfeed := not_mem_of_mem_lines hu
  rw [hb, List.mem_append, not_or] at hfeed
  exact hfeed.1

theorem map_text_layoutTokens (source : Text) :
    (layoutTokens source).map Token.text =
      ((lines source).map trimRight).filter fun l => Shape.read l ≠ .blank :=
  Token.map_text_filter_mapIdx (fun _ _ => rfl) (fun _ _ => rfl) _

/-- Blank lines have no fault, so a document is accepted when its other lines are. -/
theorem fault_eq_none_of_layoutTokens {source : Text}
    (h : ∀ t ∈ layoutTokens source, t.fault? = none) :
    ∀ t ∈ Token.ofLines ((lines source).map trimRight), t.fault? = none := by
  intro t ht
  by_cases hb : t.shape = .blank
  · rw [Token.fault?, hb]
    rfl
  · exact h t (List.mem_filter.mpr ⟨ht, by simpa using hb⟩)

theorem ofSource?_of_layoutTokens {source : Text} (h : ∀ t ∈ layoutTokens source, t.fault? = none) :
    Token.ofSource? source = .ok (Token.ofLines (lines source)) := by
  refine Token.ofLines?_eq_ok_iff.mpr ⟨rfl, Token.forall_fault?_ofLines.mpr fun l hl => ?_⟩
  rw [← Token.numeral?_trimRight]
  exact Token.forall_fault?_ofLines.mp (fault_eq_none_of_layoutTokens h) _ (List.mem_map_of_mem hl)

/-- The lines `ts'` are those of `ts` that are not blank, without the white space at their ends. -/
inductive Condensed : List Token → List Token → Prop
  | nil : Condensed [] []
  | blank {t : Token} {ts ts' : List Token} (ht : t.Genuine) (hb : t.shape = .blank)
      (h : Condensed ts ts') : Condensed (t :: ts) ts'
  | keep {t t' : Token} {ts ts' : List Token} (ht : t.Genuine) (ht' : t'.Proper)
      (htext : t'.text = trimRight t.text) (h : Condensed ts ts') : Condensed (t :: ts) (t' :: ts')

/-- **Layout reads a document without its blank lines.** -/
theorem condensed_layoutTokens (source : Text) :
    Condensed (Token.ofLines (lines source)) (layoutTokens source) := by
  -- the indices of the two lists drift apart, so they are left open
  have hgeneral : ∀ (ls : List Text) (f g : Nat → Nat), (∀ l ∈ ls, '\n' ∉ l) →
      Condensed (ls.mapIdx fun i l => Token.read (f i) l)
        (((ls.map trimRight).mapIdx fun i l => Token.read (g i) l).filter
          fun t => t.shape ≠ .blank) := by
    intro ls
    induction ls with
    | nil => exact fun _ _ _ => .nil
    | cons l ls ih =>
      intro f g hfeed
      obtain ⟨hl, htail⟩ := List.forall_mem_cons.mp hfeed
      have hrest := ih (fun i => f (i + 1)) (fun i => g (i + 1)) htail
      have hgenuine := Token.genuine_read hl (f 0)
      have halike := hgenuine.alike_trimRight (g 0)
      rw [List.map_cons, List.mapIdx_cons, List.mapIdx_cons, List.filter_cons]
      by_cases hb : Shape.read l = .blank
      · have hb' : Shape.read (trimRight l) = .blank := (halike.shape.eq_iff_of_isPlain rfl).mpr hb
        rw [if_neg (by simp [hb'])]
        exact .blank hgenuine hb hrest
      · have hb' : Shape.read (trimRight l) ≠ .blank :=
          fun h => hb ((halike.shape.eq_iff_of_isPlain rfl).mp h)
        rw [if_pos (by simp [hb'])]
        refine .keep hgenuine ⟨⟨rfl, fun h => hl ?_⟩, trimRight_trimRight l, hb'⟩ rfl hrest
        obtain ⟨e, -, he⟩ := exists_trimRight_append l
        rw [he]
        exact List.mem_append_left _ h
  exact hgeneral (lines source) id id fun l hl => not_mem_of_mem_lines hl

/-! ## Ranges -/

theorem hasRange_cons_of_ne {t : Token} (h : t.shape ≠ .banner) (ts : List Token) :
    hasRange (t :: ts) = hasRange ts := by
  rw [hasRange, if_neg h]

/-- Blank lines announce no range. -/
theorem hasRange_filter (ts : List Token) :
    hasRange (ts.filter fun t => t.shape ≠ .blank) = hasRange ts := by
  induction ts with
  | nil => rfl
  | cons t ts ih =>
    rw [List.filter_cons]
    by_cases hb : t.shape = .blank
    · rw [hasRange_cons_of_ne (by rw [hb]; exact fun h => by cases h)]
      simpa [hb] using ih
    · rw [if_pos (by simpa using hb)]
      rw [hasRange, hasRange, ih]

/-- **Rewriting changes no range.** -/
theorem Rewritten.hasRange_eq {s : Style} {depth : Option Int} {ts ts' : List Token}
    (h : Rewritten s depth ts ts') : hasRange ts' = hasRange ts := by
  have hline : ∀ {t t' : Token}, t.Alike t' → ∀ {us us' : List Token}, hasRange us' = hasRange us →
      hasRange (t' :: us') = hasRange (t :: us) := by
    intro t t' ha us us' hus
    rw [hasRange, hasRange, hus]
    by_cases hb : t.shape = .banner
    · have hb' := (ha.shape.eq_iff_of_isPlain rfl).mpr hb
      have htext := ha.text (by rw [hb]; rfl) (by rw [hb]; exact fun h => by cases h)
      rw [if_pos hb, if_pos hb', ← Banner.rangeValue?_trim t'.text, ← htext, Banner.rangeValue?_trim]
    · have hb' := fun h => hb ((ha.shape.eq_iff_of_isPlain rfl).mp h)
      rw [if_neg hb, if_neg hb']
  induction h with
  | done => rfl
  | outside ht hw ht' h hrest ih => exact hline (hw.alike ht') ih
  | inside hd ht hw ht' hcut hempty h hrest ih => exact hline (hw.alike ht') ih
  | closed hd ht hshape ht' h hrest ih =>
    have hblock := Token.shape_of_emptyBlock ht' h
    rw [hasRange_cons_of_ne (by rw [hblock]; exact fun h => by cases h),
      hasRange_cons_of_ne (by rw [hshape]; exact fun h => by cases h), ih]
  | pair hd ht hu hshape hclose ht' h hrest ih =>
    have hblock := Token.shape_of_emptyBlock ht' h
    rw [hasRange_cons_of_ne (by rw [hblock]; exact fun h => by cases h),
      hasRange_cons_of_ne (by rw [hshape]; exact fun h => by cases h),
      hasRange_cons_of_ne (by rw [hclose]; exact fun h => by cases h), ih]

/-! ## Blank lines -/

namespace Section

/-- Whether a blank line follows a section with the given ones behind it. -/
def isFollowed (a : Section) : List Section → Bool
  | [] => a.isSetOff
  | b :: _ => parted a b

theorem layOut_cons (s : Style) (a : Section) (bs : List Section) :
    layOut s (a :: bs) = a.lines s ++ (blankIf (a.isFollowed bs) ++ layOut s bs) := by
  cases bs with
  | nil => simp [layOut, isFollowed]
  | cons b bs => simp [layOut, isFollowed]

theorem mem_layOut {s : Style} {as : List Section} {l : Text} (h : l ∈ layOut s as) :
    l = [] ∨ l ∈ as.flatMap (lines s) := by
  have hblank : ∀ {b : Bool}, l ∈ blankIf b → l = [] := by
    intro b hb
    cases b with
    | true => exact List.mem_singleton.mp hb
    | false => cases hb
  induction as with
  | nil => cases h
  | cons a as ih =>
    rw [layOut_cons, List.mem_append, List.mem_append] at h
    rcases h with h | h | h
    · exact Or.inr (List.mem_append_left _ h)
    · exact Or.inl (hblank h)
    · exact (ih h).imp_right (List.mem_append_right _)

/-- **Layout adds nothing but blank lines between sections**: what is read off the other lines is read off
the lines of the sections. -/
theorem filterMap_layOut {α : Type} {f : Text → Option α} (hf : f [] = none) (s : Style)
    (as : List Section) : (layOut s as).filterMap f = (as.flatMap (lines s)).filterMap f := by
  have hblank : ∀ b : Bool, (blankIf b).filterMap f = [] := by
    intro b
    cases b with
    | true => exact List.filterMap_cons_none hf
    | false => rfl
  induction as with
  | nil => rfl
  | cons a as ih =>
    rw [layOut_cons, List.filterMap_append, List.filterMap_append, hblank, ih, List.nil_append,
      List.flatMap_cons, List.filterMap_append]

theorem filter_layOut {p : Text → Bool} (hp : p [] = false) (s : Style) (as : List Section) :
    (layOut s as).filter p = (as.flatMap (lines s)).filter p := by
  rw [← List.filterMap_eq_filter]
  exact filterMap_layOut (by simp [Option.guard, hp]) s as

/-- The lines of a layout that are not blank, if no line of its sections is. -/
theorem filter_solid_layOut {s : Style} {as : List Section}
    (h : ∀ l ∈ as.flatMap (lines s), Shape.read l ≠ .blank) :
    (layOut s as).filter (fun l => Shape.read l ≠ .blank) = as.flatMap (lines s) := by
  rw [filter_layOut (by decide)]
  exact List.filter_eq_self.mpr fun l hl => by simpa using h l hl

/-- **The lines of a layout are read back**, if the lines of its sections can be. -/
theorem read_back_layOut {s : Style} {as : List Section} (hne : as.flatMap (lines s) ≠ [])
    (h : ∀ l ∈ as.flatMap (lines s), (Token.read 0 l).Proper) :
    (unlines (layOut s as)).splitOn '\n' = layOut s as ∧
      Text.lines (unlines (layOut s as)) = layOut s as ∧
      (layoutTokens (unlines (layOut s as))).map Token.text = as.flatMap (lines s) := by
  have hfilter := filter_solid_layOut fun l hl => (h l hl).solid
  have htrim : ∀ l ∈ layOut s as, trimRight l = l := by
    intro l hl
    rcases mem_layOut hl with rfl | hl
    · rfl
    · exact (h l hl).trimmed
  have hfeed : ∀ l ∈ layOut s as, '\n' ∉ l := by
    intro l hl
    rcases mem_layOut hl with rfl | hl
    · exact List.not_mem_nil
    · exact (h l hl).feed
  have hlay : layOut s as ≠ [] := by
    intro hnil
    rw [hnil, List.filter_nil] at hfilter
    exact hne hfilter.symm
  have hlines := lines_unlines hlay hfeed htrim
  refine ⟨List.splitOn_intercalate '\n' hfeed hlay, hlines, ?_⟩
  rw [map_text_layoutTokens, hlines, ← hfilter]
  congr 1
  conv_rhs => rw [← List.map_id (layOut s as)]
  exact List.map_congr_left htrim

end Section

/-! ## The banner in front -/

theorem frontRange_filter (ts : List Token) :
    frontRange (ts.filter fun t => t.shape ≠ .blank) = frontRange ts := by
  have h := Token.findSome?_filter (f := frontRange.protocolNumber?)
    (fun t hb => by simp [frontRange.protocolNumber?, hb]) ts
  rw [frontRange, frontRange, h]

theorem fault?_decimal {n : Nat} (h : n < 10 ^ Fault.maxDigits) :
    Numeral.fault? ⟨decimal n⟩ = none := by
  rw [Numeral.fault?_eq_none_iff]
  exact (Nat.length_toDigits_le_iff (by omega) (by decide)).mpr h

/-- The hundred of a number has no more digits than the number may have. -/
theorem hundred_lt {n k : Nat} (hk : 2 ≤ k) (h : n < 10 ^ k) : n / 100 * 100 + 99 < 10 ^ k := by
  obtain ⟨m, rfl⟩ : ∃ m, k = m + 2 := ⟨k - 2, by omega⟩
  rw [Nat.pow_add] at h ⊢
  generalize 10 ^ m = p at h ⊢
  omega

/-- The title of the banner in front. -/
def frontTitle (ts : List Token) : Text := "Protocol Module ".toList ++ frontRange ts

theorem frontTitle_filter (ts : List Token) :
    frontTitle (ts.filter fun t => t.shape ≠ .blank) = frontTitle ts := by
  unfold frontTitle
  rw [frontRange_filter]

theorem frontBanner_eq (s : Style) (ts : List Token) :
    frontBanner s ts = .banner (s.banner (frontTitle ts)) := rfl

/-- The number begins the hundred that the given one lies in, or the range that stands for none. -/
def BeginsHundred : Option Nat → Nat → Prop
  | some n, a => 100 ∣ a ∧ a ≤ n ∧ n ≤ a + 99
  | none, a => a = 2500

/-- **The range of the banner in front is the hundred of the first numbered protocol**, and its bounds are
accepted. -/
theorem exists_frontRange_hundred {ts : List Token} (hts : ∀ t ∈ ts, t.fault? = none) :
    ∃ a, BeginsHundred (ts.findSome? frontRange.protocolNumber?) a ∧
      frontRange ts = decimal a ++ '-' :: decimal (a + 99) ∧
      Numeral.fault? ⟨decimal a⟩ = none ∧ Numeral.fault? ⟨decimal (a + 99)⟩ = none := by
  unfold frontRange
  split
  · next n hn =>
    have hlt : n < 10 ^ Fault.maxDigits := by
      obtain ⟨t, ht, hnum⟩ := List.exists_of_findSome?_eq_some hn
      have hf := hts t ht
      unfold frontRange.protocolNumber? at hnum
      split at hnum
      · next name number rest hshape =>
        cases hnum
        rw [Token.fault?, hshape] at hf
        exact Nat.lt_of_lt_of_le number.value_lt
          (Nat.pow_le_pow_right (by omega) ((Numeral.fault?_eq_none_iff number).mp hf))
      · cases hnum
    have hhigh := hundred_lt (show 2 ≤ Fault.maxDigits by decide) hlt
    refine ⟨n / 100 * 100, ?_, rfl, fault?_decimal (by omega), fault?_decimal hhigh⟩
    rw [hn]
    exact ⟨Nat.dvd_mul_left .., by omega, by omega⟩
  · next hn =>
    exact ⟨2500, by rw [hn]; rfl, by decide, by decide, by decide⟩

/-- The range of the banner in front is spelled by two numbers that are accepted. -/
theorem exists_frontRange {ts : List Token} (hts : ∀ t ∈ ts, t.fault? = none) :
    ∃ a b, frontRange ts = decimal a ++ '-' :: decimal b ∧
      Numeral.fault? ⟨decimal a⟩ = none ∧ Numeral.fault? ⟨decimal b⟩ = none := by
  obtain ⟨a, -, hfront, hlow, hhigh⟩ := exists_frontRange_hundred hts
  exact ⟨a, a + 99, hfront, hlow, hhigh⟩

theorem frontTitle_eq_rangeTitle {ts : List Token} {a b : Nat}
    (h : frontRange ts = decimal a ++ '-' :: decimal b) : frontTitle ts = Banner.rangeTitle a b := by
  unfold frontTitle Banner.rangeTitle
  rw [h]

theorem exists_frontTitle {ts : List Token} (hts : ∀ t ∈ ts, t.fault? = none) :
    ∃ a b, frontTitle ts = Banner.rangeTitle a b ∧
      Numeral.fault? ⟨decimal a⟩ = none ∧ Numeral.fault? ⟨decimal b⟩ = none := by
  obtain ⟨a, b, hrange, hlow, hhigh⟩ := exists_frontRange hts
  exact ⟨a, b, frontTitle_eq_rangeTitle hrange, hlow, hhigh⟩

/-- The banner in front is its title between hash signs. -/
theorem banner_rangeTitle (a b : Nat) :
    ∃ n, 4 ≤ n ∧ ({} : Style).banner (Banner.rangeTitle a b) =
      Banner.framed n (Banner.rangeTitle a b) := by
  obtain ⟨n, hn, hframed⟩ := Banner.exists_banner_eq_framed {} (Banner.rangeTitle a b)
  rw [Banner.content_of_isTitle (Banner.isTitle_rangeTitle a b)] at hframed
  exact ⟨n, Int.ofNat_le.mp (Int.le_trans (by decide) hn), hframed⟩

/-- The banner in front announces the range in its title. -/
theorem rangeValue?_banner {a b : Nat} (hlow : Numeral.fault? ⟨decimal a⟩ = none)
    (hhigh : Numeral.fault? ⟨decimal b⟩ = none) :
    Banner.rangeValue? (({} : Style).banner (Banner.rangeTitle a b)) = .ok (some (a, b)) := by
  obtain ⟨n, hn, hframed⟩ := banner_rangeTitle a b
  rw [hframed, Banner.rangeValue?, Banner.range?_rangeTitle hn]
  simp only [hlow, hhigh, Numeral.value_decimal]

/-- A line that is the banner in front of a document with the lines `ts`. -/
structure IsFront (ts : List Token) (f : Token) : Prop extends Token.Proper f where
  isBanner : f.shape = .banner
  title : Banner.title f.text = frontTitle ts
  label : Banner.label? f.text = some ['P', 'r', 'o', 't', 'o', 'c', 'o', 'l']
  range : ∃ r, Banner.rangeValue? f.text = .ok (some r)
  trim_text : trim f.text = f.text
  text_eq : f.text = ({} : Style).banner (frontTitle ts)

theorem isFront_of_text_eq {ts : List Token} (hts : ∀ t ∈ ts, t.fault? = none) {f : Token}
    (hf : f.shape = Shape.read f.text)
    (h : f.text = ({} : Style).banner (frontTitle ts)) : IsFront ts f := by
  obtain ⟨a, b, hfront, hlow, hhigh⟩ := exists_frontTitle hts
  have htitle := Banner.isTitle_rangeTitle a b
  obtain ⟨n, hn, hframed⟩ : ∃ n, 4 ≤ n ∧ f.text = Banner.framed n (Banner.rangeTitle a b) := by
    obtain ⟨n, hn, hframed⟩ := banner_rangeTitle a b
    refine ⟨n, hn, ?_⟩
    rw [h, hfront, hframed]
  have hbanner : f.shape = .banner := by
    rw [hf, hframed]
    exact Banner.read_framed hn htitle.feed
  have htrim : trim f.text = f.text := by rw [hframed, Banner.trim_framed (by omega)]
  refine ⟨⟨⟨hf, ?_⟩, ?_, ?_⟩, hbanner, ?_, ?_, ?_, htrim, h⟩
  · rw [hframed]
    exact Banner.not_mem_framed htitle.feed
  · rw [← htrim, trimRight_trim]
  · rw [hbanner]
    exact fun h => by cases h
  · rw [hframed, Banner.title_framed (by omega) htitle, hfront]
  · rw [hframed, Banner.label?_rangeTitle hn]
  · exact ⟨(a, b), by rw [h, hfront, rangeValue?_banner hlow hhigh]⟩

/-! ## The formatted document -/

/-- The lines `ts'` are the lines `ts`, rewritten, behind a banner if none among `ts` announces a
range. -/
inductive Formatted (ts : List Token) : List Token → Prop
  | ranged {ts' : List Token} (h : hasRange ts = .ok true) (hr : Rewritten {} none ts ts') :
      Formatted ts ts'
  | front {f : Token} {ts' : List Token} (h : hasRange ts = .ok false) (hf : IsFront ts f)
      (hr : Rewritten {} none ts ts') : Formatted ts (f :: ts')

/-- What formatting comes down to once it succeeds. -/
theorem format_eq_ok {source out : Text} (h : format source = .ok out) :
    (∀ l ∈ lines source, (Shape.read l).numeral?.bind Numeral.fault? = none) ∧
      (∀ t ∈ layoutTokens source, t.fault? = none) ∧
      ∃ ranged, hasRange (layoutTokens source) = .ok ranged ∧
        out = unlines (Section.layOut {} (({} : Style).sections
          (Token.ofLines ((lines source).map trimRight)) ranged)) := by
  unfold format Style.format at h
  cases hts : Token.ofLines? ((lines source).map trimRight) with
  | error f => rw [hts] at h; cases h
  | ok ts =>
    rw [hts] at h
    obtain ⟨rfl, hfault⟩ := Token.ofLines?_eq_ok_iff.mp hts
    have hlayout : ∀ t ∈ layoutTokens source, t.fault? = none :=
      fun t ht => hfault t (List.mem_filter.mp ht).1
    refine ⟨?_, hlayout, ?_⟩
    · intro l hl
      rw [← Token.numeral?_trimRight]
      exact Token.forall_fault?_ofLines.mp hfault _ (List.mem_map_of_mem hl)
    · cases hr : hasRange (Token.ofLines ((lines source).map trimRight)) with
      | error f =>
        simp only [bind, Except.bind, hr] at h
        cases h
      | ok ranged =>
        simp only [bind, Except.bind, hr] at h
        cases h
        exact ⟨ranged, by rw [layoutTokens, hasRange_filter, hr], rfl⟩

/-- The lines that the standard style writes for a document. -/
def writtenSource (source : Text) : List Text :=
  Section.writtenLines {} none (Item.ofTokens (layoutTokens source))

theorem rewritten_of_balanced {source : Text} (hb : Balanced source) {ts' : List Token}
    (hts' : ∀ t ∈ ts', t.shape = Shape.read t.text) (h : ts'.map Token.text = writtenSource source) :
    Rewritten {} none (layoutTokens source) ts' :=
  @Rewritten.of_settles {} (by decide) (layoutTokens source) ts' none
    (fun _ => proper_of_mem_layoutTokens) hts' (fun _ hd => by cases hd) hb h

/-- The lines that are written for a document: its own, and a banner in front if it needs one. -/
def formattedLines (source : Text) (ranged : Bool) : List Text :=
  (if ranged then [] else [({} : Style).banner (frontTitle (layoutTokens source))]) ++
    writtenSource source

theorem flatMap_lines_sections (source : Text) (ranged : Bool) :
    (({} : Style).sections (Token.ofLines ((lines source).map trimRight)) ranged).flatMap
        (Section.lines {}) =
      formattedLines source ranged := by
  have hrun : (Section.ofTokens (Token.ofLines ((lines source).map trimRight))).flatMap
      (Section.lines {}) = writtenSource source :=
    Section.flatMap_lines_run {} none (Item.ofTokens (layoutTokens source))
  cases ranged with
  | true => exact hrun
  | false =>
    have hfront : frontTitle (layoutTokens source) =
        frontTitle (Token.ofLines ((lines source).map trimRight)) := frontTitle_filter _
    simp only [Style.sections, formattedLines, Bool.false_eq_true, if_false, List.flatMap_cons, hrun,
      hfront, frontBanner_eq, Section.lines]

theorem formatted_of_map_text {source : Text} (hb : Balanced source)
    (hf : ∀ t ∈ layoutTokens source, t.fault? = none) {ranged : Bool}
    (hr : hasRange (layoutTokens source) = .ok ranged) {ts' : List Token}
    (hts' : ∀ t ∈ ts', t.shape = Shape.read t.text)
    (h : ts'.map Token.text = formattedLines source ranged) :
    Formatted (layoutTokens source) ts' := by
  cases ranged with
  | true => exact .ranged hr (rewritten_of_balanced hb hts' h)
  | false =>
    obtain ⟨f, us, rfl, hfront, hus⟩ := List.map_eq_cons_iff.mp h
    obtain ⟨hshape, htail⟩ := List.forall_mem_cons.mp hts'
    exact .front hr (isFront_of_text_eq hf hshape hfront) (rewritten_of_balanced hb htail hus)

theorem Formatted.proper {ts ts' : List Token} (h : Formatted ts ts') : ∀ t ∈ ts', t.Proper := by
  cases h with
  | ranged h hr => exact hr.proper
  | front h hf hr => exact List.forall_mem_cons.mpr ⟨hf.toProper, hr.proper⟩

/-- A formatted document has a banner at least. -/
theorem Formatted.ne_nil {ts ts' : List Token} (h : Formatted ts ts') : ts' ≠ [] := by
  cases h with
  | ranged h hr =>
    cases hr with
    | done => cases h
    | outside ht hw ht' h hrest => exact List.cons_ne_nil _ _
  | front h hf hr => exact List.cons_ne_nil _ _

/-- **Nothing that was accepted is refused once it is formatted.** -/
theorem Formatted.fault_eq_none {ts ts' : List Token} (h : Formatted ts ts')
    (hf : ∀ t ∈ ts, t.fault? = none) : ∀ t ∈ ts', t.fault? = none := by
  cases h with
  | ranged h hr => exact hr.fault_eq_none hf
  | front h hfront hr =>
    refine List.forall_mem_cons.mpr ⟨?_, hr.fault_eq_none hf⟩
    rw [Token.fault?, hfront.isBanner]
    rfl

/-- **The lines of a formatted document are read back, and they are the lines of the document,
rewritten.** -/
theorem formatted_of_format {source out : Text} (h : format source = .ok out)
    (hb : Balanced source) :
    Formatted (layoutTokens source) (layoutTokens out) := by
  obtain ⟨-, hfault, ranged, hrange, rfl⟩ := format_eq_ok h
  have hflat : (({} : Style).sections (Token.ofLines ((lines source).map trimRight)) ranged).flatMap
      (Section.lines {}) = formattedLines source ranged := flatMap_lines_sections source ranged
  generalize ({} : Style).sections (Token.ofLines ((lines source).map trimRight)) ranged = secs
    at hflat
  -- first the lines by themselves, read at no particular place
  have hread : Formatted (layoutTokens source) ((formattedLines source ranged).map (Token.read 0)) :=
    formatted_of_map_text hb hfault hrange (by simp) (by simp [Function.comp_def])
  have hback := @Section.read_back_layOut {} secs
    (by rw [hflat]; exact fun hnil => hread.ne_nil (by rw [hnil]; rfl))
    (by rw [hflat]; exact fun l hl => hread.proper _ (List.mem_map_of_mem hl))
  -- and now as the lines of the document
  refine formatted_of_map_text hb hfault hrange
    (fun t ht => (proper_of_mem_layoutTokens ht).shape_eq) ?_
  rw [hback.2.2, hflat]

end Sproto
