import Sproto.Proofs.Layout.Emission

/-! # The announced range

Formatting sees to it that a document announces a number range.  The banners of a document are kept as they
are, save for the white space around them (`Emits.banners_eq`); when none of them announces a range, one
banner more stands in front, and it announces the hundred of the first numbered protocol.

Whether a range is announced is a matter of the banners alone (`isRanged_iff`), and they are read off the
lines of the document whether or not these are trimmed (`filterMap_layoutTokens`). -/
namespace Sproto

open Text

/-! ## What is read off the lines -/

/-- A banner, trimmed. -/
def bannerOf? (l : Text) : Option Text := if Shape.read l = .banner then some (trim l) else none

/-- The banners of a document, trimmed and in order. -/
def banners (source : Text) : List Text := (lines source).filterMap bannerOf?

/-- The number of a numbered protocol declaration. -/
def Shape.declaredNumber? : Shape → Option Nat
  | protocol _ (some number) _ => some number.value
  | _ => none

/-- The number of the first numbered protocol declaration of a document. -/
def firstNumber? (source : Text) : Option Nat :=
  (lines source).findSome? fun l => (Shape.read l).declaredNumber?

/-- Some banner of the document announces a number range. -/
def Announces (source : Text) : Prop :=
  ∃ l ∈ lines source, Shape.read l = .banner ∧ ∃ r, Banner.rangeValue? l = .ok (some r)

instance (l : Text) : Decidable (∃ r, Banner.rangeValue? l = .ok (some r)) :=
  match Banner.rangeValue? l with
  | .ok (some r) => isTrue ⟨r, rfl⟩
  | .ok none => isFalse fun ⟨_, hr⟩ => nomatch hr
  | .error _ => isFalse fun ⟨_, hr⟩ => nomatch hr

instance (source : Text) : Decidable (Announces source) :=
  inferInstanceAs (Decidable (∃ l ∈ lines source, _ ∧ _))

/-- What is read off single lines, whatever stands at their ends, may be read off what layout reads. -/
theorem filterMap_layoutTokens {α : Type} {f : Text → Option α} {g : Token → Option α} (source : Text)
    (hg : ∀ t : Token, t.shape = Shape.read t.text → g t = f t.text)
    (htrim : ∀ l, f (trimRight l) = f l) (hblank : ∀ l, Shape.read l = .blank → f l = none) :
    (layoutTokens source).filterMap g = (lines source).filterMap f := by
  have htext : (layoutTokens source).filterMap g = ((layoutTokens source).map Token.text).filterMap f := by
    rw [List.filterMap_map]
    exact List.filterMap_congr fun t ht => hg t (proper_of_mem_layoutTokens ht).shape_eq
  rw [htext, map_text_layoutTokens, List.filterMap_filter]
  have hsolid : ∀ ls : List Text,
      ls.filterMap (fun l => if Shape.read l ≠ .blank then f l else none) = ls.filterMap f := by
    intro ls
    refine List.filterMap_congr fun l _ => ?_
    by_cases hb : Shape.read l = .blank
    · rw [if_neg (by simp [hb]), hblank l hb]
    · rw [if_pos hb]
  simp only [decide_eq_true_eq]
  rw [hsolid, List.filterMap_map]
  exact List.filterMap_congr fun l _ => htrim l

theorem filterMap_bannerText_layoutTokens (source : Text) :
    (layoutTokens source).filterMap Token.bannerText? = banners source := by
  refine filterMap_layoutTokens source (fun t ht => ?_) (fun l => ?_) (fun l hl => ?_)
  · rw [Token.bannerText?, bannerOf?, ht]
  · have hbanner : Shape.read (trimRight l) = .banner ↔ Shape.read l = .banner := by
      rw [Shape.read_trimRight]
      cases Shape.read l <;> simp [Shape.trimRest]
    simp only [bannerOf?, hbanner, trim_trimRight]
  · simp [bannerOf?, hl]

theorem findSome_protocolNumber_layoutTokens (source : Text) :
    (layoutTokens source).findSome? frontRange.protocolNumber? = firstNumber? source := by
  rw [firstNumber?, ← List.head?_filterMap, ← List.head?_filterMap]
  congr 1
  refine filterMap_layoutTokens source (fun t ht => ?_) (fun l => ?_) (fun l hl => ?_)
  · rw [← ht]
    rfl
  · rw [Shape.read_trimRight]
    rcases Shape.read l with _ | _ | _ | _ | _ | _ | ⟨_, _ | _, _⟩ | _ | _ <;> rfl
  · rw [hl]
    rfl

theorem announces_iff {source : Text} :
    Announces source ↔ ∃ l ∈ banners source, ∃ r, Banner.rangeValue? l = .ok (some r) := by
  constructor
  · rintro ⟨l, hl, hbanner, r, hr⟩
    refine ⟨trim l, List.mem_filterMap.mpr ⟨l, hl, if_pos hbanner⟩, r, ?_⟩
    rw [Banner.rangeValue?_trim, hr]
  · rintro ⟨b, hb, r, hr⟩
    obtain ⟨l, hl, hsome⟩ := List.mem_filterMap.mp hb
    obtain ⟨hbanner, htrim⟩ := Option.ite_none_right_eq_some.mp hsome
    rw [← Option.some.inj htrim, Banner.rangeValue?_trim] at hr
    exact ⟨l, hl, hbanner, r, hr⟩

/-- A search for a range that meets no fault finds one exactly if there is one. -/
theorem isRanged_iff {ts : List Token} {ranged : Bool} (h : hasRange ts = .ok ranged) :
    ranged = true ↔
      ∃ l ∈ ts.filterMap Token.bannerText?, ∃ r, Banner.rangeValue? l = .ok (some r) := by
  induction ts with
  | nil => cases h; simp
  | cons t ts ih =>
    by_cases hb : t.shape = .banner
    · rw [hasRange, if_pos hb] at h
      rw [List.filterMap_cons_some (Token.bannerText?_eq_some hb)]
      rcases hr : Banner.rangeValue? t.text with f | _ | r
      · rw [hr] at h
        cases h
      · rw [hr] at h
        simp [ih h, Banner.rangeValue?_trim, hr]
      · rw [hr] at h
        cases h
        exact iff_of_true rfl ⟨_, List.mem_cons_self, r, by rw [Banner.rangeValue?_trim, hr]⟩
    · rw [hasRange_cons_of_ne hb] at h
      rw [ih h, List.filterMap_cons_none (Token.bannerText?_eq_none hb)]

/-! ## What is laid out -/

namespace Section

variable {s : Style}

/-- The lines of a section that are read as banners are the text of the section, if it is a banner. -/
theorem filterMap_bannerOf_lines {a : Section} (h : a.IsSound s) :
    (a.lines s).filterMap bannerOf? = (a.bannerText?.map trim).toList := by
  by_cases hb : a.isBanner = true
  · rcases a with text | text | text | rows
    · have hread := (h.banner text List.mem_cons_self).mpr rfl
      simp [lines, bannerText?, bannerOf?, hread]
    all_goals cases hb
  · have hnone : (a.lines s).filterMap bannerOf? = [] :=
      List.filterMap_eq_nil_iff.mpr fun l hl => if_neg fun hread => hb ((h.banner l hl).mp hread)
    rw [hnone]
    rcases a with text | text | text | rows
    · exact absurd rfl hb
    all_goals rfl

theorem filterMap_bannerOf_layOut {secs : List Section} (h : ∀ a ∈ secs, a.IsSound s) :
    (layOut s secs).filterMap bannerOf? = (secs.filterMap bannerText?).map trim := by
  rw [filterMap_layOut (by decide)]
  induction secs with
  | nil => rfl
  | cons a secs ih =>
    obtain ⟨ha, htail⟩ := List.forall_mem_cons.mp h
    rw [List.flatMap_cons, List.filterMap_append, ih htail, filterMap_bannerOf_lines ha,
      List.filterMap_cons]
    rcases a.bannerText? with _ | text <;> rfl

end Section

namespace Emits

variable {source out : Text} {ranged : Bool} {secs : List Section}

theorem ranged_iff (h : Emits source ranged secs) : ranged = true ↔ Announces source := by
  rw [isRanged_iff h.range, filterMap_bannerText_layoutTokens, announces_iff]

/-- **The banners of a formatted document**: those of the document, behind the one in front if there is
one. -/
theorem banners_eq (h : Emits source ranged secs) (hout : format source = .ok out) :
    banners out =
      (if ranged then [] else [({} : Style).banner (frontTitle (layoutTokens source))]) ++
        banners source := by
  have hfront := (isFront_read h.fault).trim_text
  rw [Token.read_text] at hfront
  have hbanners : (banners source).map trim = banners source := by
    conv_rhs => rw [← List.map_id (banners source)]
    refine List.map_congr_left fun b hb => ?_
    obtain ⟨l, -, hsome⟩ := List.mem_filterMap.mp hb
    obtain ⟨-, htrim⟩ := Option.ite_none_right_eq_some.mp hsome
    rw [← Option.some.inj htrim, trim_trim, id]
  rw [banners, (h.read_back hout).2.1, Section.filterMap_bannerOf_layOut h.isSound,
    h.filterMap_bannerText, filterMap_bannerText_layoutTokens, List.map_append, hbanners]
  rcases ranged with _ | _
  · rw [if_neg Bool.false_ne_true, List.map_singleton, hfront]
  · rfl

end Emits

/-- **A formatted document announces a range.**  If the document does, its banners are kept.  If it does
not, a banner stands in front of them in the first line, and announces the hundred that the first numbered
protocol lies in. -/
theorem banners_format {source out : Text} (h : format source = .ok out) :
    (Announces source → banners out = banners source) ∧
      (¬ Announces source → ∃ front rest a, lines out = front :: rest ∧
        banners out = front :: banners source ∧
        Banner.rangeValue? front = .ok (some (a, a + 99)) ∧
        BeginsHundred (firstNumber? source) a) ∧
      Announces out := by
  obtain ⟨ranged, secs, hemits⟩ := exists_emits h
  have hbanners := hemits.banners_eq h
  rcases ranged with _ | _
  · have hnone : ¬ Announces source := fun hs => Bool.false_ne_true (hemits.ranged_iff.mpr hs)
    obtain ⟨a, hbegins, hfront, hlow, hhigh⟩ := exists_frontRange_hundred hemits.fault
    have hrange := rangeValue?_banner hlow hhigh
    rw [← frontTitle_eq_rangeTitle hfront] at hrange
    rw [if_neg Bool.false_ne_true, List.singleton_append] at hbanners
    refine ⟨fun hs => absurd hs hnone, fun _ => ?_, ?_⟩
    · have hlines := (hemits.read_back h).2.1
      rw [hemits.secs_eq, if_neg Bool.false_ne_true, List.singleton_append, Section.layOut_cons,
        frontBanner_eq, Section.lines, List.singleton_append] at hlines
      exact ⟨_, _, a, hlines, hbanners, hrange, findSome_protocolNumber_layoutTokens source ▸ hbegins⟩
    · rw [announces_iff, hbanners]
      exact ⟨_, List.mem_cons_self, _, hrange⟩
  · have hsome : Announces source := hemits.ranged_iff.mp rfl
    rw [if_pos rfl, List.nil_append] at hbanners
    refine ⟨fun _ => hbanners, fun hs => absurd hsome hs, ?_⟩
    rw [announces_iff, hbanners, ← announces_iff]
    exact hsome

/-- Two banners without a range in front of a protocol whose number is spelled with full-width digits. -/
def unrangedSource : Text :=
  "  ######## Title ####\n#### 1-9 ####\nfoo \x7b\x7d\nbar ２5４2 \x7b\x7d\nbaz 7 \x7b\x7d".toList

/-- The same document, laid out. -/
def unrangedLayout : Text :=
  ({} : Style).banner "Protocol Module 2500-2599".toList ++
    "\n\n######## Title ####\n\n#### 1-9 ####\n\nfoo \x7b\x7d\n\nbar 2542 \x7b\x7d\n\n".toList ++
    "baz 7 \x7b\x7d\n".toList

theorem banners_unrangedLayout :
    format unrangedSource = .ok unrangedLayout ∧ ¬ Announces unrangedSource ∧
      Announces unrangedLayout ∧ ∃ front rest a, lines unrangedLayout = front :: rest ∧
        banners unrangedLayout = front :: banners unrangedSource ∧
        Banner.rangeValue? front = .ok (some (a, a + 99)) ∧ BeginsHundred (some 2542) a := by
  have hformat : format unrangedSource = .ok unrangedLayout := by decide +kernel
  have hnone : ¬ Announces unrangedSource := by decide +kernel
  have hnumber : firstNumber? unrangedSource = some 2542 := by decide +kernel
  obtain ⟨-, hfront, hannounces⟩ := banners_format hformat
  exact ⟨hformat, hnone, hannounces, hnumber ▸ hfront hnone⟩

end Sproto
