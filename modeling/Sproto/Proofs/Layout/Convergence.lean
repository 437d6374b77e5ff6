import Sproto.Proofs.Layout.Announcement
import Sproto.Proofs.Layout.SecondPass

/-! # Formatting again and again

Formatting a document over and over comes to rest after three passes, whatever its braces do
(`format_converges`).  A formatted document is accepted and announces a range, so from the second pass on no
banner is added, and all that can still change is how protocols that are cut off end.  That takes at most
three stages: the start of a block is last, then an empty block, then a closing brace (`Ending.next`). -/
namespace Sproto

open Text

/-- How the protocols of a document end that are cut off, in order. -/
def cutEndings (source : Text) : List Ending :=
  Section.endings none (Item.ofTokens (layoutTokens source))

/-- Two stages on, nothing but a closing brace is left. -/
theorem Ending.next_next (e : Ending) : e.next.next = .closing := by
  cases e <;> rfl

namespace Emits

variable {source out : Text} {ranged : Bool} {secs : List Section}

/-- The lines of the sections are the lines that are written for the document. -/
theorem flatMap_lines (h : Emits source ranged secs) :
    secs.flatMap (Section.lines {}) = formattedLines source ranged := by
  rw [h.secs_eq, ← sections_eq, flatMap_lines_sections]

/-- A formatted document is accepted. -/
theorem fault_eq_none (h : Emits source ranged secs) (hout : format source = .ok out) :
    ∀ t ∈ layoutTokens out, t.fault? = none := by
  intro t ht
  have hmem : t.text ∈ secs.flatMap (Section.lines {}) := by
    rw [← (h.read_back hout).2.2]
    exact List.mem_map_of_mem ht
  obtain ⟨a, ha, hl⟩ := List.mem_flatMap.mp hmem
  have hfault := ((h.isSound a ha).legible _ hl).fault
  rwa [Token.fault?, Token.read_shape, ← (proper_of_mem_layoutTokens ht).shape_eq] at hfault

/-- A formatted document announces a range. -/
theorem hasRange_eq (h : Emits source ranged secs) (hout : format source = .ok out) :
    hasRange (layoutTokens out) = .ok true := by
  have hbanners := h.banners_eq hout
  rw [← filterMap_bannerText_layoutTokens, ← filterMap_bannerText_layoutTokens] at hbanners
  rcases ranged with _ | _
  · have hfront := isFront_read h.fault
    obtain ⟨r, hr⟩ := hfront.range
    have hcons : (layoutTokens out).filterMap Token.bannerText? =
        (Token.read 0 (({} : Style).banner (frontTitle (layoutTokens source))) ::
          layoutTokens source).filterMap Token.bannerText? := by
      have htext := hfront.trim_text
      rw [Token.read_text] at htext
      rw [hbanners, List.filterMap_cons_some (Token.bannerText?_eq_some hfront.isBanner),
        Token.read_text, htext]
      rfl
    rw [hasRange_congr hcons, hasRange, if_pos hfront.isBanner, hr]
  · rw [hasRange_congr hbanners, h.range]

/-- **The lines of a formatted document are those of the document, relaid**, behind a banner if none
announced a range. -/
theorem relaid (h : Emits source ranged secs) (hout : format source = .ok out) :
    (ranged = true ∧ Relaid {} none (layoutTokens source) (layoutTokens out)) ∨
      ranged = false ∧ ∃ f us, layoutTokens out = f :: us ∧ IsFront (layoutTokens source) f ∧
        Relaid {} none (layoutTokens source) us := by
  have hrun : ∀ us : List Token, (∀ t ∈ us, t.shape = Shape.read t.text) →
      us.map Token.text = Section.writtenLines {} none (Item.ofTokens (layoutTokens source)) →
      Relaid {} none (layoutTokens source) us := fun us hus htext =>
    Relaid.of_run (by decide) (fun t ht => proper_of_mem_layoutTokens ht) hus (fun b hb => by cases hb)
      (fun b hb => by cases hb) htext
  have hshape : ∀ t ∈ layoutTokens out, t.shape = Shape.read t.text :=
    fun t ht => (proper_of_mem_layoutTokens ht).shape_eq
  have htext := (h.read_back hout).2.2
  rw [h.flatMap_lines] at htext
  rcases ranged with _ | _
  · obtain ⟨f, us, hcons, hfront, hus⟩ := List.map_eq_cons_iff.mp htext
    rw [hcons] at hshape
    obtain ⟨hf, htail⟩ := List.forall_mem_cons.mp hshape
    exact Or.inr ⟨rfl, f, us, hcons, isFront_of_text_eq h.fault hf hfront, hrun us htail hus⟩
  · exact Or.inl ⟨rfl, hrun _ hshape htext⟩

/-- **What the next pass does with a formatted document.**  It is accepted, what is cut off in it ends one
stage further on, and nothing changes if every protocol that is cut off ends in a closing brace. -/
theorem next (h : Emits source ranged secs) (hout : format source = .ok out) :
    ∃ secs', Emits out true secs' ∧
      (cutEndings out).Sublist ((cutEndings source).map Ending.next) ∧
      ((∀ e ∈ cutEndings source, e = .closing) → Section.layOut {} secs' = Section.layOut {} secs) := by
  refine ⟨_, .of_layoutTokens (h.fault_eq_none hout) (h.hasRange_eq hout), ?_⟩
  rw [if_pos rfl, List.nil_append, h.secs_eq, cutEndings, cutEndings]
  rcases h.relaid hout with ⟨rfl, hrelaid⟩ | ⟨rfl, f, us, hcons, hfront, hrelaid⟩
  · obtain ⟨hends, hsame⟩ : Section.Follows {} none _ none _ := hrelaid.follows (by decide) trivial
    exact ⟨hends, fun hall => (Section.layOut_congr (hsame hall)).symm⟩
  · obtain ⟨hends, hsame⟩ : Section.Follows {} none _ none _ := hrelaid.follows (by decide) trivial
    have hstep : Section.step none (.line f) = ([.banner f.text], none) := by
      simp only [Section.step, hfront.isBanner, Section.cutOff, hfront.trim_text, List.nil_append]
    rw [hcons, Section.endings_none, Section.gather_none, hstep]
    refine ⟨hends, fun hall => (Section.layOut_congr (.cons ?_ (hsame hall))).symm⟩
    rw [hfront.text_eq, frontBanner_eq]
    exact .banner _

end Emits

/-- **Formatting comes to rest after three passes**, on every document that is accepted. -/
theorem format_converges {source out₁ : Text} (h : format source = .ok out₁) :
    ∃ out₂ out₃, format out₁ = .ok out₂ ∧ format out₂ = .ok out₃ ∧ format out₃ = .ok out₃ := by
  obtain ⟨ranged, secs₁, hemits₁⟩ := exists_emits h
  obtain ⟨secs₂, hemits₂, hends₁, -⟩ := hemits₁.next h
  obtain ⟨secs₃, hemits₃, hends₂, -⟩ := hemits₂.next hemits₂.format_eq
  obtain ⟨secs₄, hemits₄, -, hsame⟩ := hemits₃.next hemits₃.format_eq
  refine ⟨_, _, hemits₂.format_eq, hemits₃.format_eq, ?_⟩
  rw [hemits₄.format_eq, hsame]
  intro e he
  obtain ⟨e₁, he₁, rfl⟩ := List.mem_map.mp (hends₂.subset he)
  obtain ⟨e₀, -, rfl⟩ := List.mem_map.mp (hends₁.subset he₁)
  exact e₀.next_next

/-- A protocol with two braces open that ends in the start of a block. -/
def unclosedSource : Text := "foo 1 \x7b \x7b\n request \x7b".toList

/-- What a pass makes of it: the two lines differ from one pass to the next. -/
def unclosedLayout (request brace : String) : Text :=
  ({} : Style).banner "Protocol Module 0-99".toList ++
    ("\n\nfoo 1 \x7b \x7b\n".toList ++ request.toList ++ '\n' :: brace.toList ++ ['\n'])

/-- Two passes are not enough for it. -/
theorem format_unclosedLayout :
    format unclosedSource = .ok (unclosedLayout "    request \x7b" "\x7d") ∧
      format (unclosedLayout "    request \x7b" "\x7d") =
        .ok (unclosedLayout "    request \x7b\x7d" "\x7d") ∧
      format (unclosedLayout "    request \x7b\x7d" "\x7d") =
        .ok (unclosedLayout "    request \x7b\x7d" "    \x7d") ∧
      format (unclosedLayout "    request \x7b\x7d" "    \x7d") =
        .ok (unclosedLayout "    request \x7b\x7d" "    \x7d") := by
  have hfirst : format unclosedSource = .ok (unclosedLayout "    request \x7b" "\x7d") := by
    decide +kernel
  have hsecond : format (unclosedLayout "    request \x7b" "\x7d") =
      .ok (unclosedLayout "    request \x7b\x7d" "\x7d") := by decide +kernel
  have hthird : format (unclosedLayout "    request \x7b\x7d" "\x7d") =
      .ok (unclosedLayout "    request \x7b\x7d" "    \x7d") := by decide +kernel
  refine ⟨hfirst, hsecond, hthird, ?_⟩
  obtain ⟨out₂, out₃, h₂, h₃, hrest⟩ := format_converges hfirst
  obtain rfl := Except.ok.inj (hsecond.symm.trans h₂)
  obtain rfl := Except.ok.inj (hthird.symm.trans h₃)
  exact hrest

end Sproto
