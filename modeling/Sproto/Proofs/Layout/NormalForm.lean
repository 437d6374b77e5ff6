import Mathlib.Data.List.Chain
import Sproto.Proofs.Layout.Emission

/-! # The normal form of a layout

How the lines of a formatted document stand to each other (`InNormalForm`).  Blank lines are set between
sections only, so what stands around a line follows from the section it belongs to:

* `Section.layOut_append_cons`: where a section stands in the layout, and what stands before it and behind
  it.
* `Section.exists_of_layOut_eq`: every line that is not blank belongs to a section.

`format_inNormalForm` puts them together. -/
namespace Sproto

open Text

/-- A line that has a shape other than `blank` is not blank. -/
theorem Shape.isBlank_eq_false_of_read {l : Text} {sh : Shape} (h : Shape.read l = sh)
    (hsh : sh ≠ .blank) : isBlank l = false := by
  by_contra hne
  rw [Shape.read_eq_blank_iff.mpr (by simpa using hne)] at h
  exact hsh h.symm

theorem Legible.isBlank_eq {l : Text} (h : Legible l) : isBlank l = false :=
  Shape.isBlank_eq_false_of_read rfl h.proper.solid

/-- The lines that are not blank. -/
def solidLines (ls : List Text) : List Text := ls.filter fun l => !isBlank l

theorem solidLines_append (as bs : List Text) : solidLines (as ++ bs) = solidLines as ++ solidLines bs :=
  List.filter_append ..

theorem solidLines_eq_self {ls : List Text} (h : ∀ l ∈ ls, Legible l) : solidLines ls = ls :=
  List.filter_eq_self.mpr fun l hl => by simp [(h l hl).isBlank_eq]

namespace Section

/-- The text of a comment outside any protocol. -/
def commentText? : Section → Option Text
  | comment text => some text
  | _ => none

/-! ## Where a section stands -/

variable {s : Style}

theorem isFollowed_of_isSetOff {a : Section} (h : a.isSetOff = true) (bs : List Section) :
    a.isFollowed bs = true := by
  cases bs with
  | nil => exact h
  | cons b bs => cases a <;> simp_all [isFollowed, isSetOff, parted]

theorem parted_eq (a b : Section) :
    parted a b = (a.isSetOff || b.isBanner || (b.isComment && !a.isComment)) := by
  cases a <;> cases b <;> rfl

theorem solidLines_blankIf (b : Bool) : solidLines (blankIf b) = [] := by
  cases b <;> rfl

theorem solidLines_layOut {as : List Section} (h : ∀ a ∈ as, a.IsSound s) :
    solidLines (layOut s as) = as.flatMap (lines s) := by
  rw [solidLines, filter_layOut (by decide)]
  refine solidLines_eq_self fun l hl => ?_
  obtain ⟨a, ha, hl⟩ := List.mem_flatMap.mp hl
  exact (h a ha).legible l hl

/-- The lines of the sections in front are laid out in front. -/
theorem exists_layOut_append {as : List Section} (h : ∀ a ∈ as, a.IsSound s) (bs : List Section) :
    ∃ pre, solidLines pre = as.flatMap (lines s) ∧ layOut s (as ++ bs) = pre ++ layOut s bs := by
  induction as with
  | nil => exact ⟨[], rfl, rfl⟩
  | cons c as ih =>
    obtain ⟨hc, htail⟩ := List.forall_mem_cons.mp h
    obtain ⟨pre, hsolid, hlay⟩ := ih htail
    refine ⟨c.lines s ++ (blankIf (c.isFollowed (as ++ bs)) ++ pre), ?_, ?_⟩
    · rw [solidLines_append, solidLines_append, solidLines_blankIf, solidLines_eq_self hc.legible,
        hsolid, List.nil_append, List.flatMap_cons]
    · rw [List.cons_append, layOut_cons, hlay]
      simp only [List.append_assoc]

/-- What stands before a section `a` with the sections `as` in front of it: their lines, and last a blank
line if the nearest of them is parted from `a`. -/
structure StandsBefore (s : Style) (as : List Section) (a : Section) (pre : List Text) : Prop where
  solid : solidLines pre = as.flatMap (lines s)
  last : as = [] ∧ pre = [] ∨
    ∃ c ∈ as, pre.getLast? = if parted c a then some [] else (c.lines s).getLast?

/-- **Where a section stands in the layout.** -/
theorem layOut_append_cons {as : List Section} (h : ∀ a ∈ as, a.IsSound s) (a : Section)
    (bs : List Section) :
    ∃ pre, StandsBefore s as a pre ∧
      layOut s (as ++ a :: bs) = pre ++ (a.lines s ++ (blankIf (a.isFollowed bs) ++ layOut s bs)) := by
  rw [← layOut_cons]
  rcases List.eq_nil_or_concat' as with rfl | ⟨init, c, rfl⟩
  · exact ⟨[], ⟨rfl, Or.inl ⟨rfl, rfl⟩⟩, rfl⟩
  · have hc := h c (by simp)
    obtain ⟨pre, hsolid, hlay⟩ := exists_layOut_append
      (fun b hb => h b (List.mem_append_left _ hb)) (c :: a :: bs)
    refine ⟨pre ++ (c.lines s ++ blankIf (parted c a)), ⟨?_, Or.inr ⟨c, by simp, ?_⟩⟩, ?_⟩
    · rw [solidLines_append, solidLines_append, solidLines_blankIf, solidLines_eq_self hc.legible,
        hsolid]
      simp
    · have hne := hc.ne_nil
      cases hparted : parted c a with
      | true => simp [blankIf]
      | false => simp [blankIf, List.getLast?_append_of_ne_nil _ hne]
    · rw [List.append_assoc, List.singleton_append, hlay, layOut_cons]
      simp only [isFollowed, List.append_assoc]

/-- An element of two lists one behind the other stands in the second or in the first. -/
theorem append_eq_append_cons {α : Type} {as bs pre post : List α} {x : α}
    (h : as ++ bs = pre ++ x :: post) :
    (∃ mid, pre = as ++ mid ∧ bs = mid ++ x :: post) ∨
      ∃ q, as = pre ++ x :: q ∧ post = q ++ bs := by
  rcases List.append_eq_append_iff.mp h with ⟨mid, hpre, hbs⟩ | ⟨mid, has, hpost⟩
  · exact Or.inl ⟨mid, hpre, hbs⟩
  · rcases mid with _ | ⟨y, q⟩
    · exact Or.inl ⟨[], by simpa using has.symm, by simpa using hpost.symm⟩
    · rw [List.cons_append, List.cons.injEq] at hpost
      exact Or.inr ⟨q, by rw [has, hpost.1], hpost.2⟩

/-- A line of a layout that is not blank is found among the lines of a section. -/
theorem exists_layOut_cons {secs : List Section} {pre post : List Text} {l : Text}
    (hl : isBlank l = false) (heq : layOut s secs = pre ++ l :: post) :
    ∃ as a bs front p q, secs = as ++ a :: bs ∧ a.lines s = p ++ l :: q ∧ pre = front ++ p ∧
      layOut s secs = front ++ layOut s (a :: bs) := by
  induction secs generalizing pre with
  | nil => simp [layOut] at heq
  | cons a secs ih =>
    rw [layOut_cons] at heq
    rcases append_eq_append_cons heq with ⟨mid, rfl, htail⟩ | ⟨q, hlines, -⟩
    · rcases append_eq_append_cons htail with ⟨mid, rfl, hrest⟩ | ⟨q, hblank, -⟩
      · obtain ⟨as, b, bs, front, p, q, rfl, hb, rfl, hlay⟩ := ih hrest
        refine ⟨a :: as, b, bs, a.lines s ++ (blankIf (a.isFollowed (as ++ b :: bs)) ++ front), p, q,
          rfl, hb, by simp only [List.append_assoc], ?_⟩
        rw [layOut_cons, hlay]
        simp only [List.append_assoc]
      · -- the line that is set behind a section is blank
        have hmem : l ∈ solidLines (blankIf (a.isFollowed secs)) := by
          rw [hblank]
          exact List.mem_filter.mpr ⟨by simp, by simp [hl]⟩
        rw [solidLines_blankIf] at hmem
        exact absurd hmem List.not_mem_nil
    · exact ⟨[], a, secs, [], pre, q, rfl, hlines, rfl, rfl⟩

/-- **Every line of a layout that is not blank belongs to a section**, and stands in it. -/
theorem exists_of_layOut_eq {secs : List Section} (h : ∀ a ∈ secs, a.IsSound s) {pre post : List Text}
    {l : Text} (hl : isBlank l = false) (heq : layOut s secs = pre ++ l :: post) :
    ∃ as a bs front p q, secs = as ++ a :: bs ∧ a.lines s = p ++ l :: q ∧ pre = front ++ p ∧
      StandsBefore s as a front ∧ post = q ++ (blankIf (a.isFollowed bs) ++ layOut s bs) := by
  obtain ⟨as, a, bs, front, p, q, rfl, hlines, rfl, hlay⟩ := exists_layOut_cons hl heq
  obtain ⟨front', hbefore, hlay'⟩ :=
    layOut_append_cons (fun b hb => h b (List.mem_append_left _ hb)) a bs
  have hfront : front = front' := by
    rw [hlay, layOut_cons] at hlay'
    exact List.append_cancel_right hlay'
  refine ⟨as, a, bs, front, p, q, rfl, hlines, rfl, hfront ▸ hbefore, ?_⟩
  rw [hlay, layOut_cons, hlines] at heq
  simpa using heq.symm

/-! ## The rules -/

theorem isSetOff_of_isBanner {a : Section} (h : a.isBanner = true) : a.isSetOff = true := by
  cases a <;> simp_all [isBanner, isSetOff]

theorem exists_lines_eq_singleton {a : Section} (h : a.isBanner = true ∨ a.isComment = true) :
    ∃ text, a.lines s = [text] := by
  cases a <;> simp_all [isBanner, isComment, lines]

/-- A banner or a comment is one line, so what stands around the line stands around the section. -/
theorem exists_of_layOut_eq_single {secs : List Section} (h : ∀ a ∈ secs, a.IsSound s)
    {pre post : List Text} {l : Text} (hl : isBlank l = false) (heq : layOut s secs = pre ++ l :: post)
    (hone : ∀ a ∈ secs, l ∈ a.lines s → a.isBanner = true ∨ a.isComment = true) :
    ∃ as a bs, secs = as ++ a :: bs ∧ l ∈ a.lines s ∧ StandsBefore s as a pre ∧
      post = blankIf (a.isFollowed bs) ++ layOut s bs := by
  obtain ⟨as, a, bs, front, p, q, rfl, hlines, rfl, hbefore, rfl⟩ := exists_of_layOut_eq h hl heq
  have hmem : l ∈ a.lines s := by
    rw [hlines]
    exact List.mem_append_right _ List.mem_cons_self
  obtain ⟨text, htext⟩ := @exists_lines_eq_singleton s a (hone a (by simp) hmem)
  rw [htext] at hlines
  rcases p with _ | ⟨x, p⟩
  · obtain ⟨-, rfl⟩ := List.cons.inj hlines
    exact ⟨as, a, bs, rfl, hmem, by rwa [List.append_nil], List.nil_append _⟩
  · simp at hlines

/-- **A blank line follows a banner, and stands before it** unless it is the first line. -/
theorem blank_around_banner {secs : List Section} (h : ∀ a ∈ secs, a.IsSound s) {pre post : List Text}
    {l : Text} (heq : layOut s secs = pre ++ l :: post) (hl : Shape.read l = .banner) :
    post.head? = some [] ∧ (pre = [] ∨ pre.getLast? = some []) := by
  have hbanner : ∀ a ∈ secs, l ∈ a.lines s → a.isBanner = true :=
    fun a ha hmem => ((h a ha).banner l hmem).mp hl
  obtain ⟨as, a, bs, rfl, hmem, hbefore, rfl⟩ := exists_of_layOut_eq_single h
    (Shape.isBlank_eq_false_of_read hl (by simp)) heq fun a ha hmem => Or.inl (hbanner a ha hmem)
  have ha := hbanner a (by simp) hmem
  refine ⟨?_, ?_⟩
  · rw [isFollowed_of_isSetOff (isSetOff_of_isBanner ha)]
    rfl
  · rcases hbefore.last with ⟨-, hpre⟩ | ⟨c, -, hlast⟩
    · exact Or.inl hpre
    · right
      rw [hlast, parted_eq, ha]
      simp

/-- **A blank line stands before a run of comments**, unless it starts the document. -/
theorem blank_before_comment {secs : List Section} (h : ∀ a ∈ secs, a.IsSound s)
    {pre post : List Text} {l : Text} (heq : layOut s secs = pre ++ l :: post)
    (hl : isTopComment l = true) :
    pre = [] ∨ pre.getLast? = some [] ∨ ∃ m, pre.getLast? = some m ∧ isTopComment m = true := by
  have hread : Shape.read l = .comment := (of_decide_eq_true hl).1
  have hcomment : ∀ a ∈ secs, l ∈ a.lines s → a.isComment = true :=
    fun a ha hmem => ((h a ha).comment l hmem).symm.trans hl
  obtain ⟨as, a, bs, rfl, hmem, hbefore, -⟩ := exists_of_layOut_eq_single h
    (Shape.isBlank_eq_false_of_read hread (by simp)) heq fun a ha hmem => Or.inr (hcomment a ha hmem)
  have ha := hcomment a (by simp) hmem
  rcases hbefore.last with ⟨-, hpre⟩ | ⟨c, hc, hlast⟩
  · exact Or.inl hpre
  by_cases hparted : parted c a = true
  · rw [if_pos hparted] at hlast
    exact Or.inr (Or.inl hlast)
  · -- a section that is not parted from a comment is a comment
    have hc' : c.isComment = true := by
      rw [parted_eq, ha] at hparted
      simp_all
    obtain ⟨above, habove⟩ := @exists_lines_eq_singleton s c (Or.inr hc')
    rw [if_neg hparted, habove] at hlast
    refine Or.inr (Or.inr ⟨above, hlast, ?_⟩)
    rw [(h c (List.mem_append_left _ hc)).comment above (by rw [habove]; simp), hc']

/-- The first line of a layout is not blank. -/
theorem exists_layOut_eq_cons {secs : List Section} (hne : secs ≠ []) (h : ∀ a ∈ secs, a.IsSound s) :
    ∃ l rest, layOut s secs = l :: rest ∧ isBlank l = false := by
  obtain ⟨a, secs, rfl⟩ := List.exists_cons_of_ne_nil hne
  have ha := h a List.mem_cons_self
  obtain ⟨l, ls, hl⟩ := List.exists_cons_of_ne_nil ha.ne_nil
  refine ⟨l, _, by rw [layOut_cons, hl, List.cons_append], ?_⟩
  exact (ha.legible l (by rw [hl]; exact List.mem_cons_self)).isBlank_eq

/-- **No two blank lines follow each other in a layout.** -/
theorem isChain_layOut {secs : List Section} (h : ∀ a ∈ secs, a.IsSound s) :
    (layOut s secs).IsChain fun a b => isBlank a = false ∨ isBlank b = false := by
  induction secs with
  | nil => exact .nil
  | cons a secs ih =>
    obtain ⟨ha, htail⟩ := List.forall_mem_cons.mp h
    have hblank : (blankIf (a.isFollowed secs) ++ layOut s secs).IsChain
        fun a b => isBlank a = false ∨ isBlank b = false := by
      refine .append (by cases a.isFollowed secs <;> simp [blankIf]) (ih htail) fun x hx y hy => ?_
      -- what the next section begins with is not blank
      rcases secs with _ | ⟨b, secs⟩
      · cases hy
      · obtain ⟨l, rest, hlay, hl⟩ := exists_layOut_eq_cons (List.cons_ne_nil b secs) htail
        rw [hlay, List.head?_cons, Option.mem_some_iff] at hy
        exact Or.inr (hy ▸ hl)
    have hsolid : ∀ l ∈ a.lines s, isBlank l = false := fun l hl => (ha.legible l hl).isBlank_eq
    rw [layOut_cons]
    refine .append ?_ hblank fun x hx y _ => Or.inl (hsolid x (List.mem_of_getLast? hx))
    exact List.isChain_iff_forall_rel_of_append_cons_cons.mpr fun {x y p q} hlines =>
      Or.inl (hsolid x (by rw [hlines]; simp))

/-- The comments in the first column are the comments outside protocols. -/
theorem filter_isTopComment_lines {a : Section} (h : a.IsSound s) :
    (a.lines s).filter isTopComment = a.commentText?.toList := by
  by_cases hc : a.isComment = true
  · have hall : (a.lines s).filter isTopComment = a.lines s :=
      List.filter_eq_self.mpr fun l hl => (h.comment l hl).trans hc
    rw [hall]
    cases a <;> simp_all [isComment, lines, commentText?]
  · have hnone : (a.lines s).filter isTopComment = [] :=
      List.filter_eq_nil_iff.mpr fun l hl => by rw [h.comment l hl]; exact hc
    rw [hnone]
    cases a <;> simp_all [isComment, commentText?]

theorem filter_isTopComment_layOut {secs : List Section} (h : ∀ a ∈ secs, a.IsSound s) :
    (layOut s secs).filter isTopComment = secs.filterMap commentText? := by
  rw [filter_layOut (by decide)]
  induction secs with
  | nil => rfl
  | cons a secs ih =>
    obtain ⟨ha, htail⟩ := List.forall_mem_cons.mp h
    rw [List.flatMap_cons, List.filter_append, ih htail, filter_isTopComment_lines ha,
      List.filterMap_cons]
    cases a.commentText? <;> rfl

end Section

/-- How the lines `ls` of a formatted document stand to each other, `secs` being the sections that were
laid out. -/
structure InNormalForm (secs : List Section) (ls : List Text) : Prop where
  /-- No line ends in white space. -/
  trimmed : ∀ l ∈ ls, trimRight l = l
  /-- The first line is not blank. -/
  first : ∃ l rest, ls = l :: rest ∧ isBlank l = false
  /-- No two blank lines follow each other. -/
  single : ls.IsChain fun a b => isBlank a = false ∨ isBlank b = false
  /-- A blank line follows every banner, and stands before it unless it is the first line. -/
  banner : ∀ pre l post, ls = pre ++ l :: post → Shape.read l = .banner →
    post.head? = some [] ∧ (pre = [] ∨ pre.getLast? = some [])
  /-- The lines of a protocol stand together, behind those of the sections before it and before those of
  the sections behind it, and a blank line follows the last of them. -/
  protocol : ∀ as rows bs, secs = as ++ .protocol rows :: bs →
    ∃ pre post, ls = pre ++ (rows.map (Row.line {}) ++ [] :: post) ∧
      solidLines pre = as.flatMap (Section.lines {}) ∧ solidLines post = bs.flatMap (Section.lines {})
  /-- The comments outside protocols are the comments in the first column. -/
  comments : ls.filter isTopComment = secs.filterMap Section.commentText?
  /-- A blank line stands before a run of them, unless it starts the document. -/
  comment : ∀ pre l post, ls = pre ++ l :: post → isTopComment l = true →
    pre = [] ∨ pre.getLast? = some [] ∨ ∃ m, pre.getLast? = some m ∧ isTopComment m = true

/-- **A layout of sound sections is in normal form.** -/
theorem inNormalForm_layOut {secs : List Section} (hne : secs ≠ []) (h : ∀ a ∈ secs, a.IsSound {}) :
    InNormalForm secs (Section.layOut {} secs) := by
  refine ⟨?_, Section.exists_layOut_eq_cons hne h, Section.isChain_layOut h,
    fun pre l post => Section.blank_around_banner h, ?_, Section.filter_isTopComment_layOut h,
    fun pre l post => Section.blank_before_comment h⟩
  · intro l hl
    rcases Section.mem_layOut hl with rfl | hl
    · rfl
    · obtain ⟨a, ha, hl⟩ := List.mem_flatMap.mp hl
      exact ((h a ha).legible l hl).proper.trimmed
  · rintro as rows bs rfl
    obtain ⟨pre, hbefore, hlay⟩ := Section.layOut_append_cons
      (fun b hb => h b (List.mem_append_left _ hb)) (.protocol rows) bs
    refine ⟨pre, Section.layOut {} bs, ?_, hbefore.solid, ?_⟩
    · rw [hlay, Section.isFollowed_of_isSetOff rfl]
      rfl
    · exact Section.solidLines_layOut fun b hb => h b (by simp [hb])

/-- **A formatted document is in normal form.** -/
theorem format_inNormalForm {source out : Text} (h : format source = .ok out) :
    ∃ secs, emitted source = .ok secs ∧ InNormalForm secs (out.splitOn '\n') := by
  obtain ⟨ranged, secs, hemits⟩ := exists_emits h
  refine ⟨secs, hemits.emitted_eq, ?_⟩
  rw [(hemits.read_back h).1]
  exact inNormalForm_layOut hemits.ne_nil hemits.isSound

/-- Stray lines and comments in front of a protocol that a banner cuts off, and again behind the
banner. -/
def strewnSource : Text :=
  "stray\n# one\n#two  \n\n\nfoo 1 \x7b\n a 0 : x\n#### Module 5-9 ####\r\nmore\n".toList ++
    " # three\nbar \x7b\x7d".toList

/-- The same document, laid out. -/
def strewnLayout : Text :=
  "stray\n\n# one\n# two\nfoo 1 \x7b\n        a 0: x\n\x7d\n\n#### Module 5-9 ####\n\n".toList ++
    "more\n\n# three\nbar \x7b\x7d\n".toList

theorem strewnLayout_inNormalForm :
    format strewnSource = .ok strewnLayout ∧
      ∃ secs, emitted strewnSource = .ok secs ∧ InNormalForm secs (strewnLayout.splitOn '\n') := by
  have hformat : format strewnSource = .ok strewnLayout := by decide +kernel
  exact ⟨hformat, format_inNormalForm hformat⟩

end Sproto
