import Sproto.Proofs.Layout.Document

/-! # The sections that are laid out

What formatting lays out for any document that it accepts, whether or not protocols of it are cut off.
Every line of a section can be read back, and it tells what kind of section it belongs to
(`Section.IsSound`): only a banner is read as a banner, and only a comment outside protocols is read as a
comment in the first column.  One item keeps this (`Section.isSound_step`), so every section of a run has it
(`Section.isSound_run`).

`Emits.read_back` says what follows for the formatted document: its lines are those of the layout, and
those that are not blank are the lines of the sections. -/
namespace Sproto

open Text

/-! ## Items -/

namespace Item

/-- An item whose lines are proper and have no fault. -/
inductive Met : Item → Prop
  | line {t : Token} (ht : t.Proper) (hf : t.fault? = none)
      (hb : ∀ k rest, t.shape ≠ .block k true rest) : Met (.line t)
  | emptyBlock {k : BlockKind} {ts : List Token}
      (h : ∀ t ∈ ts, t.Proper ∧ t.fault? = none ∧ t.isCut = false) : Met (.emptyBlock k ts)

theorem met_of_mem_ofTokens {ts : List Token} (hts : ∀ t ∈ ts, t.Proper ∧ t.fault? = none) :
    ∀ i ∈ ofTokens ts, i.Met := by
  intro i hi
  rcases cases_of_mem_ofTokens hi with ⟨t, ht, hb, rfl⟩ | ⟨t, ht, k, rest, hs, rfl⟩ |
    ⟨t, ht, u, hu, k, rest, hs, hc, rfl⟩
  · exact .line (hts t ht).1 (hts t ht).2 hb
  · refine .emptyBlock fun v hv => ?_
    rw [List.mem_singleton.mp hv]
    exact ⟨(hts t ht).1, (hts t ht).2, by rw [Token.isCut, hs]⟩
  · refine .emptyBlock fun v hv => ?_
    rcases List.mem_pair.mp hv with rfl | rfl
    · exact ⟨(hts v ht).1, (hts v ht).2, by rw [Token.isCut, hs]⟩
    · exact ⟨(hts v hu).1, (hts v hu).2, by rw [Token.isCut, hc]⟩

end Item

/-! ## Lines that can be read back -/

/-- A line that is read as a proper one, and spells no number that is refused. -/
structure Legible (l : Text) : Prop where
  proper : (Token.read 0 l).Proper
  fault : (Token.read 0 l).fault? = none

theorem Token.Written.legible {t : Token} {l : Text} (hw : t.Written l) (ht : t.Proper)
    (hf : t.fault? = none) : Legible l := by
  have hread : t.Written (Token.read 0 l).text := hw
  exact ⟨hread.proper ht rfl, hread.fault_eq_none rfl hf⟩

/-- Whether a line is a comment in the first column. -/
def isTopComment (l : Text) : Bool := Shape.read l = .comment ∧ l.head? = some '#'

namespace Row

/-- A row whose line can be read back, and is neither a banner nor a comment in the first column. -/
structure IsSound (s : Style) (r : Row) : Prop where
  legible : Legible (r.line s)
  banner : Shape.read (r.line s) ≠ .banner
  comment : isTopComment (r.line s) = false

variable {s : Style}

theorem isSound_of_written {t : Token} (ht : t.Proper) (hf : t.fault? = none) {r : Row}
    (hw : t.Written (r.line s)) (hb : t.shape ≠ .banner)
    (hc : t.shape = .comment → (r.line s).head? ≠ some '#') : r.IsSound s := by
  refine ⟨hw.legible ht hf, fun h => hb ((hw.shape.eq_iff_of_isPlain rfl).mp h), ?_⟩
  by_cases hcomment : Shape.read (r.line s) = .comment
  · have hhead := hc ((hw.shape.eq_iff_of_isPlain rfl).mp hcomment)
    simp [isTopComment, hhead]
  · simp [isTopComment, hcomment]

theorem isSound_header {t : Token} (ht : t.Proper) (hf : t.fault? = none) {name rest : Text}
    {number : Option Numeral} (h : t.shape = .protocol name number rest) :
    (header name (number.map Numeral.value) (trim rest)).IsSound s := by
  refine isSound_of_written ht hf (ht.written_header h s) ?_ ?_ <;> simp [h]

/-- The line of a row that is read inside a protocol is a comment in the first column in no case. -/
theorem isSound_rowOf (hs : 0 < s.indent) {t : Token} (ht : t.Proper) (hf : t.fault? = none)
    (hcut : t.isCut = false) (hb : ∀ k rest, t.shape ≠ .block k true rest) {d : Int} (hd : 0 < d) :
    (Body.rowOf t d (d + braceBalance t.text)).IsSound s := by
  obtain ⟨hbanner, -⟩ := Token.isCut_eq_false_iff.mp hcut
  have hline := Section.line_rowOf s hcut d
  refine isSound_of_written ht hf ?_ hbanner fun hc => ?_
  · rw [hline]
    exact Style.written_lineOf_some hs ht hd hb
  · obtain ⟨rest, hrest⟩ := ht.trim_comment hc
    have hlevel : 0 < Style.plainLevel d (trim t.text) := by
      rw [Style.plainLevel, hrest, if_neg (by simp)]
      omega
    have hmargin := Style.margin_ne_nil hs hlevel
    rw [hline, Style.lineOf_plain s d (by rw [hc]; rfl) hbanner, Row.line,
      List.head?_append_of_ne_nil _ hmargin]
    intro hhash
    have hmem := List.mem_of_head? hhash
    simpa using List.eq_of_mem_replicate hmem

theorem isSound_emptyBlock (k : BlockKind) : (emptyBlock k).IsSound s := by
  have hread := read_emptyBlock s k
  refine ⟨⟨Token.proper_of_emptyBlock (t := Token.read 0 _) rfl rfl, ?_⟩, ?_, ?_⟩
  · rw [Token.fault?, Token.read_shape, hread]
    rfl
  · rw [hread]
    exact fun h => by cases h
  · simp [isTopComment, hread]

theorem line_closing (s : Style) : closing.line s = ['}'] := by
  simp [closing, line, Style.margin]

theorem isSound_closing : closing.IsSound s := by
  have hread : Shape.read ['}'] = .closeBrace := by decide
  rw [← line_closing s] at hread
  refine ⟨⟨⟨⟨rfl, ?_⟩, ?_, ?_⟩, ?_⟩, ?_, ?_⟩
  · rw [Token.read_text, line_closing]
    decide
  · rw [Token.read_text, line_closing]
    rfl
  · rw [Token.read_shape, hread]
    exact fun h => by cases h
  · rw [Token.fault?, Token.read_shape, hread]
    rfl
  · rw [hread]
    exact fun h => by cases h
  · simp [isTopComment, hread]

end Row

/-! ## Sections -/

namespace Section

/-- Whether a section is a banner. -/
def isBanner : Section → Bool
  | banner _ => true
  | _ => false

/-- Whether a section is a comment. -/
def isComment : Section → Bool
  | comment _ => true
  | _ => false

/-- A section whose lines can be read back, each as a line of such a section. -/
structure IsSound (s : Style) (a : Section) : Prop where
  ne_nil : a.lines s ≠ []
  legible : ∀ l ∈ a.lines s, Legible l
  banner : ∀ l ∈ a.lines s, Shape.read l = .banner ↔ a.isBanner = true
  comment : ∀ l ∈ a.lines s, isTopComment l = a.isComment

variable {s : Style}

theorem isSound_protocol {rows : List Row} (hne : rows ≠ []) (h : ∀ r ∈ rows, r.IsSound s) :
    (protocol rows).IsSound s := by
  refine ⟨by simpa [lines] using hne, ?_, ?_, ?_⟩ <;> intro l hl <;>
    obtain ⟨r, hr, rfl⟩ := List.mem_map.mp hl
  · exact (h r hr).legible
  · simpa [isBanner] using (h r hr).banner
  · exact (h r hr).comment

/-- A line outside any protocol is a comment in the first column exactly if it is a comment. -/
theorem isSound_outside {t : Token} (ht : t.Proper) (hf : t.fault? = none) (hcut : t.isCut = false) :
    (outside t).IsSound s := by
  obtain ⟨hbanner, -⟩ := Token.isCut_eq_false_iff.mp hcut
  by_cases hc : t.shape = .comment
  · have hw := ht.written_comment hc
    have hread : Shape.read (Style.commentLine t.text) = .comment :=
      (hw.shape.eq_iff_of_isPlain rfl).mpr hc
    obtain ⟨rest, hrest⟩ := ht.trim_comment hc
    have hhead : (Style.commentLine t.text).head? = some '#' := by
      rw [Style.commentLine_eq hrest]
      rfl
    rw [outside, if_pos hc]
    refine ⟨by simp [lines], ?_, ?_, ?_⟩ <;> intro l hl <;> rw [List.mem_singleton.mp hl]
    · exact hw.legible ht hf
    · simp [hread, isBanner]
    · simp [isTopComment, hread, hhead, isComment]
  · rw [outside, if_neg hc]
    refine ⟨by simp [lines], ?_, ?_, ?_⟩ <;> intro l hl <;> rw [List.mem_singleton.mp hl]
    · exact ht.written_self.legible ht hf
    · simp [← ht.shape_eq, hbanner, isBanner]
    · simp [isTopComment, ← ht.shape_eq, hc, isComment]

theorem isSound_banner {t : Token} (ht : t.Proper) (hf : t.fault? = none) (h : t.shape = .banner) :
    (Section.banner (trim t.text)).IsSound s := by
  have hw := ht.written_banner h
  have hread : Shape.read (trim t.text) = .banner := (hw.shape.eq_iff_of_isPlain rfl).mpr h
  refine ⟨by simp [lines], ?_, ?_, ?_⟩ <;> intro l hl <;> rw [List.mem_singleton.mp hl]
  · exact hw.legible ht hf
  · simp [hread, isBanner]
  · simp [isTopComment, hread, isComment]

/-- The protocol that is open, if there is one, has an open brace and sound rows. -/
def OpenSound (s : Style) (current : Option Body) : Prop :=
  ∀ b, current = some b → 0 < b.depth ∧ b.rows ≠ [] ∧ ∀ r ∈ b.rows, r.IsSound s

theorem isSound_cutOff {current : Option Body} (hc : OpenSound s current) :
    ∀ a ∈ cutOff current, a.IsSound s := by
  intro a ha
  rcases current with _ | b
  · simp [cutOff] at ha
  · obtain ⟨-, hne, hrows⟩ := hc b rfl
    rw [cutOff, List.mem_singleton] at ha
    rw [ha, Body.cutOff]
    split
    · exact isSound_protocol hne hrows
    · refine isSound_protocol (by simp) fun r hr => ?_
      rcases List.mem_append.mp hr with hr | hr
      · exact hrows r hr
      · rw [List.mem_singleton.mp hr]
        exact Row.isSound_closing

/-- A body with sound rows ends in a sound section, or stays open with sound rows. -/
theorem isSound_ended {b : Body} (hne : b.rows ≠ []) (hrows : ∀ r ∈ b.rows, r.IsSound s) :
    (∀ a ∈ b.ended, a.IsSound s) ∧ OpenSound s b.goesOn := by
  by_cases hd : b.depth ≤ 0
  · rw [Body.ended, Body.goesOn, if_pos hd, if_pos hd]
    refine ⟨fun a ha => ?_, fun c hc => by cases hc⟩
    rw [List.mem_singleton.mp ha]
    exact isSound_protocol hne hrows
  · rw [Body.ended, Body.goesOn, if_neg hd, if_neg hd]
    refine ⟨by simp, fun c hc => ?_⟩
    rw [← Option.some.inj hc]
    exact ⟨by omega, hne, hrows⟩

/-- **One item completes sound sections**, and keeps the rows of the open protocol sound. -/
theorem isSound_step (hs : 0 < s.indent) {current : Option Body} (hc : OpenSound s current) {i : Item}
    (hi : i.Met) : (∀ a ∈ (step current i).1, a.IsSound s) ∧ OpenSound s (step current i).2 := by
  rcases hi with ⟨ht, hf, hb⟩ | h
  · rename_i t
    rcases t.cut_cases with hbanner | ⟨name, number, rest, hproto⟩ | hcut
    · simp only [step, hbanner, List.forall_mem_append, List.forall_mem_singleton]
      exact ⟨⟨isSound_cutOff hc, isSound_banner ht hf hbanner⟩, fun b hb => by cases hb⟩
    · have hdeclare := @isSound_ended s (Body.declare t name number rest) (List.cons_ne_nil _ _)
        (List.forall_mem_singleton.mpr (Row.isSound_header ht hf hproto))
      simp only [step, hproto, List.forall_mem_append]
      exact ⟨⟨isSound_cutOff hc, hdeclare.1⟩, hdeclare.2⟩
    · rcases current with _ | b
      · rw [step_none_of_not_isCut hcut]
        exact ⟨List.forall_mem_singleton.mpr (isSound_outside ht hf hcut), fun b hb => by cases hb⟩
      · obtain ⟨hd, -, hrows⟩ := hc b rfl
        rw [step_some_of_not_isCut hcut]
        refine isSound_ended (by simp [Body.add]) fun r hr => ?_
        rcases List.mem_append.mp hr with hr | hr
        · exact hrows r hr
        · rw [List.mem_singleton.mp hr]
          exact Row.isSound_rowOf hs ht hf hcut hb hd
  · rcases current with _ | b
    · refine ⟨fun a ha => ?_, fun b hb => by cases hb⟩
      obtain ⟨t, ht, rfl⟩ := List.mem_map.mp ha
      exact isSound_outside (h t ht).1 (h t ht).2.1 (h t ht).2.2
    · obtain ⟨hd, -, hrows⟩ := hc b rfl
      refine ⟨fun a ha => absurd ha List.not_mem_nil, fun c hc => ?_⟩
      rw [← Option.some.inj hc]
      refine ⟨hd, by simp [Body.addEmptyBlock], fun r hr => ?_⟩
      rcases List.mem_append.mp hr with hr | hr
      · exact hrows r hr
      · rw [List.mem_singleton.mp hr]
        exact Row.isSound_emptyBlock _

/-- **Every section of a run is sound.** -/
theorem isSound_run (hs : 0 < s.indent) {is : List Item} (his : ∀ i ∈ is, i.Met)
    {current : Option Body} (hc : OpenSound s current) : ∀ a ∈ run current is, a.IsSound s := by
  induction is generalizing current with
  | nil => exact isSound_cutOff hc
  | cons i is ih =>
    obtain ⟨hi, htail⟩ := List.forall_mem_cons.mp his
    obtain ⟨hsecs, hnext⟩ := isSound_step hs hc hi
    rw [run, List.forall_mem_append]
    exact ⟨hsecs, ih htail hnext⟩

end Section

/-! ## Banners -/

/-- The text of a banner, trimmed. -/
def Token.bannerText? (t : Token) : Option Text := if t.shape = .banner then some (trim t.text) else none

theorem Token.bannerText?_eq_some {t : Token} (h : t.shape = .banner) :
    t.bannerText? = some (trim t.text) := if_pos h

theorem Token.bannerText?_eq_none {t : Token} (h : t.shape ≠ .banner) : t.bannerText? = none := if_neg h

/-- **Whether a range is announced depends on the banners alone.** -/
theorem hasRange_congr {ts ts' : List Token}
    (h : ts.filterMap Token.bannerText? = ts'.filterMap Token.bannerText?) :
    hasRange ts = hasRange ts' := by
  have hbanners : ∀ us : List Token, hasRange us =
      hasRange ((us.filterMap Token.bannerText?).map fun l => ⟨0, l, .banner⟩) := by
    intro us
    induction us with
    | nil => rfl
    | cons u us ih =>
      by_cases hb : u.shape = .banner
      · rw [List.filterMap_cons_some (Token.bannerText?_eq_some hb), List.map_cons, hasRange, hasRange, if_pos hb, if_pos rfl,
          Banner.rangeValue?_trim, ih]
      · rw [List.filterMap_cons_none (Token.bannerText?_eq_none hb), hasRange_cons_of_ne hb, ih]
  rw [hbanners ts, hbanners ts', h]

namespace Section

/-- The text of a banner. -/
def bannerText? : Section → Option Text
  | banner text => some text
  | _ => none

theorem filterMap_bannerText_cutOff (current : Option Body) :
    (cutOff current).filterMap bannerText? = [] := by
  rcases current with _ | b <;> rfl

theorem filterMap_bannerText_ended (b : Body) : b.ended.filterMap bannerText? = [] := by
  unfold Body.ended
  split <;> rfl

/-- A line that is no banner completes none. -/
theorem bannerText_outside (t : Token) : bannerText? (outside t) = none := by
  unfold outside
  split <;> rfl

/-- One item completes the banners that it is made of. -/
theorem filterMap_bannerText_step (current : Option Body) {i : Item} (hi : i.Met) :
    (step current i).1.filterMap bannerText? = i.tokens.filterMap Token.bannerText? := by
  rcases hi with ⟨ht, hf, hb⟩ | h
  · rename_i t
    rcases t.cut_cases with hbanner | ⟨name, number, rest, hproto⟩ | hcut
    · simp [step, hbanner, filterMap_bannerText_cutOff, bannerText?, Item.tokens, Token.bannerText?]
    · have hnone : t.bannerText? = none := Token.bannerText?_eq_none (by simp [hproto])
      simp only [step, hproto, List.filterMap_append, filterMap_bannerText_cutOff,
        filterMap_bannerText_ended, List.append_nil]
      rw [Item.tokens, List.filterMap_cons_none hnone, List.filterMap_nil]
    · have hnone : t.bannerText? = none :=
        Token.bannerText?_eq_none (Token.isCut_eq_false_iff.mp hcut).1
      rw [Item.tokens, List.filterMap_cons_none hnone, List.filterMap_nil]
      rcases current with _ | b
      · rw [step_none_of_not_isCut hcut, List.filterMap_cons_none (bannerText_outside t),
          List.filterMap_nil]
      · rw [step_some_of_not_isCut hcut]
        exact filterMap_bannerText_ended _
  · rename_i k ts
    have hnone : ts.filterMap Token.bannerText? = [] := by
      refine List.filterMap_eq_nil_iff.mpr fun t ht => Token.bannerText?_eq_none ?_
      exact (Token.isCut_eq_false_iff.mp (h t ht).2.2).1
    rw [Item.tokens, hnone]
    rcases current with _ | b
    · refine List.filterMap_eq_nil_iff.mpr fun a ha => ?_
      obtain ⟨t, -, rfl⟩ := List.mem_map.mp ha
      exact bannerText_outside t
    · rfl

/-- **The banners of a run are those of its lines**, trimmed and in order. -/
theorem filterMap_bannerText_run {is : List Item} (his : ∀ i ∈ is, i.Met) (current : Option Body) :
    (run current is).filterMap bannerText? =
      (is.flatMap Item.tokens).filterMap Token.bannerText? := by
  induction is generalizing current with
  | nil => exact filterMap_bannerText_cutOff current
  | cons i is ih =>
    obtain ⟨hi, htail⟩ := List.forall_mem_cons.mp his
    rw [run, List.filterMap_append, filterMap_bannerText_step current hi, ih htail, List.flatMap_cons,
      List.filterMap_append]

theorem filterMap_bannerText_gather {ts : List Token}
    (hts : ∀ t ∈ ts, t.Proper ∧ t.fault? = none) :
    (gather none ts).filterMap bannerText? = ts.filterMap Token.bannerText? := by
  rw [gather, filterMap_bannerText_run (Item.met_of_mem_ofTokens hts), Item.flatMap_tokens_ofTokens]

end Section

/-! ## Whole documents -/

/-- The sections that are laid out for a document. -/
def emitted (source : Text) : Except Fault (List Section) := do
  let ts ← Token.ofLines? ((lines source).map trimRight)
  let ranged ← hasRange ts
  return ({} : Style).sections ts ranged

/-- Formatting a document is laying out its sections. -/
theorem format_eq_emitted (source : Text) :
    format source = (emitted source).map fun secs => unlines (Section.layOut {} secs) := by
  unfold format Style.format emitted
  simp only [bind, Except.bind, pure, Except.pure]
  rcases Token.ofLines? ((lines source).map trimRight) with f | ts
  · rfl
  · dsimp only
    rcases hasRange ts with f | ranged <;> rfl

theorem isFront_read {ts : List Token} (hts : ∀ t ∈ ts, t.fault? = none) :
    IsFront ts (Token.read 0 (({} : Style).banner (frontTitle ts))) :=
  isFront_of_text_eq hts (Token.read_shape ..) (Token.read_text ..)

theorem isSound_frontBanner {ts : List Token} (hts : ∀ t ∈ ts, t.fault? = none) :
    (frontBanner {} ts).IsSound {} := by
  have hfront := isFront_read hts
  have hfault : (Token.read 0 (({} : Style).banner (frontTitle ts))).fault? = none := by
    rw [Token.fault?, hfront.isBanner]
    rfl
  have hsound := @Section.isSound_banner {} _ hfront.toProper hfault hfront.isBanner
  rw [hfront.trim_text, Token.read_text] at hsound
  rwa [frontBanner_eq]

/-- The sections that are laid out are those of the lines that are not blank, behind a banner if none of
these lines announces a range. -/
theorem sections_eq (s : Style) (source : Text) (ranged : Bool) :
    s.sections (Token.ofLines ((lines source).map trimRight)) ranged =
      (if ranged then [] else [frontBanner s (layoutTokens source)]) ++
        Section.gather none (layoutTokens source) := by
  have hfront : frontBanner s (Token.ofLines ((lines source).map trimRight)) =
      frontBanner s (layoutTokens source) := by
    rw [frontBanner_eq, frontBanner_eq, layoutTokens, frontTitle_filter]
  rcases ranged with _ | _
  · rw [Style.sections, if_neg Bool.false_ne_true, hfront]
    rfl
  · rfl

/-- What is laid out for a document that is accepted. -/
structure Emits (source : Text) (ranged : Bool) (secs : List Section) : Prop where
  fault : ∀ t ∈ layoutTokens source, t.fault? = none
  range : hasRange (layoutTokens source) = .ok ranged
  emitted_eq : emitted source = .ok secs
  secs_eq : secs = (if ranged then [] else [frontBanner {} (layoutTokens source)]) ++
    Section.gather none (layoutTokens source)

namespace Emits

variable {source : Text} {ranged : Bool} {secs : List Section}

/-- A document is accepted when its lines are, and some banner announces a range or none does. -/
theorem of_layoutTokens (hf : ∀ t ∈ layoutTokens source, t.fault? = none)
    (hr : hasRange (layoutTokens source) = .ok ranged) :
    Emits source ranged ((if ranged then [] else [frontBanner {} (layoutTokens source)]) ++
      Section.gather none (layoutTokens source)) := by
  refine ⟨hf, hr, ?_, rfl⟩
  have htokens : Token.ofLines? ((lines source).map trimRight) =
      .ok (Token.ofLines ((lines source).map trimRight)) :=
    Token.ofLines?_eq_ok_iff.mpr ⟨rfl, fault_eq_none_of_layoutTokens hf⟩
  rw [layoutTokens, hasRange_filter] at hr
  rw [emitted, htokens]
  simp only [bind, Except.bind, pure, Except.pure, hr, sections_eq]

theorem proper (h : Emits source ranged secs) :
    ∀ t ∈ layoutTokens source, t.Proper ∧ t.fault? = none :=
  fun t ht => ⟨proper_of_mem_layoutTokens ht, h.fault t ht⟩

theorem format_eq (h : Emits source ranged secs) :
    format source = .ok (unlines (Section.layOut {} secs)) := by
  rw [format_eq_emitted, h.emitted_eq]
  rfl

/-- **Everything that is laid out is sound.** -/
theorem isSound (h : Emits source ranged secs) : ∀ a ∈ secs, a.IsSound {} := by
  have hgather : ∀ a ∈ Section.gather none (layoutTokens source), a.IsSound {} :=
    Section.isSound_run (by decide) (Item.met_of_mem_ofTokens h.proper) fun b hb => by cases hb
  rw [h.secs_eq, List.forall_mem_append]
  refine ⟨fun a ha => ?_, hgather⟩
  rcases ranged with _ | _
  · rw [List.mem_singleton.mp ha]
    exact isSound_frontBanner h.fault
  · cases ha

/-- The banners that are laid out: those of the document, behind the one in front if there is one. -/
theorem filterMap_bannerText (h : Emits source ranged secs) :
    secs.filterMap Section.bannerText? =
      (if ranged then [] else [({} : Style).banner (frontTitle (layoutTokens source))]) ++
        (layoutTokens source).filterMap Token.bannerText? := by
  rw [h.secs_eq, List.filterMap_append, Section.filterMap_bannerText_gather h.proper]
  rcases ranged with _ | _ <;> rfl

/-- Something is laid out for every document: it has a banner at least. -/
theorem ne_nil (h : Emits source ranged secs) : secs ≠ [] := by
  rintro rfl
  have hbanners := h.filterMap_bannerText
  rcases ranged with _ | _
  · cases hbanners
  · have hnone : (layoutTokens source).filterMap Token.bannerText? = [].filterMap Token.bannerText? :=
      hbanners.symm
    have hrange := h.range
    rw [hasRange_congr hnone] at hrange
    cases hrange

/-- **The formatted document is read back as the sections that were laid out.** -/
theorem read_back (h : Emits source ranged secs) {out : Text} (hout : format source = .ok out) :
    out.splitOn '\n' = Section.layOut {} secs ∧ lines out = Section.layOut {} secs ∧
      (layoutTokens out).map Token.text = secs.flatMap (Section.lines {}) := by
  rw [h.format_eq] at hout
  rw [← Except.ok.inj hout]
  refine Section.read_back_layOut (fun hnil => ?_) fun l hl => ?_
  · obtain ⟨a, rest, rfl⟩ := List.exists_cons_of_ne_nil h.ne_nil
    exact (h.isSound a List.mem_cons_self).ne_nil (List.append_eq_nil_iff.mp hnil).1
  · obtain ⟨a, ha, hl⟩ := List.mem_flatMap.mp hl
    exact ((h.isSound a ha).legible l hl).proper

end Emits

theorem exists_emits {source out : Text} (h : format source = .ok out) :
    ∃ ranged secs, Emits source ranged secs := by
  obtain ⟨-, hfault, ranged, hrange, -⟩ := format_eq_ok h
  exact ⟨ranged, _, .of_layoutTokens hfault hrange⟩

end Sproto
