import Sproto.Proofs.Layout.Announcement
import Sproto.Proofs.Validation.Filing
import Sproto.Proofs.Validation.Verdict

/-! # Formatting and the grouping of protocols

Validation files protocols under module headers, lines `#### Label` in the first column.  Layout knows
banners and comments, which is something else: it moves a banner to the first column, where it may become
a header, and it writes a comment with a blank behind its first hash sign, or indents it, so that a
comment never stays a header (`Style.label?_written`).  It also draws an empty block of a protocol together
on one line, and if that block stands inside another one, its closing brace no longer ends the other one.
And the banner that it puts in front of some documents is a header too.

So formatting does not keep every protocol in its group (`modules_not_kept`).  Which ones it keeps can be
told from the document alone.  `regrouped` files the protocols of a document with its lines taken for what
they will count as: a comment for nothing, a banner for what it is in the first column, an empty block of
an open protocol for nothing.  The formatted document has just these groups (`groupKeys_format`), so a
protocol stays in its group exactly if it is filed there so (`modules_format`). -/
namespace Sproto

open Text

/-! ## The lines that count -/

namespace Token

/-- What a line counts as for the grouping once it is laid out. -/
def counted (t : Token) : List Token :=
  match t.shape with
  | .comment => []
  | .banner => [{ t with text := trim t.text }]
  | _ => [t]

theorem counted_of_comment {t : Token} (h : t.shape = .comment) : t.counted = [] := by
  simp only [counted, h]

theorem counted_of_banner {t : Token} (h : t.shape = .banner) :
    t.counted = [{ t with text := trim t.text }] := by
  simp only [counted, h]

theorem counted_of_ne {t : Token} (hc : t.shape ≠ .comment) (hb : t.shape ≠ .banner) :
    t.counted = [t] := by
  unfold counted
  split
  · exact absurd ‹_› hc
  · exact absurd ‹_› hb
  · rfl

theorem Alike.of_trim {t t' : Token} (h : t.Alike t') : Alike { t with text := trim t.text } t' where
  shape := h.shape
  solid := by rw [solid_trim]; exact h.solid
  text := by rw [trim_trim]; exact h.text

end Token

namespace Item

/-- The lines that count of an item met at a depth. -/
def counted (depth : Option Int) : Item → List Token
  | line t => t.counted
  | emptyBlock _ ts => if depth.isSome then [] else ts

/-- The depth behind an item. -/
def behind (depth : Option Int) : Item → Option Int
  | line t => nest depth t
  | emptyBlock _ _ => depth

end Item

/-- The lines that count of items that are met from a depth on. -/
def countedLines : Option Int → List Item → List Token
  | _, [] => []
  | depth, i :: is => i.counted depth ++ countedLines (i.behind depth) is

/-- The groups of a document when its lines are taken for what they count as once they are laid out.  Before
the first header the label is that of the banner in front, if there will be one. -/
def regrouped (source : Text) : List (Text × List Entry) :=
  let start : Validation.State :=
    if Announces source then .initial else Validation.State.initial.enterModule "Protocol".toList
  (start.run (countedLines none (Item.ofTokens (layoutTokens source)))).1.modules

section

variable {t u : Token} {ts : List Token}

theorem countedLines_line (depth : Option Int) (h : t.opensEmpty ts = false) :
    countedLines depth (Item.ofTokens (t :: ts)) =
      t.counted ++ countedLines (nest depth t) (Item.ofTokens ts) := by
  rw [Section.ofTokens_line h]
  rfl

theorem countedLines_closed {k : BlockKind} {rest : Text} (h : t.shape = .block k true rest) (d : Int) :
    countedLines (some d) (Item.ofTokens (t :: ts)) = countedLines (some d) (Item.ofTokens ts) := by
  rw [Section.ofTokens_closed h]
  rfl

theorem countedLines_pair {k : BlockKind} {rest : Text} (h : t.shape = .block k false rest)
    (hu : u.shape = .closeBrace) (d : Int) :
    countedLines (some d) (Item.ofTokens (t :: u :: ts)) = countedLines (some d) (Item.ofTokens ts) := by
  rw [Section.ofTokens_pair h hu]
  rfl

/-- Outside any protocol an empty block is nothing special. -/
theorem countedLines_none (t : Token) (ts : List Token) :
    countedLines none (Item.ofTokens (t :: ts)) =
      t.counted ++ countedLines (nest none t) (Item.ofTokens ts) := by
  cases h : t.opensEmpty ts with
  | false => exact countedLines_line none h
  | true =>
    rcases Section.cases_of_opensEmpty h with ⟨k, rest, hs⟩ | ⟨k, rest, u, us, hs, hu, rfl⟩
    · rw [Section.ofTokens_closed hs]
      simp only [countedLines, Item.counted, Item.behind, Token.counted, nest, hs]
      rfl
    · rw [Section.ofTokens_pair hs hu]
      simp only [countedLines, Item.counted, Item.behind, Token.counted, nest, hs]
      rw [Option.bind_none, countedLines_line none (Section.opensEmpty_closeBrace hu us)]
      simp only [Token.counted, nest, hu]
      rfl

end

/-! ## Headers as they are written -/

/-- **Of the lines that layout writes, banners alone have labels.** -/
theorem Style.label?_written {s : Style} (hs : 0 < s.indent) {depth : Option Int}
    (hdepth : ∀ d, depth = some d → 0 < d) {t t' : Token} (ht : t.Proper) (ht' : t'.Genuine)
    (ha : t.Alike t') (h : t'.text = s.lineOf depth t) :
    Banner.label? t'.text = if t.shape = .banner then Banner.label? (trim t.text) else none := by
  by_cases hb : t.shape = .banner
  · rw [if_pos hb, h, lineOf_banner s depth hb]
  rw [if_neg hb]
  by_cases hc : t.shape = .comment
  · obtain ⟨rest, hrest⟩ := ht.trim_comment hc
    rcases depth with _ | d
    · apply Banner.label?_eq_none_of_not_startsHeader
      rw [h]
      simpa [lineOf, hc, outsideLine] using Banner.startsHeader_commentLine hrest
    · -- Inside a protocol a comment does not stand in the first column.
      have hlevel : 0 < plainLevel d (trim t.text) := by
        have hd := hdepth d rfl
        simp only [plainLevel, hrest, List.head?_cons, Option.some.injEq, Char.reduceEq, if_false]
        omega
      obtain ⟨c, m, hm⟩ := List.exists_cons_of_ne_nil (margin_ne_nil hs hlevel)
      have hc' : c = ' ' := List.eq_of_mem_replicate (hm ▸ List.mem_cons_self : c ∈ s.margin _)
      rw [h, lineOf_plain s d (by rw [hc]; rfl) hb, Row.line, hm, hc']
      exact Banner.label?_eq_none_of_head? (by simp)
  · apply ht'.label?_eq_none
    · exact fun h' => hb ((ha.shape.eq_iff_of_isPlain rfl).mp h')
    · exact fun h' => hc ((ha.shape.eq_iff_of_isPlain rfl).mp h')

namespace Validation

variable {s s' : State} {t t' : Token}

/-! ## The two passes -/

/-- A comment without a label, and a block start that is closed at once, leave the pass where it is. -/
theorem State.step_still (s : State) (hl : Banner.label? t.text = none)
    (h : t.shape = .comment ∨ ∃ k rest, t.shape = .block k true rest) : (s.step t).1 = s := by
  obtain ⟨context, label, protocols, modules⟩ := s
  rcases context with _ | ⟨k, fields⟩
  · rcases h with h | ⟨k, rest, h⟩ <;> simp [step, hl, h]
  · rcases h with h | ⟨k, rest, h⟩ <;> simp [step, checkField, isSkipped, h]

/-- The line that is written for an empty block leaves the pass where it is. -/
theorem State.step_emptyBlock {st : Style} (s : State) {k : BlockKind}
    (hread : t.shape = Shape.read t.text) (htext : t.text = (Row.emptyBlock k).line st) :
    (s.step t).1 = s := by
  have hblock := Token.shape_of_emptyBlock hread htext
  have hproper := Token.proper_of_emptyBlock hread htext
  exact s.step_still (label?_block hproper.toGenuine hblock) (.inr ⟨_, _, hblock⟩)

/-- **The pass over what a line counts as goes along with the pass over the line that is written.** -/
theorem State.run_counted {st : Style} (hst : 0 < st.indent) {depth : Option Int}
    (hdepth : ∀ d, depth = some d → 0 < d) (h : s.Twin s') (ht : t.Proper) (hw : t.Written t'.text)
    (ht' : t'.shape = Shape.read t'.text) (htext : t'.text = st.lineOf depth t) :
    (s.run t.counted).1.Twin (s'.step t').1 := by
  have hproper := hw.proper ht ht'
  have ha := hw.alike ht'
  have hl := st.label?_written hst hdepth ht hproper.toGenuine ha htext
  by_cases hc : t.shape = .comment
  · rw [if_neg (by simp [hc])] at hl
    rw [Token.counted_of_comment hc,
      s'.step_still hl (.inl ((ha.shape.eq_iff_of_isPlain rfl).mpr hc))]
    exact h
  by_cases hb : t.shape = .banner
  · have hu := ht.written_banner hb
    have hread : t.shape = Shape.read (trim t.text) := by
      rw [hb, (hu.shape.eq_iff_of_isPlain rfl).mpr hb]
    rw [if_pos hb] at hl
    rw [Token.counted_of_banner hb]
    exact step_twin h ⟨hread, hu.feed⟩ hproper.toGenuine ha.of_trim hl.symm
  · rw [if_neg hb] at hl
    rw [Token.counted_of_ne hc hb]
    exact step_twin h ht.toGenuine hproper.toGenuine ha (by rw [hl, ht.label?_eq_none hb hc])

/-- **The pass over the lines that count goes along with the pass over what is written.** -/
theorem State.run_countedLines {st : Style} (hst : 0 < st.indent) {depth : Option Int}
    {ts ts' : List Token} (hr : Rewritten st depth ts ts') (h : s.Twin s') :
    (s.run (countedLines depth (Item.ofTokens ts))).1.Twin (s'.run ts').1 := by
  induction hr generalizing s s' with
  | done => exact h
  | outside ht hw ht' htext _ ih =>
    rw [countedLines_none, run_append, run_cons]
    exact ih (run_counted hst (fun d hd => by cases hd) h ht hw ht' htext)
  | inside hd ht hw ht' _ hline htext _ ih =>
    rw [countedLines_line _ hline, run_append, run_cons]
    exact ih (run_counted hst (fun d' hd' => by cases hd'; exact hd) h ht hw ht' htext)
  | closed _ _ hshape ht' htext _ ih =>
    rw [countedLines_closed hshape, run_cons, s'.step_emptyBlock ht' htext]
    exact ih h
  | pair _ _ _ hshape hclose ht' htext _ ih =>
    rw [countedLines_pair hshape hclose, run_cons, s'.step_emptyBlock ht' htext]
    exact ih h

/-- What is filed over a formatted document, up to lines. -/
theorem groupKeys_formatted {source : Text} {ts' : List Token}
    (h : Formatted (layoutTokens source) ts') :
    (State.initial.run ts').1.modules.map groupKey = (regrouped source).map groupKey := by
  have hranged : ∀ {ranged}, hasRange (layoutTokens source) = .ok ranged →
      (ranged = true ↔ Announces source) := by
    intro ranged hr
    rw [isRanged_iff hr, filterMap_bannerText_layoutTokens, announces_iff]
  rw [regrouped]
  rcases h with ⟨hr, hrest⟩ | ⟨hr, hf, hrest⟩
  · rw [if_pos ((hranged hr).mp rfl)]
    exact (State.run_countedLines (by decide) hrest (.refl _)).modules.symm
  · rw [if_neg fun ha => Bool.false_ne_true ((hranged hr).mpr ha), State.run_cons, State.step_front hf]
    exact (State.run_countedLines (by decide) hrest (.refl _)).modules.symm

end Validation

open Validation in
/-- **The groups of a formatted document** are those of the document, with its lines taken for what they
count as. -/
theorem groupKeys_format {source out : Text} (h : format source = .ok out) (hb : Balanced source) :
    ∃ r r', validate source = .ok r ∧ validate out = .ok r' ∧
      r'.modules.map groupKey = (regrouped source).map groupKey := by
  have hformatted := formatted_of_format h hb
  obtain ⟨-, hfault, -⟩ := format_eq_ok h
  refine ⟨_, _, validate_eq_ok hfault, validate_eq_ok (hformatted.fault_eq_none hfault), ?_⟩
  have hout := State.run_twin (condensed_layoutTokens out) (State.Twin.refl .initial)
  exact hout.modules.trans (groupKeys_formatted hformatted)

open Validation in
/-- **Formatting keeps a protocol in its group exactly if** it is filed there with the lines of the document
taken for what they count as once they are laid out. -/
theorem modules_format {source out : Text} (h : format source = .ok out) (hb : Balanced source) :
    ∃ r r', validate source = .ok r ∧ validate out = .ok r' ∧
      ∀ label e, Filed r.modules label e →
        ((∃ e', Filed r'.modules label e' ∧ e'.name = e.name ∧ e'.number = e.number) ↔
          ∃ e', Filed (regrouped source) label e' ∧ e'.name = e.name ∧ e'.number = e.number) := by
  obtain ⟨r, r', hr, hr', hgroups⟩ := groupKeys_format h hb
  refine ⟨r, r', hr, hr', fun label e _ => ?_⟩
  have hkey : ∀ ms, (∃ e', Filed ms label e' ∧ e'.name = e.name ∧ e'.number = e.number) ↔
      ∃ ks, (label, ks) ∈ ms.map groupKey ∧ e.key ∈ ks := by
    intro ms
    rw [← exists_filed_iff]
    simp only [Entry.key, Prod.mk.injEq]
  rw [hkey, hkey, hgroups]

/-- The groups of a document, by names. -/
def groupNames (source : Text) : Except Fault (List (Text × List Text)) :=
  (validate source).map fun r => r.modules.map fun m => (m.1, m.2.map Entry.name)

/-- A document with two banners, one of them indented, three comments that are headers, and an empty block
inside another one outside any protocol. -/
def mixedHeaders : Text :=
  "#### Protocol\nlogin 1 \x7b\n\x7d\n#### Login ####\n#### Login\nlogout 2 \x7b\n\x7d\n".toList ++
    "request \x7b\nresponse \x7b\n\x7d\nping 3 \x7b\n\x7d\n".toList ++
    "#### Chat\nchat 4 \x7b\n request \x7b\n \x7d\n\x7d\n  #### Shop ####\nshop 5 \x7b\n\x7d".toList

/-- The same document, laid out. -/
def mixedHeadersLayout : Text :=
  ({} : Style).banner "Protocol Module 0-99".toList ++
    "\n\n# ### Protocol\nlogin 1 \x7b\n\x7d\n\n#### Login ####\n\n# ### Login\n".toList ++
    "logout 2 \x7b\n\x7d\n\nrequest \x7b\nresponse \x7b\n\x7d\nping 3 \x7b\n\x7d\n\n".toList ++
    "# ### Chat\nchat 4 \x7b\n    request \x7b\x7d\n\x7d\n\n#### Shop ####\n\n".toList ++
    "shop 5 \x7b\n\x7d\n".toList

open Validation in
/-- Three protocols stay in their groups and two do not. -/
theorem modules_mixedHeadersLayout :
    format mixedHeaders = .ok mixedHeadersLayout ∧ Balanced mixedHeaders ∧
      groupNames mixedHeaders =
        .ok [("Protocol".toList, ["login".toList]), ("Login".toList, ["logout".toList, "ping".toList]),
          ("Chat".toList, ["chat".toList, "shop".toList])] ∧
      (regrouped mixedHeaders).map (fun m => (m.1, m.2.map Entry.name)) =
        [("Protocol".toList, ["login".toList]),
          ("Login".toList, ["logout".toList, "ping".toList, "chat".toList]),
          ("Shop".toList, ["shop".toList])] ∧
      ∃ r r', validate mixedHeaders = .ok r ∧ validate mixedHeadersLayout = .ok r' ∧
        ∀ label e, Filed r.modules label e →
          ((∃ e', Filed r'.modules label e' ∧ e'.name = e.name ∧ e'.number = e.number) ↔
            ∃ e', Filed (regrouped mixedHeaders) label e' ∧ e'.name = e.name ∧
              e'.number = e.number) := by
  have hformat : format mixedHeaders = .ok mixedHeadersLayout := by decide +kernel
  have hbalanced : Balanced mixedHeaders := by decide +kernel
  exact ⟨hformat, hbalanced, by decide +kernel, by decide +kernel, modules_format hformat hbalanced⟩

/-- A comment that is a header. -/
def commentHeader : Text := "#### Login\nlogin 1 \x7b\n\x7d\n".toList

/-- An indented banner behind a header. -/
def indentedBanner : Text := "#### Login ####\n  #### Chat ####\nlogin 1 \x7b\n\x7d\n".toList

/-- An empty block inside another one, and a protocol that does not end in a closing brace alone. -/
def nestedEmptyBlock : Text :=
  "#### Login ####\nfoo 1 \x7b\n request \x7b\n response \x7b\n \x7d\n \x7d\x7d\n".toList ++
    "login 2 \x7b\n\x7d\n".toList

/-- **Formatting does not keep every protocol in its group.**  In each of three documents whose braces
balance, `login` is filed under `Login`, and no longer once the document is formatted. -/
theorem modules_not_kept :
    (Balanced commentHeader ∧
      groupNames commentHeader = .ok [("Login".toList, ["login".toList])] ∧
      format commentHeader >>= groupNames = .ok [("Protocol".toList, ["login".toList])]) ∧
    (Balanced indentedBanner ∧
      groupNames indentedBanner = .ok [("Login".toList, ["login".toList])] ∧
      format indentedBanner >>= groupNames =
        .ok [("Protocol".toList, []), ("Login".toList, []), ("Chat".toList, ["login".toList])]) ∧
    (Balanced nestedEmptyBlock ∧
      groupNames nestedEmptyBlock = .ok [("Login".toList, ["foo".toList, "login".toList])] ∧
      format nestedEmptyBlock >>= groupNames =
        .ok [("Protocol".toList, []), ("Login".toList, ["foo".toList])]) := by
  refine ⟨⟨?_, ?_, ?_⟩, ⟨?_, ?_, ?_⟩, ?_, ?_, ?_⟩ <;> decide +kernel

end Sproto
