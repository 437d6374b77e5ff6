import Sproto.Proofs.Layout.Document
import Sproto.Proofs.Validation.Agreement

/-! # Formatting preserves the verdict of validation

A document and its formatted form are found wanting in the same things, in the same order
(`validate_format`).  Validation runs side by side over both, and the passes agree throughout: once
while blank lines are dropped (`State.run_condensed`), and once while lines are rewritten
(`State.run_rewritten`).

Three things could tell the passes apart, and an `Orderly` document has none of them: text behind the
brace of a block start, a block start inside another block, and a line of hash signs that layout moves
to or from the first column. -/
namespace Sproto

open Text

/-! ## Orderly documents -/

namespace Token

/-- Whether a line starts a block. -/
def isBlockStart (t : Token) : Bool :=
  match t.shape with
  | .block _ _ _ => true
  | _ => false

/-- Whether a line is written so that layout keeps all that validation reads in it: nothing stands
behind the brace of a block start, a comment does not begin like a header, and a banner stands in the
first column. -/
def isOrderly (t : Token) : Bool :=
  match t.shape with
  | .block _ _ rest => isBlank rest
  | .comment => !Banner.startsHeader t.text
  | .banner => t.text.head? == some '#'
  | _ => true

theorem Alike.isBlockStart_eq {t t' : Token} (h : t.Alike t') : t'.isBlockStart = t.isBlockStart := by
  have hshape := h.shape
  unfold isBlockStart
  generalize t.shape = sh at hshape
  generalize t'.shape = sh' at hshape
  cases hshape <;> rfl

/-- A banner in the first column has no white space at either end. -/
theorem Proper.trim_banner {t : Token} (ht : t.Proper) (h : t.shape = .banner)
    (ho : t.isOrderly = true) : trim t.text = t.text := by
  have hhead : t.text.head? = some '#' := by simpa [isOrderly, h] using ho
  obtain ⟨r, hr⟩ := List.head?_eq_some_iff.mp hhead
  rw [trim, hr, trimLeft_cons_of_not_isSpace isSpace_hash, ← hr, ht.trimmed]

end Token

/-- A comment as it is written has white space behind its first hash sign, so it begins no header. -/
theorem Banner.startsHeader_commentLine {line rest : Text} (h : trim line = '#' :: rest) :
    startsHeader (Style.commentLine line) = false := by
  rw [startsHeader, Style.trim_commentLine h]
  cases hr : trimRight (' ' :: trimLeft rest) with
  | nil => rfl
  | cons c u =>
    obtain ⟨b, -, hb⟩ := exists_trimRight_append (' ' :: trimLeft rest)
    rw [hr] at hb
    obtain ⟨rfl, -⟩ := List.cons.inj hb
    rfl

/-- **Layout keeps the labels of orderly lines.** -/
theorem Style.label?_lineOf (s : Style) (depth : Option Int) {t : Token} (ht : t.Proper)
    (ho : t.isOrderly = true) {t' : Token} (ht' : t'.Genuine) (ha : t.Alike t')
    (h : t'.text = s.lineOf depth t) :
    (Banner.label? t.text).isSome = (Banner.label? t'.text).isSome := by
  by_cases hb : t.shape = .banner
  · rw [h, lineOf_banner s depth hb, ht.trim_banner hb ho]
  by_cases hc : t.shape = .comment
  · have hstart : Banner.startsHeader t.text = false := by
      simpa [Token.isOrderly, hc] using ho
    have hstart' : Banner.startsHeader t'.text = false := by
      cases depth with
      | none =>
        obtain ⟨rest, hrest⟩ := ht.trim_comment hc
        rw [h]
        simpa [lineOf, hc, outsideLine] using Banner.startsHeader_commentLine hrest
      | some d =>
        rw [h, lineOf_plain s d (by rw [hc]; rfl) hb, Row.line, Banner.startsHeader,
          trim_append_of_isBlank_left (s.isBlank_margin _), trim_trim]
        exact hstart
    rw [Banner.label?_eq_none_of_not_startsHeader hstart,
      Banner.label?_eq_none_of_not_startsHeader hstart']
  · have hb' := fun h' => hb ((ha.shape.eq_iff_of_isPlain rfl).mp h')
    have hc' := fun h' => hc ((ha.shape.eq_iff_of_isPlain rfl).mp h')
    rw [ht.label?_eq_none hb hc, ht'.label?_eq_none hb' hc']

namespace Validation

namespace State

/-- Whether the lines of a pass are orderly and none of them starts a block inside another. -/
def staysOrderly : State → List Token → Bool
  | _, [] => true
  | s, t :: ts =>
      t.isOrderly && (!t.isBlockStart || s.context = .top) && staysOrderly (s.step t).1 ts

theorem staysOrderly_cons {s : State} {t : Token} {ts : List Token}
    (h : s.staysOrderly (t :: ts) = true) :
    t.isOrderly = true ∧ (t.isBlockStart = true → s.context = .top) ∧
      (s.step t).1.staysOrderly ts = true := by
  simp only [staysOrderly, Bool.and_eq_true, Bool.or_eq_true, Bool.not_eq_true',
    decide_eq_true_eq] at h
  obtain ⟨⟨ho, hb⟩, hrest⟩ := h
  refine ⟨ho, fun hstart => ?_, hrest⟩
  rcases hb with hb | hb
  · rw [hstart] at hb
    cases hb
  · exact hb

/-! ## Dropping blank lines -/

/-- A line without the white space at its end is orderly if the line is. -/
theorem isOrderly_of_trimRight {t t' : Token} (ht : t.Genuine) (ht' : t'.Genuine)
    (h : t'.text = trimRight t.text) (ho : t.isOrderly = true) : t'.isOrderly = true := by
  have hshape : t'.shape = t.shape.trimRest := by
    rw [ht'.shape_eq, h, Shape.read_trimRight, ht.shape_eq]
  unfold Token.isOrderly at ho ⊢
  rw [hshape, h]
  cases hs : t.shape with
  | block k closed rest =>
    rw [hs] at ho
    simp only [Shape.trimRest] at ho ⊢
    rw [trimRight_eq_nil_iff.mpr ho]
    rfl
  | comment =>
    rw [hs] at ho
    simpa [Shape.trimRest, Banner.startsHeader] using ho
  | banner =>
    rw [hs] at ho
    obtain ⟨r, hr⟩ := List.head?_eq_some_iff.mp (beq_iff_eq.mp ho)
    simp only [Shape.trimRest]
    rw [hr, trimRight_cons_of_not_isSpace isSpace_hash]
    rfl
  | _ => rfl

/-- **Validation does not see blank lines, nor white space at the ends of lines.** -/
theorem run_condensed {ts ts' : List Token} (h : Condensed ts ts') {s s' : State}
    (hs : s.Same s') :
    Agrees (s.run ts) (s'.run ts') ∧
      (s.staysOrderly ts = true → s'.staysOrderly ts' = true) := by
  induction h generalizing s s' with
  | nil => exact ⟨⟨hs, rfl⟩, id⟩
  | @blank t ts ts' ht hb h ih =>
    obtain ⟨hrun, hstays⟩ := ih hs
    constructor
    · rw [run_cons, s.step_blank ht hb]
      exact hrun
    · intro ho
      obtain ⟨-, -, hrest⟩ := staysOrderly_cons ho
      rw [s.step_blank ht hb] at hrest
      exact hstays hrest
  | @keep t t' ts ts' ht ht' htext h ih =>
    have halike := ht.alike_of_trimRight ht'.toGenuine htext
    have hstep : Agrees (s.step t) (s'.step t') :=
      step_same hs ht ht'.toGenuine halike (by rw [htext, Banner.label?_trimRight])
    obtain ⟨hrun, hstays⟩ := ih hstep.state
    refine ⟨hstep.cons hrun, fun ho => ?_⟩
    obtain ⟨hline, htop, hrest⟩ := staysOrderly_cons ho
    simp only [staysOrderly, Bool.and_eq_true, Bool.or_eq_true, Bool.not_eq_true',
      decide_eq_true_eq, hs.context.eq_top_iff, halike.isBlockStart_eq]
    refine ⟨⟨isOrderly_of_trimRight ht ht'.toGenuine htext hline, ?_⟩, hstays hrest⟩
    cases hb : t.isBlockStart with
    | false => exact Or.inl rfl
    | true => exact Or.inr (htop hb)

/-! ## Rewriting lines -/

/-- A block start with nothing behind its braces has no findings on its punctuation. -/
theorem punctuationFindings_blockStart {t : Token} (ht : t.Genuine) {k : BlockKind} {closed : Bool}
    {rest : Text} (h : t.shape = .block k closed rest) (hrest : isBlank rest = true) :
    punctuationFindings t = [] := by
  have hcount : t.text.countP Punctuation.isMark = 0 := by
    rw [← Punctuation.countP_isMark_solid]
    cases closed with
    | true =>
      rw [Token.solid_closedBlock ht h, solid_of_isBlank hrest]
      cases k <;> decide
    | false =>
      rw [Token.solid_block ht h, solid_of_isBlank hrest]
      cases k <;> decide
  have hverdict := map_verdict_punctuationFindings t
  rw [hcount] at hverdict
  exact List.map_eq_nil_iff.mp hverdict

/-- The pass over a block start outside any block, with nothing behind its braces. -/
theorem step_blockStart {s : State} (hs : s.context = .top) {t : Token} (ht : t.Genuine)
    {k : BlockKind} {closed : Bool} {rest : Text} (h : t.shape = .block k closed rest)
    (hrest : isBlank rest = true) :
    s.step t = (if closed then s else { s with context := .block k [] }, []) := by
  have hlabel : Banner.label? t.text = none :=
    ht.label?_eq_none (by rw [h]; exact fun h => by cases h) (by rw [h]; exact fun h => by cases h)
  simp only [step, hs, hlabel, h, punctuationFindings_blockStart ht h hrest]
  cases closed <;> rfl

/-- An empty block over two lines takes the pass back to where it was. -/
theorem step_emptyPair {s : State} (hs : s.context = .top) {t u : Token} (ht : t.Genuine)
    {k : BlockKind} {rest : Text} (h : t.shape = .block k false rest) (hrest : isBlank rest = true)
    (hu : u.shape = .closeBrace) : (s.step t).2 = [] ∧ (s.step t).1.step u = (s, []) := by
  rw [step_blockStart hs ht h hrest]
  refine ⟨rfl, ?_⟩
  obtain ⟨context, label, protocols, modules⟩ := s
  simp only at hs
  subst hs
  simp [step, hu]

/-- **Validation finds the same in lines and in what is written for them**, if they are orderly. -/
theorem run_rewritten {st : Style} {depth : Option Int} {ts ts' : List Token}
    (h : Rewritten st depth ts ts') {s s' : State} (hs : s.Same s')
    (ho : s.staysOrderly ts = true) : Agrees (s.run ts) (s'.run ts') := by
  induction h generalizing s s' with
  | done => exact ⟨hs, rfl⟩
  | outside ht hw ht' h hrest ih =>
    obtain ⟨hline, -, htail⟩ := staysOrderly_cons ho
    have hproper := hw.proper ht ht'
    have hstep := step_same hs ht.toGenuine hproper.toGenuine (hw.alike ht')
      (st.label?_lineOf none ht hline hproper.toGenuine (hw.alike ht') h)
    exact hstep.cons (ih hstep.state htail)
  | @inside d t t' ts ts' hd ht hw ht' hcut hempty h hrest ih =>
    obtain ⟨hline, -, htail⟩ := staysOrderly_cons ho
    have hproper := hw.proper ht ht'
    have hstep := step_same hs ht.toGenuine hproper.toGenuine (hw.alike ht')
      (st.label?_lineOf (some d) ht hline hproper.toGenuine (hw.alike ht') h)
    exact hstep.cons (ih hstep.state htail)
  | @closed d t t' ts ts' k rest hd ht hshape ht' h hrest ih =>
    obtain ⟨hline, htop, htail⟩ := staysOrderly_cons ho
    have hblank : isBlank rest = true := by simpa [Token.isOrderly, hshape] using hline
    have hcontext : s.context = .top := htop (by simp [Token.isBlockStart, hshape])
    have hproper := Token.proper_of_emptyBlock ht' h
    have hstep : Agrees (s.step t) (s'.step t') := by
      rw [step_blockStart hcontext ht.toGenuine hshape hblank,
        step_blockStart (hs.context.eq_top_iff.mpr hcontext) hproper.toGenuine
          (Token.shape_of_emptyBlock ht' h) rfl]
      exact ⟨hs, rfl⟩
    exact hstep.cons (ih hstep.state htail)
  | @pair d t u t' ts ts' k rest hd ht hu hshape hclose ht' h hrest ih =>
    obtain ⟨hline, htop, htail⟩ := staysOrderly_cons ho
    have hblank : isBlank rest = true := by simpa [Token.isOrderly, hshape] using hline
    have hcontext : s.context = .top := htop (by simp [Token.isBlockStart, hshape])
    have hproper := Token.proper_of_emptyBlock ht' h
    -- two lines on one side, one on the other, and neither pass moves
    obtain ⟨hstart, hback⟩ := step_emptyPair hcontext ht.toGenuine hshape hblank hclose
    have hstep' := step_blockStart (hs.context.eq_top_iff.mpr hcontext) hproper.toGenuine
      (Token.shape_of_emptyBlock ht' h) rfl
    obtain ⟨-, -, htail⟩ := staysOrderly_cons htail
    rw [hback] at htail
    rw [run_cons s, run_cons (s.step t).1, hback, hstart, run_cons s', hstep']
    exact ih hs htail

/-- The banner in front has no findings, and leaves the pass as it is but for the label. -/
theorem step_front {ts : List Token} {f : Token} (hf : IsFront ts f) :
    State.initial.step f =
      (State.initial.enterModule ['P', 'r', 'o', 't', 'o', 'c', 'o', 'l'], []) := by
  simp only [step, initial, hf.label]

theorem run_formatted {ts ts' : List Token} (h : Formatted ts ts')
    (ho : State.initial.staysOrderly ts = true) :
    Agrees (State.initial.run ts) (State.initial.run ts') := by
  cases h with
  | ranged h hr => exact run_rewritten hr (Same.refl _) ho
  | front h hf hr =>
    rw [run_cons _ _, step_front hf]
    exact run_rewritten hr ⟨.top, rfl⟩ ho

end State
end Validation

/-- Every line of a document is orderly, and no block of it starts inside another. -/
def Orderly (source : Text) : Prop :=
  Validation.State.initial.staysOrderly (Token.ofLines (lines source)) = true

instance (source : Text) : Decidable (Orderly source) := inferInstanceAs (Decidable (_ = true))

/-! ## The verdict -/

theorem validate_eq_ok {source : Text} (h : ∀ t ∈ layoutTokens source, t.fault? = none) :
    validate source = .ok (Report.ofTokens (Token.ofLines (lines source))) := by
  rw [validate, ofSource?_of_layoutTokens h]
  rfl

open Validation in
/-- **Formatting preserves the verdict of validation**: a document and its formatted form have the same
issues, up to places and messages, in the same order, and declare the same protocols in the same
order. -/
theorem validate_format {source out : Text} (h : format source = .ok out) (hb : Balanced source)
    (ho : Orderly source) :
    ∃ r r', validate source = .ok r ∧ validate out = .ok r' ∧
      r'.issues.map (fun i => (i.code, i.severity)) = r.issues.map (fun i => (i.code, i.severity)) ∧
      r'.protocols.map (fun e => (e.number, e.name)) =
        r.protocols.map fun e => (e.number, e.name) := by
  have hformatted := formatted_of_format h hb
  obtain ⟨-, hfault, -⟩ := format_eq_ok h
  -- from the lines of the document to the lines that layout reads, and to those that it writes
  obtain ⟨hsource, hstays⟩ :=
    State.run_condensed (condensed_layoutTokens source) (State.Same.refl .initial)
  have hlayout := State.run_formatted hformatted (hstays ho)
  obtain ⟨hout, -⟩ := State.run_condensed (condensed_layoutTokens out) (State.Same.refl .initial)
  refine ⟨_, _, validate_eq_ok hfault, validate_eq_ok (hformatted.fault_eq_none hfault), ?_, ?_⟩
  · have hverdict := (hsource.verdict.trans hlayout.verdict).trans hout.verdict.symm
    have hissue : ∀ fs : List Finding, (fs.map Finding.issue).map (fun i => (i.code, i.severity)) =
        (fs.map Finding.verdict).map fun p => (some p.1, p.2) := by
      intro fs
      rw [List.map_map, List.map_map]
      rfl
    rw [Report.issues, Report.issues, hissue, hissue]
    exact congrArg _ hverdict.symm
  · have hprotocols :=
      (hsource.state.protocols.trans hlayout.state.protocols).trans hout.state.protocols.symm
    have hkey : ∀ es : List Entry, es.map (fun e => (e.number, e.name)) =
        (es.map Entry.key).map fun p => (p.2, p.1) := by
      intro es
      rw [List.map_map]
      rfl
    rw [hkey, hkey]
    exact congrArg _ hprotocols.symm

/-- A document with an empty block over two lines, a field without a type, a full-width colon and a
number used twice. -/
def flawedSource : Text :=
  "foo 1 \x7b\n request \x7b\n \x7d\n  response \x7b\n a 0 : int\n b 0: str#x\n".toList ++
    " c 1 ：\n d 2:\n \x7d\n\x7d\nbar 1 \x7b\n\x7d".toList

/-- The same document, laid out. -/
def flawedLayout : Text :=
  ({} : Style).banner "Protocol Module 0-99".toList ++
    "\n\nfoo 1 \x7b\n    request \x7b\x7d\n    response \x7b\n        a 0: int\n".toList ++
    "        b 0: str".toList ++
    List.replicate 45 ' ' ++
    "#x\n        c 1 ：\n        d 2:\n    \x7d\n\x7d\n\nbar 1 \x7b\n\x7d\n".toList

theorem validate_flawedLayout :
    format flawedSource = .ok flawedLayout ∧ Balanced flawedSource ∧ Orderly flawedSource ∧
      ∃ r r', validate flawedSource = .ok r ∧ validate flawedLayout = .ok r' ∧
        r'.issues.map (fun i => (i.code, i.severity)) =
          r.issues.map (fun i => (i.code, i.severity)) ∧
        r'.protocols.map (fun e => (e.number, e.name)) =
          r.protocols.map fun e => (e.number, e.name) := by
  have hformat : format flawedSource = .ok flawedLayout := by decide +kernel
  have hbalanced : Balanced flawedSource := by decide +kernel
  have horderly : Orderly flawedSource := by decide +kernel
  exact ⟨hformat, hbalanced, horderly, validate_format hformat hbalanced horderly⟩

end Sproto
