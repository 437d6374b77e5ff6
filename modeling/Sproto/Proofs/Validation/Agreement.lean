import Sproto.Proofs.Banner
import Sproto.Proofs.Validation.Field
import Sproto.Validation.Scan

/-! # Passes of validation that agree

Two passes of validation *agree* when their states are the same up to line numbers and labels
(`State.Same`).  Lines that differ in layout only keep them so, and have the same findings up to their
places (`State.step_same`); a blank line changes nothing (`State.step_blank`). -/
namespace Sproto

open Text

/-- What counts about a finding: the code and the severity of its problem. -/
def Finding.verdict (f : Finding) : String × Severity := (f.problem.code, f.problem.severity)

/-- What counts about an entry: its name and its number. -/
def Entry.key (e : Entry) : Text × Nat := (e.name, e.number)

/-! ## Labels -/

/-- Only comments and banners begin with a hash sign. -/
theorem Token.Genuine.label?_eq_none {t : Token} (ht : t.Genuine) (hb : t.shape ≠ .banner)
    (hc : t.shape ≠ .comment) : Banner.label? t.text = none := by
  refine Banner.label?_eq_none_of_not_startsHeader (Bool.eq_false_iff.mpr fun h => ?_)
  have hhead : (trim t.text).head? = some '#' := by
    obtain ⟨r, hr⟩ := List.isPrefixOf_iff_prefix.mp h
    rw [← hr]
    rfl
  rw [ht.shape_eq] at hb hc
  by_cases hbanner : Banner.isBanner (trim t.text) = true
  · exact hb (Shape.Reads.read_eq (.banner hbanner))
  · exact hc (Shape.Reads.read_eq (.comment hhead (by simpa using hbanner)))

/-! ## Punctuation -/

namespace Punctuation

/-- Whether a character is a full-width mark. -/
def isMark (c : Char) : Bool := (replacement? c).isSome

/-- No mark is white space or a digit. -/
theorem isSpace_and_isDigit_of_isMark {c : Char} (h : isMark c = true) :
    isSpace c = false ∧ isDigit c = false := by
  have hall : ∀ p ∈ table, isSpace p.1 = false ∧ isDigit p.1 = false := by decide +kernel
  obtain ⟨r, hr⟩ := Option.isSome_iff_exists.mp h
  obtain ⟨l₁, l₂, htable, -⟩ := List.lookup_eq_some_iff.mp hr
  exact hall (c, r) (by rw [htable]; simp)

theorem countP_isMark_eq_zero {t : Text} (h : ∀ c ∈ t, isSpace c = true ∨ isDigit c = true) :
    t.countP isMark = 0 := by
  rw [List.countP_eq_zero]
  intro c hc hmark
  obtain ⟨hs, hd⟩ := isSpace_and_isDigit_of_isMark hmark
  rcases h c hc with h | h
  · rw [hs] at h; cases h
  · rw [hd] at h; cases h

theorem countP_isMark_solid (t : Text) : (solid t).countP isMark = t.countP isMark := by
  rw [solid, List.countP_filter]
  refine List.countP_congr fun c _ => ?_
  constructor
  · intro h
    simp only [Bool.and_eq_true] at h
    exact h.1
  · intro h
    simp [h, (isSpace_and_isDigit_of_isMark h).1]

/-- **Layout neither adds nor drops marks.** -/
theorem countP_isMark_congr {a b : Text} (h : SameButDigits (solid a) (solid b)) :
    a.countP isMark = b.countP isMark := by
  obtain ⟨u, d, e, v, hd, he, ha, hb⟩ := h
  rw [← countP_isMark_solid a, ← countP_isMark_solid b, ha, hb]
  simp only [List.countP_append, countP_isMark_eq_zero fun c hc => Or.inr (hd c hc),
    countP_isMark_eq_zero fun c hc => Or.inr (he c hc)]

theorem length_marksFrom (n : Nat) (t : Text) : (marksFrom n t).length = t.countP isMark := by
  induction t generalizing n with
  | nil => rfl
  | cons c t ih =>
    unfold marksFrom
    split
    · next r hr =>
      have hmark : isMark c = true := by rw [isMark, hr]; rfl
      rw [List.length_cons, ih, List.countP_cons_of_pos hmark]
    · next hr =>
      have hmark : ¬ isMark c = true := by rw [isMark, hr]; exact Bool.false_ne_true
      rw [ih, List.countP_cons_of_neg hmark]

theorem marks_eq_nil_iff {t : Text} : marks t = [] ↔ t.countP isMark = 0 := by
  rw [← length_marksFrom 0, List.length_eq_zero_iff, marks]

end Punctuation

namespace Validation

/-- The findings on punctuation all count alike, so only their number matters. -/
theorem map_verdict_punctuationFindings (t : Token) :
    (punctuationFindings t).map Finding.verdict =
      List.replicate (t.text.countP Punctuation.isMark) ("chinese-punctuation", .warning) := by
  rw [← Punctuation.length_marksFrom 0, punctuationFindings, List.map_map, Punctuation.marks]
  rw [← List.map_const']
  exact List.map_congr_left fun _ _ => rfl

theorem punctuationFindings_eq_nil {t : Token}
    (h : ∀ c ∈ t.text, isSpace c = true ∨ isDigit c = true) : punctuationFindings t = [] := by
  rw [punctuationFindings,
    Punctuation.marks_eq_nil_iff.mpr (Punctuation.countP_isMark_eq_zero h)]
  rfl

/-! ## States that agree -/

/-- Contexts that agree up to line numbers. -/
inductive Context.Same : Context → Context → Prop
  | top : Same .top .top
  | block {k : BlockKind} {fields fields' : List Entry}
      (h : fields.map Entry.key = fields'.map Entry.key) : Same (.block k fields) (.block k fields')

/-- States that agree up to line numbers and labels. -/
structure State.Same (s s' : State) : Prop where
  context : s.context.Same s'.context
  protocols : s.protocols.map Entry.key = s'.protocols.map Entry.key

/-- Passes that agree: their states do, and what they found counts alike. -/
structure Agrees (p p' : State × List Finding) : Prop where
  state : p.1.Same p'.1
  verdict : p.2.map Finding.verdict = p'.2.map Finding.verdict

theorem Agrees.cons {s s' : State} {t t' : Token} {ts ts' : List Token}
    (h : Agrees (s.step t) (s'.step t'))
    (hrest : Agrees ((s.step t).1.run ts) ((s'.step t').1.run ts')) :
    Agrees (s.run (t :: ts)) (s'.run (t' :: ts')) := by
  rw [State.run_cons, State.run_cons]
  refine ⟨hrest.state, ?_⟩
  simp only [List.map_append, h.verdict, hrest.verdict]

theorem Context.Same.eq_top_iff {c c' : Context} (h : c.Same c') : c' = .top ↔ c = .top := by
  cases h with
  | top => exact Iff.rfl
  | block h =>
    constructor
    · intro h; cases h
    · intro h; cases h

theorem State.Same.refl (s : State) : s.Same s := by
  refine ⟨?_, rfl⟩
  cases s.context with
  | top => exact .top
  | block k fields => exact .block rfl

theorem taken?_isSome_congr {es es' : List Entry} (h : es.map Entry.key = es'.map Entry.key)
    (n : Nat) : (taken? es n).isSome = (taken? es' n).isSome := by
  have hkey : ∀ us : List Entry, (taken? us n).isSome = (us.map Entry.key).any fun p => p.2 == n := by
    intro us
    rw [Bool.eq_iff_iff, taken?, List.find?_isSome, List.any_map, List.any_eq_true]
    rfl
  rw [hkey, hkey, h]

/-- A declaration finds the same wrong in states that agree. -/
theorem State.declare_same {s s' : State} (h : s.Same s') (t t' : Token) (name : Text)
    {number number' : Option Numeral}
    (hn : number.map Numeral.value = number'.map Numeral.value) :
    Agrees (s.declare t name number) (s'.declare t' name number') := by
  cases number with
  | none =>
    cases number' with
    | none => exact ⟨h, rfl⟩
    | some n' => cases hn
  | some n =>
    cases number' with
    | none => cases hn
    | some n' =>
      have hvalue : n.value = n'.value := Option.some.inj hn
      have htaken := taken?_isSome_congr h.protocols n.value
      simp only [State.declare, ← hvalue]
      cases hs : taken? s.protocols n.value with
      | some first =>
        rw [hs] at htaken
        obtain ⟨first', hs'⟩ := Option.isSome_iff_exists.mp htaken.symm
        rw [hs']
        refine ⟨h, ?_⟩
        simp only [List.map_append, List.map_cons, List.map_nil]
        split <;> rfl
      | none =>
        rw [hs] at htaken
        have hs' : taken? s'.protocols n.value = none := by simpa using htaken.symm
        rw [hs']
        refine ⟨⟨h.context, ?_⟩, ?_⟩
        · simp only [State.register, List.map_append, h.protocols]
          rfl
        · simp only
          split <;> rfl

theorem isSkipped_of_isPlain {sh : Shape} (h : sh.isPlain = true) (hne : sh ≠ .other) (l : Text) :
    isSkipped sh l = true := by
  cases sh with
  | block k closed rest => cases h
  | protocol name number rest => cases h
  | field name n body => cases h
  | other => exact absurd rfl hne
  | _ => rfl

/-- A line that holds a brace or a colon is no word. -/
theorem trim_ne_word {t : Text} {c : Char} (hc : c ∈ t) (hw : isWord c = false)
    (hs : isSpace c = false) (k : BlockKind) : trim t ≠ k.word := by
  intro h
  have hname := k.isName_word
  rw [← h] at hname
  exact not_isName_of_mem hc hw hs hname

theorem isSkipped_protocol {t : Token} (ht : t.Genuine) {name rest : Text} {number : Option Numeral}
    (h : t.shape = .protocol name number rest) : isSkipped t.shape t.text = false := by
  obtain ⟨-, -, m, -, htext⟩ := ht.protocol h
  have hmem : '{' ∈ t.text := by rw [htext]; simp
  simp only [h, isSkipped, trim_ne_word hmem isWord_openBrace isSpace_openBrace]
  rfl

theorem isSkipped_field {t : Token} (ht : t.Genuine) {name body : Text} {n : Numeral}
    (h : t.shape = .field name n body) : isSkipped t.shape t.text = false := by
  obtain ⟨-, -, a, g, b, -, -, -, -, htext⟩ := ht.field h
  have hmem : ':' ∈ t.text := by rw [htext]; simp
  simp only [h, isSkipped, trim_ne_word hmem isWord_colon isSpace_colon]
  rfl

/-- Alike lines are skipped together. -/
theorem isSkipped_congr {t t' : Token} (ht : t.Genuine) (ht' : t'.Genuine) (h : t.Alike t') :
    isSkipped t.shape t.text = isSkipped t'.shape t'.text := by
  have htext := h.text
  have hshape := h.shape
  generalize hsh : t.shape = sh at hshape htext
  generalize hsh' : t'.shape = sh' at hshape
  cases hshape with
  | plain hp =>
    by_cases hother : sh = .other
    · subst hother
      simp only [isSkipped, htext rfl (fun h => by cases h)]
    · rw [isSkipped_of_isPlain hp hother, isSkipped_of_isPlain hp hother]
  | block h => rfl
  | protocol hn hrest => rw [← hsh, ← hsh', isSkipped_protocol ht hsh, isSkipped_protocol ht' hsh']
  | field hn hsplit => rw [← hsh, ← hsh', isSkipped_field ht hsh, isSkipped_field ht' hsh']

/-- The verdict on a line that is no field. -/
theorem verdict_faultOf (t : Token) :
    (checkField.faultOf t).verdict = ((fieldProblem t.text).2.code, (fieldProblem t.text).2.severity) :=
  rfl

/-- **Alike lines are checked alike inside a block.** -/
theorem checkField_same (k : BlockKind) {fields fields' : List Entry}
    (hf : fields.map Entry.key = fields'.map Entry.key) {t t' : Token} (ht : t.Genuine)
    (ht' : t'.Genuine) (h : t.Alike t') :
    (checkField k fields t).1.map Entry.key = (checkField k fields' t').1.map Entry.key ∧
      (checkField k fields t).2.map Finding.verdict =
        (checkField k fields' t').2.map Finding.verdict := by
  have hskip := isSkipped_congr ht ht' h
  unfold checkField
  rw [← hskip]
  cases hs : isSkipped t.shape t.text with
  | true => exact ⟨hf, rfl⟩
  | false =>
    -- a line that is not skipped is a field, a declaration, or none of the shapes
    have hblock : ∀ k closed rest, t.shape ≠ .block k closed rest := by
      intro k closed rest hsh
      rw [hsh] at hs
      cases hs
    have hother : t.shape.isPlain = true → t.shape = .other := by
      intro hp
      by_cases hne : t.shape = .other
      · exact hne
      · rw [isSkipped_of_isPlain hp hne] at hs
        cases hs
    have hproblem := Token.fieldProblem_congr ht ht' h hother hblock
    have hfault : (checkField.faultOf t).verdict = (checkField.faultOf t').verdict := by
      rw [verdict_faultOf, verdict_faultOf, hproblem]
    have hshape := h.shape
    generalize hsh : t.shape = sh at hshape
    generalize hsh' : t'.shape = sh' at hshape
    cases hshape with
    | plain hp =>
      have hsame : sh = .other := by rw [← hsh]; exact hother (by rw [hsh]; exact hp)
      subst hsame
      simp [hf, hfault]
    | block h => exact absurd hsh (hblock _ _ _)
    | protocol hn hrest => simp [hf, hfault]
    | @field name body body' n n' hn hsplit =>
      have htype := Token.startsType_congr ht ht' hsh hsh' hsplit
      have htaken := taken?_isSome_congr hf n.value
      simp only [Bool.false_eq_true, if_false, ← htype, ← hn]
      cases startsType (fieldContent body) with
      | false => exact ⟨hf, by simp [hfault]⟩
      | true =>
        cases hfirst : taken? fields n.value with
        | some first =>
          rw [hfirst] at htaken
          obtain ⟨first', hfirst'⟩ := Option.isSome_iff_exists.mp htaken.symm
          rw [hfirst']
          exact ⟨hf, rfl⟩
        | none =>
          rw [hfirst] at htaken
          have hfirst' : taken? fields' n.value = none := by simpa using htaken.symm
          rw [hfirst']
          refine ⟨?_, rfl⟩
          simp only [if_true, List.map_append, hf]
          rfl

/-! ## One line -/

theorem punctuation_same {t t' : Token} (h : t.Alike t') :
    (punctuationFindings t).map Finding.verdict = (punctuationFindings t').map Finding.verdict := by
  rw [map_verdict_punctuationFindings, map_verdict_punctuationFindings,
    Punctuation.countP_isMark_congr h.solid]

/-- **Alike lines keep the passes together and have the same findings**, if both or neither of them has
a label. -/
theorem State.step_same {s s' : State} (h : s.Same s') {t t' : Token} (ht : t.Genuine)
    (ht' : t'.Genuine) (ha : t.Alike t')
    (hl : (Banner.label? t.text).isSome = (Banner.label? t'.text).isSome) :
    Agrees (s.step t) (s'.step t') := by
  have hpunct := punctuation_same ha
  obtain ⟨context, label, protocols, modules⟩ := s
  obtain ⟨context', label', protocols', modules'⟩ := s'
  obtain ⟨hcontext, hprotocols⟩ := h
  simp only at hcontext hprotocols
  cases hcontext with
  | @block k fields fields' hf =>
    -- inside a block only a closing brace alone ends it
    have hclose := ha.shape.eq_iff_of_isPlain (p := .closeBrace) rfl
    simp only [State.step]
    by_cases hc : t.shape = .closeBrace
    · rw [if_pos hc, if_pos (hclose.mpr hc)]
      exact ⟨⟨.top, hprotocols⟩, rfl⟩
    · rw [if_neg hc, if_neg fun hc' => hc (hclose.mp hc')]
      obtain ⟨hfields, hfound⟩ := checkField_same k hf ht ht' ha
      refine ⟨⟨.block hfields, hprotocols⟩, ?_⟩
      simp only [List.map_append, hpunct, hfound]
  | top =>
    simp only [State.step]
    cases hlabel : Banner.label? t.text with
    | some w =>
      rw [hlabel] at hl
      obtain ⟨w', hlabel'⟩ := Option.isSome_iff_exists.mp hl.symm
      rw [hlabel']
      exact ⟨⟨.top, hprotocols⟩, rfl⟩
    | none =>
      rw [hlabel] at hl
      have hlabel' : Banner.label? t'.text = none := by simpa using hl.symm
      rw [hlabel']
      have hshape := ha.shape
      generalize hsh : t.shape = sh at hshape
      generalize hsh' : t'.shape = sh' at hshape
      cases hshape with
      | plain hp =>
        cases sh with
        | block k closed rest => cases hp
        | protocol name number rest => cases hp
        | _ => exact ⟨⟨.top, hprotocols⟩, hpunct⟩
      | @block k closed rest rest' hrest =>
        cases closed with
        | true => exact ⟨⟨.top, hprotocols⟩, hpunct⟩
        | false => exact ⟨⟨.block rfl, hprotocols⟩, hpunct⟩
      | @protocol name rest rest' number number' hn hrest =>
        have hsame : State.Same ⟨.top, label, protocols, modules⟩
            ⟨.top, label', protocols', modules'⟩ := ⟨.top, hprotocols⟩
        obtain ⟨hnext, hfound⟩ := State.declare_same hsame t t' name hn
        refine ⟨hnext, ?_⟩
        simp only [List.map_append, hpunct, hfound]
      | field hn hsplit => exact ⟨⟨.top, hprotocols⟩, hpunct⟩

/-- A blank line changes nothing. -/
theorem State.step_blank (s : State) {t : Token} (ht : t.Genuine) (hb : t.shape = .blank) :
    s.step t = (s, []) := by
  have hblank : isBlank t.text = true := by
    have hr := ht.reads
    rw [hb] at hr
    cases hr with
    | blank h => exact trim_eq_nil_iff.mp h
  have hpunct : punctuationFindings t = [] :=
    punctuationFindings_eq_nil fun c hc => Or.inl (isBlank_iff.mp hblank c hc)
  have hlabel : Banner.label? t.text = none := by
    refine Banner.label?_eq_none_of_not_startsHeader ?_
    rw [Banner.startsHeader, trim_eq_nil_iff.mpr hblank]
    rfl
  obtain ⟨context, label, protocols, modules⟩ := s
  cases context with
  | top => simp only [State.step, hlabel, hb, hpunct]
  | block k fields =>
    simp [State.step, hb, hpunct, checkField, isSkipped]

end Validation
end Sproto
