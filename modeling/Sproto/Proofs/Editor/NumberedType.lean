import Sproto.Proofs.Editor.Edit
import Sproto.Proofs.Validation.Repetition

/-! # The fix for the number of a type

A type is declared without a number.  The fix takes the number out, and what is left declares the same
type (`read_unnumbered`).

The declaration no longer takes its number, so a later one may take it instead of repeating it.  A state
*eases* another one when it stands in the same context and every number that is free in the other one is
free in it (`Eases`).  From an easier state no line finds more, and the next states are again such
(`Eases.step`), so a whole pass finds no more (`Eases.run`).  `numberedType_mended` puts this together
for the diagnostics of a document. -/
namespace Sproto

open Text Validation

namespace Validation

/-! ## Easier states -/

/-- One state stands where another one does, and every number that is free in the other one is free in
it. -/
structure Eases (s' s : State) : Prop where
  context : s'.context = s.context
  free : ∀ n, taken? s.protocols n = none → taken? s'.protocols n = none

theorem Eases.refl (s : State) : Eases s s := ⟨rfl, fun _ h => h⟩

theorem free_register {s : State} {e : Entry} {n : Nat} :
    taken? (s.register e).protocols n = none ↔ taken? s.protocols n = none ∧ e.number ≠ n :=
  taken?_concat_eq_none_iff

/-- To take a number makes no state easier than it was. -/
theorem eases_register (s : State) (e : Entry) : Eases s (s.register e) :=
  ⟨rfl, fun _ h => (free_register.mp h).1⟩

section

variable {s s' : State}

/-- **A declaration is no harder on an easier state.** -/
theorem Eases.declare (h : Eases s' s) (t : Token) (name : Text) (number : Option Numeral) :
    Eases (s'.declare t name number).1 (s.declare t name number).1 ∧
      ((s'.declare t name number).2.map Finding.place).Sublist
        ((s.declare t name number).2.map Finding.place) := by
  rcases number with _ | n
  · exact ⟨h, .refl _⟩
  · simp only [State.declare]
    rcases hs : taken? s.protocols n.value with _ | first
    · -- a number that is free in both is taken in both
      rw [h.free _ hs]
      refine ⟨⟨h.context, fun m hm => ?_⟩, .refl _⟩
      obtain ⟨hfree, hne⟩ := free_register.mp hm
      exact free_register.mpr ⟨h.free m hfree, hne⟩
    · rcases hs' : taken? s'.protocols n.value with _ | first'
      · -- the number is taken where it was repeated before
        refine ⟨⟨h.context, fun m hm => free_register.mpr ⟨h.free m hm, ?_⟩⟩, ?_⟩
        · rintro rfl
          rw [hs] at hm
          cases hm
        · rw [List.map_append]
          exact List.sublist_append_left _ _
      · refine ⟨h, ?_⟩
        simp only [List.map_append]
        exact .refl _

/-- **No line finds more from an easier state**, and it leaves an easier one. -/
theorem Eases.step (h : Eases s' s) (t : Token) :
    Eases (s'.step t).1 (s.step t).1 ∧
      ((s'.step t).2.map Finding.place).Sublist ((s.step t).2.map Finding.place) := by
  unfold State.step
  rw [h.context]
  rcases s.context with _ | ⟨k, fields⟩
  · rcases Banner.label? t.text with _ | label
    · rcases t.shape with _ | _ | _ | _ | _ | ⟨k, closed, rest⟩ | ⟨name, number, rest⟩ | _ | _
      case protocol =>
        obtain ⟨heases, hfound⟩ := h.declare t name number
        refine ⟨heases, ?_⟩
        simp only [List.map_append]
        exact hfound.append_left _
      case block =>
        rcases closed with _ | _
        · exact ⟨⟨rfl, h.free⟩, .refl _⟩
        · exact ⟨h, .refl _⟩
      all_goals exact ⟨h, .refl _⟩
    · exact ⟨⟨h.context, h.free⟩, .refl _⟩
  · by_cases hclose : t.shape = .closeBrace
    · simp only [if_pos hclose]
      exact ⟨⟨rfl, h.free⟩, .refl _⟩
    · simp only [if_neg hclose]
      exact ⟨⟨rfl, h.free⟩, .refl _⟩

/-- **No pass finds more from an easier state.** -/
theorem Eases.run (h : Eases s' s) (ts : List Token) :
    ((s'.run ts).2.map Finding.place).Sublist ((s.run ts).2.map Finding.place) := by
  induction ts generalizing s s' with
  | nil => exact .refl _
  | cons t ts ih =>
    obtain ⟨heases, hfound⟩ := h.step t
    rw [State.run_cons, State.run_cons]
    simp only [List.map_append]
    exact hfound.append (ih heases)

end

/-! ## The line -/

/-- **Without its number, a type is declared under the same name.** -/
theorem read_unnumbered {name : Text} (hname : Shape.IsProtocolName name)
    (hstop : name.head? = some '.') (rest : Text) :
    Shape.read (name ++ ([' ', '{'] ++ rest)) = .protocol name none rest := by
  have hblock : Shape.block? (name ++ ([' ', '{'] ++ rest)) = none := by
    rcases name with _ | ⟨c, name⟩
    · cases hstop
    · cases hstop
      rw [List.cons_append, Shape.block?, trimLeft_cons_of_not_isSpace isSpace_stop]
      rfl
  refine Shape.Reads.read_eq (.protocol hblock ?_)
  exact Shape.protocol?_eq_some_iff.mpr ⟨hname, [' '], rfl, rfl⟩

/-- There is no mark between the name of a type and its brace. -/
theorem countP_isMark_numberPart {m : Text} {n : Numeral} (hm : Shape.NumberPart (some n) m) :
    m.countP Punctuation.isMark = 0 := by
  obtain ⟨hn, g, b, -, hg, hb, rfl⟩ := hm
  refine Punctuation.countP_isMark_eq_zero fun c hc => ?_
  simp only [List.mem_append] at hc
  rcases hc with hc | hc | hc
  · exact Or.inl (isBlank_iff.mp hg c hc)
  · exact Or.inr (hn.2 c hc)
  · exact Or.inl (isBlank_iff.mp hb c hc)

/-- What the fix takes out holds no mark. -/
theorem countP_isMark_unnumbered {name m rest : Text} {n : Numeral}
    (hm : Shape.NumberPart (some n) m) :
    (name ++ ([' ', '{'] ++ rest)).countP Punctuation.isMark =
      (name ++ (m ++ ['{'] ++ rest)).countP Punctuation.isMark := by
  have hzero := countP_isMark_numberPart hm
  have hbrace : [' ', '{'].countP Punctuation.isMark = 0 := by decide
  have hbrace' : ['{'].countP Punctuation.isMark = 0 := by decide
  simp only [List.countP_append, hzero, hbrace, hbrace']

/-- **The declaration of a type is easier without its number**: it takes none, and of what was found
the remark on the number is missing. -/
theorem step_unnumbered {s : State} (hs : s.context = .top) (i : Nat) {name m rest : Text} {n : Numeral}
    (hname : Shape.IsProtocolName name) (hstop : name.head? = some '.')
    (hm : Shape.NumberPart (some n) m)
    (hread : Shape.read (name ++ (m ++ ['{'] ++ rest)) = .protocol name (some n) rest) :
    s.step (Token.read i (name ++ ([' ', '{'] ++ rest))) =
        (s, punctuationFindings (Token.read i (name ++ ([' ', '{'] ++ rest)))) ∧
      Eases s (s.step (Token.read i (name ++ (m ++ ['{'] ++ rest)))).1 ∧
      ((punctuationFindings (Token.read i (name ++ ([' ', '{'] ++ rest)))).map Finding.place ++
          [((i : Int), some "dotted-protocol-number")]).Sublist
        ((s.step (Token.read i (name ++ (m ++ ['{'] ++ rest)))).2.map Finding.place) := by
  have hlabel : ∀ t : Text, Banner.label? (name ++ t) = none := by
    intro t
    refine Banner.label?_eq_none_of_head? ?_
    rw [List.head?_append, hstop, Option.some_or]
    decide
  have hpunct : (punctuationFindings (Token.read i (name ++ ([' ', '{'] ++ rest)))).map Finding.place =
      (punctuationFindings (Token.read i (name ++ (m ++ ['{'] ++ rest)))).map Finding.place := by
    rw [map_place_punctuationFindings, map_place_punctuationFindings, Token.read_text, Token.read_text,
      countP_isMark_unnumbered hm]
    rfl
  refine ⟨?_, ?_⟩
  · simp only [State.step, hs, Token.read_text, hlabel, Token.read_shape,
      read_unnumbered hname hstop, State.declare, List.append_nil]
  · rw [hpunct]
    simp only [State.step, hs, Token.read_text, hlabel, Token.read_shape, hread,
      State.declare, if_pos hstop]
    rcases taken? s.protocols n.value with _ | first
    · refine ⟨eases_register s _, ?_⟩
      simp only [List.map_append]
      exact .refl _
    · refine ⟨.refl s, ?_⟩
      simp only [List.map_append, ← List.append_assoc]
      exact List.sublist_append_left _ _

/-! ## The findings that ask for the fix -/

/-- **A number is found fault with on the declarations of types outside any block only.** -/
theorem Moves.numberedType {s s' : State} {t : Token} {fs : List Finding} (h : Moves s t s' fs)
    {f : Finding} (hf : f ∈ fs) (hcode : f.problem.code = "dotted-protocol-number") :
    ∃ name n rest, s.context = .top ∧ t.shape = .protocol name (some n) rest ∧
      name.head? = some '.' ∧ f.start = name.length ∧ f.stop = t.matchEnd := by
  rcases h.finding_cases hf with ⟨mark, replacement, hproblem⟩ | ⟨name, n, rest, hs, hshape, hname | hfirst⟩ |
    ⟨k, fields, hs, hclose, hfield | rfl⟩
  · simp [hproblem, Problem.code] at hcode
  · unfold typeFindings at hname
    split at hname
    · next hstop =>
      obtain rfl := List.mem_singleton.mp hname
      exact ⟨name, n, rest, hs, hshape, hstop, rfl, rfl⟩
    · cases hname
  · obtain ⟨first, hproblem⟩ := hfirst
    simp [hproblem, Problem.code] at hcode
  · obtain ⟨number, first, hproblem⟩ := hfield
    simp [hproblem, Problem.code] at hcode
  · have hproblem := problem_faultOf t
    simp only [List.mem_cons, List.not_mem_nil, or_false] at hproblem
    rcases hproblem with hp | hp | hp | hp
    all_goals simp [hp, Problem.code] at hcode

end Validation

/-- The line on which the number of a type is found: `m` is what stands between its name and its
brace. -/
theorem exists_line_of_numberedType {source : Text} {r : Report} (hr : validate source = .ok r)
    {f : Finding} (hf : f ∈ r.findings) (hcode : f.problem.code = "dotted-protocol-number") :
    ∃ name n m rest, (lines source)[f.line]? = some (name ++ (m ++ ['{'] ++ rest)) ∧
      f.start = name.length ∧ f.stop = name.length + (m ++ ['{']).length ∧
      Shape.IsProtocolName name ∧ name.head? = some '.' ∧ Shape.NumberPart (some n) m ∧
      Shape.read (name ++ (m ++ ['{'] ++ rest)) = .protocol name (some n) rest ∧
      (State.before (lines source) f.line).context = .top := by
  obtain ⟨l, hl, hmem⟩ := exists_step_of_mem hr hf
  have hgenuine := Token.genuine_read (not_mem_of_mem_lines (List.mem_of_getElem? hl)) f.line
  obtain ⟨name, n, rest, hs, hshape, hstop, hstart, hend⟩ :=
    (moves_step _ hgenuine).numberedType hmem hcode
  obtain ⟨-, hname, m, hm, htext⟩ := hgenuine.protocol hshape
  rw [Token.read_text] at htext
  have hsplit : l = name ++ (m ++ ['{'] ++ rest) := by
    rw [htext]
    simp
  subst hsplit
  refine ⟨name, n, m, rest, hl, hstart, ?_, hname, hstop, hm, hshape, hs⟩
  rw [hend, Token.matchEnd, hshape]
  simp only [Token.read_text, List.length_append]
  omega

/-! ## The mended document -/

/-- The codes of the issues of a report on one line. -/
def Report.codesOn (r : Report) (line : Nat) : List (Option String) := (r.issuesOn line).map (·.code)

theorem Report.codesOn_eq (r : Report) (line : Nat) :
    r.codesOn line = (r.places.filter fun p => p.1 = (line : Int)).map (·.2) := by
  rw [codesOn, issuesOn, places, List.filter_map, List.map_map]
  rfl

/-- What the reports `r` and `r'` on a document and on the mended one say, where the number of the type
on line `i` was taken out. -/
structure NumberMended (i : Nat) (r r' : Report) : Prop where
  /-- The number is found fault with no more. -/
  number : r'.issuesAt "dotted-protocol-number" i = []
  /-- It repeats no other one. -/
  repeats : r'.issuesAt "duplicate-protocol" i = []
  /-- On no line is there an issue with another code, or one more with the same code. -/
  codes : ∀ m, (r'.codesOn m).Sublist (r.codesOn m)
  /-- All in all there are fewer issues. -/
  fewer : r'.issues.length < r.issues.length

/-- Another document with the edited declaration in its place is the mended one. -/
theorem numberMended_of_validate {source source' : Text} {r r' : Report} {i : Nat}
    {name m rest : Text} {n : Numeral} (hr : validate source = .ok r) (hr' : validate source' = .ok r')
    (hlines : lines source' = (lines source).set i (name ++ ([' ', '{'] ++ rest)))
    (hl : (lines source)[i]? = some (name ++ (m ++ ['{'] ++ rest)))
    (hname : Shape.IsProtocolName name) (hstop : name.head? = some '.')
    (hm : Shape.NumberPart (some n) m)
    (hread : Shape.read (name ++ (m ++ ['{'] ++ rest)) = .protocol name (some n) rest)
    (hs : (State.before (lines source) i).context = .top) : NumberMended i r r' := by
  obtain ⟨hi, -⟩ := List.getElem?_eq_some_iff.mp hl
  obtain ⟨hstep, heases, hfound⟩ := step_unnumbered hs i hname hstop hm hread
  have hset : (lines source')[i]? = some (name ++ ([' ', '{'] ++ rest)) := by
    rw [hlines, List.getElem?_set_self hi]
  have hnone : ∀ {code}, code ≠ "chinese-punctuation" → r'.issuesAt code i = [] := by
    intro code hcode
    rw [issuesAt_eq hr' code hset, foundAt, hlines, State.before_set (Nat.le_refl i), hstep,
      filter_punctuationFindings hcode]
    rfl
  obtain ⟨rfl, -⟩ := validate_eq_ok_iff.mp hr
  obtain ⟨rfl, -⟩ := validate_eq_ok_iff.mp hr'
  have hplaces := places_eq_at hl
  have hplaces' := places_set_eq hi (name ++ ([' ', '{'] ++ rest))
  rw [← hlines, hstep] at hplaces'
  have hbelow := heases.run (tokensBelow (lines source) i)
  refine ⟨hnone (by decide), hnone (by decide), fun line => ?_, ?_⟩
  · rw [Report.codesOn_eq, Report.codesOn_eq, hplaces, hplaces']
    refine List.Sublist.map _ (List.Sublist.filter _ (List.Sublist.append_left ?_ _))
    exact ((List.sublist_append_left _ _).trans hfound).append hbelow
  · have hlength := congrArg List.length hplaces
    have hlength' := congrArg List.length hplaces'
    have hhere := hfound.length_le
    have hrest := hbelow.length_le
    simp only [Report.places, List.length_map, List.length_append, List.length_cons,
      List.length_nil] at hlength hlength' hhere hrest
    omega

/-- **The fix for the number of a type only improves the document.**  The edited line declares the same
type without a number, no line has a new issue, and there are fewer of them. -/
theorem numberedType_mended {source : Text} {ds : List Diagnostic}
    (h : Diagnostic.ofSource source = .ok ds) {d : Diagnostic} (hd : d ∈ ds)
    (hcode : d.code = some (.name "dotted-protocol-number")) (uri : String) :
    ∃ l l' name n rest fix r r',
      (lines source)[d.range.start.line]? = some l ∧
      Shape.read l = .protocol name (some n) rest ∧ name.head? = some '.' ∧
      validate source = .ok r ∧ QuickFix.ofDiagnostics uri [d] = .ok (some [fix]) ∧
      validate (fix.edit.apply source) = .ok r' ∧
      (lines (fix.edit.apply source))[d.range.start.line]? = some l' ∧
      Shape.read l' = .protocol name none rest ∧ NumberMended d.range.start.line r r' := by
  obtain ⟨r, hr, f, hf, hfcode, hrange⟩ := Diagnostic.exists_finding h hd hcode
  obtain ⟨name, n, m, rest, hl, hstart, hend, hname, hstop, hm, hread, hs⟩ :=
    exists_line_of_numberedType hr hf hfcode
  obtain ⟨hi, -⟩ := List.getElem?_eq_some_iff.mp hl
  have hpart : d.range =
      ⟨⟨f.line, name.length⟩, ⟨f.line, name.length + (m ++ ['{']).length⟩⟩ := by
    rw [hrange, hend, hstart, Nat.max_eq_right (Nat.le_add_right _ _)]
  have hfix : QuickFix.ofDiagnostic uri d = .ok (some ⟨"Remove protocol number", d, uri,
      Edit.inLine f.line name.length (name.length + (m ++ ['{']).length) [' ', '{']⟩) := by
    rw [QuickFix.ofDiagnostic, hcode]
    simp only [hpart]
    rfl
  have hline : d.range.start.line = f.line := by rw [hpart]
  have hread' := read_unnumbered hname hstop rest
  obtain ⟨hlines, hr'⟩ := validate_apply (x := [' ', '{']) hr hl (by decide) (by decide) (by decide)
    (by rw [hread']; rfl)
  rw [hline]
  refine ⟨_, _, name, n, rest, _, r, _, hl, hread, hstop, hr, QuickFix.ofDiagnostics_singleton hfix,
    hr', ?_, hread', ?_⟩
  · rw [hlines, List.getElem?_set_self hi]
  · exact numberMended_of_validate hr hr' hlines hl hname hstop hm hread hs

/-- Declarations that share a number: of a type, which takes it, of a type that repeats it, and of a
protocol. -/
def numberedSource : Text :=
  ".Point\t０1 \t\x7b int：\r\n\x7d\n.Line 1\x7b\r\n\x7d\nmove 1 \x7b\n\x7d\nmove 1 \x7b\n\x7d".toList

theorem numberedType_numberedSource :
    ∃ ds d l l' name n rest fix r r', Diagnostic.ofSource numberedSource = .ok ds ∧ d ∈ ds ∧
      d.code = some (.name "dotted-protocol-number") ∧ d.range = ⟨⟨0, 6⟩, ⟨0, 12⟩⟩ ∧
      (lines numberedSource)[0]? = some l ∧
      Shape.read l = .protocol name (some n) rest ∧ name.head? = some '.' ∧
      validate numberedSource = .ok r ∧
      QuickFix.ofDiagnostics "file:///a.sproto" [d] = .ok (some [fix]) ∧
      validate (fix.edit.apply numberedSource) = .ok r' ∧
      (lines (fix.edit.apply numberedSource))[0]? = some l' ∧
      Shape.read l' = .protocol name none rest ∧ NumberMended 0 r r' := by
  have hmap : ((Diagnostic.ofSource numberedSource).map fun ds =>
      (ds.filter fun d => d.code = some (.name "dotted-protocol-number")).map (·.range)) =
      .ok [⟨⟨0, 6⟩, ⟨0, 12⟩⟩, ⟨⟨2, 5⟩, ⟨2, 8⟩⟩] := by
    decide +kernel
  rcases h : Diagnostic.ofSource numberedSource with fault | ds
  · rw [h] at hmap
    cases hmap
  · rw [h] at hmap
    obtain ⟨d, hmem, hrange⟩ := List.mem_map.mp
      (show (⟨⟨0, 6⟩, ⟨0, 12⟩⟩ : Range) ∈ _ from Except.ok.inj hmap ▸ List.mem_cons_self)
    obtain ⟨hd, hcode⟩ := List.mem_filter.mp hmem
    rw [decide_eq_true_eq] at hcode
    obtain ⟨l, l', name, n, rest, fix, r, r', hmended⟩ :=
      numberedType_mended h hd hcode "file:///a.sproto"
    rw [hrange] at hmended
    exact ⟨ds, d, l, l', name, n, rest, fix, r, r', rfl, hd, hcode, hrange, hmended⟩

end Sproto
