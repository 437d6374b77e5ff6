import Sproto.Proofs.Validation.CommentedLine
import Sproto.Proofs.Validation.Extent
import Sproto.Proofs.Validation.Revision

/-! # Comments behind lines

A comment that is put behind a line changes nothing of what is found in the document, unless the line
is met inside a block and stands alone there, or is malformed and the comment supplies what it lacks.

Without these exceptions the step over the commented line leaves the same state and finds the same
(`step_comment`), and so does the pass over the rest.  With them the step finds something else
(`step_comment_ne`), and what is found on other lines cannot make up for it.  So the condition is exact
(`places_comment_iff`). -/
namespace Sproto

open Text

namespace Validation

section

variable {l w x : Text}

/-! ## The parts of a step -/

theorem label?_comment (hhash : '#' ∉ l) (hw : isBlank w = true) (hne : w ≠ []) (t : Text) :
    Banner.label? (l ++ (w ++ t)) = none := by
  refine Banner.label?_eq_none_of_head? fun h => ?_
  rcases l with _ | ⟨c, l⟩
  · obtain ⟨c, w, rfl⟩ := List.exists_cons_of_ne_nil hne
    cases h
    cases isBlank_iff.mp hw _ List.mem_cons_self
  · cases h
    exact hhash List.mem_cons_self

theorem declare_place (s : State) {t t' : Token} (hi : t'.index = t.index) (name : Text)
    (number : Option Numeral) :
    (s.declare t' name number).1 = (s.declare t name number).1 ∧
      (s.declare t' name number).2.map Finding.place = (s.declare t name number).2.map Finding.place := by
  rcases number with _ | n
  · exact ⟨rfl, rfl⟩
  · simp only [State.declare, hi]
    rcases taken? s.protocols n.value with _ | first
    · refine ⟨rfl, ?_⟩
      by_cases hname : name.head? = some '.'
      · simp only [if_pos hname]
        rfl
      · simp only [if_neg hname]
    · refine ⟨rfl, ?_⟩
      by_cases hname : name.head? = some '.'
      · simp only [if_pos hname]
        rfl
      · simp only [if_neg hname]
        rfl

/-- Inside a block, a line that keeps its standing is checked alike with a comment. -/
theorem checkField_comment (k : BlockKind) (fields : List Entry) (i : Nat)
    (hfeed : '\n' ∉ l ++ (w ++ '#' :: ' ' :: x)) (hhash : '#' ∉ l) (hw : isBlank w = true)
    (hl : ¬ StandsAlone l) (hx : IsMalformed l → ¬ Supplies l x) :
    (checkField k fields (Token.read i (l ++ (w ++ '#' :: ' ' :: x)))).1 =
        (checkField k fields (Token.read i l)).1 ∧
      (checkField k fields (Token.read i (l ++ (w ++ '#' :: ' ' :: x)))).2.map Finding.place =
        (checkField k fields (Token.read i l)).2.map Finding.place := by
  have hlfeed : '\n' ∉ l := fun h => hfeed (List.mem_append_left _ h)
  have hskip := @isSkipped_comment l w x hhash hw hl
  rcases hcarries : isSkipped (Shape.read l) l with _ | _
  · by_cases hline : ∃ name n, IsFieldLine l name n
    · obtain ⟨name, n, hline⟩ := hline
      have hline' := hline.append (w ++ '#' :: ' ' :: x)
      rcases hfield : taken? fields n.value with _ | first
      · rw [checkField_of_free hlfeed hline hfield, checkField_of_free hfeed hline' hfield]
        exact ⟨rfl, rfl⟩
      · obtain ⟨start, stop, hcheck⟩ := checkField_of_taken hlfeed hline hfield
        obtain ⟨start', stop', hcheck'⟩ := checkField_of_taken hfeed hline' hfield
        rw [hcheck, hcheck']
        exact ⟨rfl, rfl⟩
    · have hmal : IsMalformed l := ⟨hcarries, fun name n h => hline ⟨name, n, h⟩⟩
      have hmal' := isMalformed_comment hfeed hhash hw hl hmal (hx hmal)
      have hproblem := fieldProblem_comment hw hl (hx hmal)
      rw [checkField_of_isMalformed hlfeed hmal, checkField_of_isMalformed hfeed hmal']
      refine ⟨rfl, ?_⟩
      simp only [List.map_cons, List.map_nil, checkField.faultOf, Finding.place, Finding.issue_line,
        Finding.issue_code, Token.read_text, Token.read_index, hproblem]
  · rw [checkField_of_isSkipped hcarries, checkField_of_isSkipped (hskip.trans hcarries)]
    exact ⟨rfl, rfl⟩

/-! ## The check of a line that a comment changes -/

/-- What is wrong with a malformed line can be told from its code. -/
theorem fieldProblem_eq_of_code {a b : Text}
    (h : (fieldProblem a).2.code = (fieldProblem b).2.code) :
    (fieldProblem a).2 = (fieldProblem b).2 := by
  have hinj : ∀ p ∈ [Problem.missingType, .missingColon, .missingNumberAndType, .malformedField],
      ∀ q ∈ [Problem.missingType, .missingColon, .missingNumberAndType, .malformedField],
        p.code = q.code → p = q := by decide
  exact hinj _ (problem_faultOf (Token.read 0 a)) _ (problem_faultOf (Token.read 0 b)) h

theorem fieldProblem_code_ne (a : Text) : (fieldProblem a).2.code ≠ "duplicate-field" := by
  have hmem : (fieldProblem a).2 ∈ _ := problem_faultOf (Token.read 0 a)
  revert hmem
  generalize (fieldProblem a).2 = p
  revert p
  decide

theorem map_place_checkField_of_isMalformed (k : BlockKind) (fields : List Entry) (i : Nat)
    (hl : '\n' ∉ l) (h : IsMalformed l) :
    (checkField k fields (Token.read i l)).2.map Finding.place =
      [((i : Int), some (fieldProblem l).2.code)] := by
  rw [checkField_of_isMalformed hl h]
  rfl

/-- A field line is found no fault with but that its number is taken. -/
theorem map_place_checkField_of_isFieldLine (k : BlockKind) (fields : List Entry) (i : Nat)
    (hl : '\n' ∉ l) {name : Text} {n : Numeral} (h : IsFieldLine l name n) {code : String}
    (hcode : code ≠ "duplicate-field") :
    (checkField k fields (Token.read i l)).2.map Finding.place ≠ [((i : Int), some code)] := by
  rcases hfield : taken? fields n.value with _ | first
  · rw [checkField_of_free hl h hfield]
    simp
  · obtain ⟨start, stop, hcheck⟩ := checkField_of_taken hl h hfield
    rw [hcheck]
    intro heq
    cases heq
    exact hcode rfl

/-- **Where a comment changes the standing of a line, something else is found on it.** -/
theorem checkField_comment_ne (k : BlockKind) (fields : List Entry) (i : Nat)
    (hfeed : '\n' ∉ l ++ (w ++ '#' :: ' ' :: x)) (hhash : '#' ∉ l) (hw : isBlank w = true)
    (h : StandsAlone l ∨ IsMalformed l ∧ Supplies l x) :
    (checkField k fields (Token.read i (l ++ (w ++ '#' :: ' ' :: x)))).2.map Finding.place ≠
      (checkField k fields (Token.read i l)).2.map Finding.place := by
  have hlfeed : '\n' ∉ l := fun h => hfeed (List.mem_append_left _ h)
  -- two malformed lines are told apart by their problems
  have hapart : IsMalformed l → IsMalformed (l ++ (w ++ '#' :: ' ' :: x)) →
      (fieldProblem (l ++ (w ++ '#' :: ' ' :: x))).2 ≠ (fieldProblem l).2 →
      (checkField k fields (Token.read i (l ++ (w ++ '#' :: ' ' :: x)))).2.map Finding.place ≠
        (checkField k fields (Token.read i l)).2.map Finding.place := by
    intro hmal hmal' hne heq
    rw [map_place_checkField_of_isMalformed k fields i hlfeed hmal,
      map_place_checkField_of_isMalformed k fields i hfeed hmal'] at heq
    simp only [List.cons.injEq, Prod.mk.injEq, Option.some.injEq, and_true, true_and] at heq
    exact hne (fieldProblem_eq_of_code heq)
  by_cases halone : StandsAlone l
  · have hmal' := @StandsAlone.isMalformed_comment l w x halone hfeed hhash hw
    rcases hcarries : isSkipped (Shape.read l) l with _ | _
    · have hnone : ∀ name n, ¬ IsFieldLine l name n := by
        rintro name n ⟨-, -, a, g, b, v, type, rest, -, -, -, -, -, -, rfl⟩
        exact halone.not_mem_colon (by simp)
      exact hapart ⟨hcarries, hnone⟩ hmal' (halone.fieldProblem_comment_ne ⟨hcarries, hnone⟩ hw)
    · rw [checkField_of_isSkipped hcarries,
        map_place_checkField_of_isMalformed k fields i hfeed hmal']
      simp
  · obtain ⟨hmal, hsupplies⟩ := h.resolve_left halone
    by_cases hline : ∃ name n, IsFieldLine (l ++ (w ++ '#' :: ' ' :: x)) name n
    · obtain ⟨name, n, hline⟩ := hline
      rw [map_place_checkField_of_isMalformed k fields i hlfeed hmal]
      exact map_place_checkField_of_isFieldLine k fields i hfeed hline (fieldProblem_code_ne l)
    · have hmal' : IsMalformed (l ++ (w ++ '#' :: ' ' :: x)) :=
        ⟨(isSkipped_comment hhash hw halone).trans hmal.1, fun name n h => hline ⟨name, n, h⟩⟩
      exact hapart hmal hmal' ((hsupplies.comment_cases hfeed hhash hw hmal.2).resolve_left hline)

/-! ## The step over a commented line -/

/-- A comment without marks adds nothing to the remarks on marks. -/
theorem map_place_punctuationFindings_comment (i : Nat) (hw : isBlank w = true)
    (hmarks : Punctuation.marks x = []) :
    (punctuationFindings (Token.read i (l ++ (w ++ '#' :: ' ' :: x)))).map Finding.place =
      (punctuationFindings (Token.read i l)).map Finding.place := by
  have hblank : w.countP Punctuation.isMark = 0 :=
    Punctuation.countP_isMark_eq_zero fun c hc => Or.inl (isBlank_iff.mp hw c hc)
  rw [map_place_punctuationFindings, map_place_punctuationFindings, Token.read_text, Token.read_text,
    List.countP_append, List.countP_append, hblank, List.countP_cons_of_neg (by decide),
    List.countP_cons_of_neg (by decide), Punctuation.marks_eq_nil_iff.mp hmarks, Nat.add_zero]
  rfl

/-- A commented line does not end a block. -/
theorem read_comment_ne_closeBrace (l w x : Text) :
    Shape.read (l ++ (w ++ '#' :: x)) ≠ .closeBrace := by
  intro h
  cases Shape.read_eq_iff.mp h with
  | closeBrace h =>
    have hmem := Shape.hash_mem_trim l w x
    rw [h] at hmem
    cases List.mem_singleton.mp hmem

theorem standsAlone_of_closeBrace (h : Shape.read l = .closeBrace) : StandsAlone l := by
  cases Shape.read_eq_iff.mp h with
  | closeBrace h => exact .brace (.inl h)

/-- **A comment behind a line does not change what the pass does with it.** -/
theorem step_comment (s : State) (i : Nat) (hfeed : '\n' ∉ l ++ (w ++ '#' :: ' ' :: x))
    (hhash : '#' ∉ l) (hw : isBlank w = true) (hne : w ≠ []) (hmarks : Punctuation.marks x = [])
    (hin : ∀ k fields, s.context = .block k fields →
      ¬ StandsAlone l ∧ (IsMalformed l → ¬ Supplies l x)) :
    (s.step (Token.read i (l ++ (w ++ '#' :: ' ' :: x)))).1 = (s.step (Token.read i l)).1 ∧
      (s.step (Token.read i (l ++ (w ++ '#' :: ' ' :: x)))).2.map Finding.place =
        (s.step (Token.read i l)).2.map Finding.place := by
  have hpunct := @map_place_punctuationFindings_comment l w x i hw hmarks
  rcases hs : s.context with _ | ⟨k, fields⟩
  · have hread := @Shape.read_comment l w x hhash hw
    have hlabel : Banner.label? l = none :=
      Banner.label?_eq_none_of_head? fun h => hhash (List.mem_of_head? h)
    simp only [State.step, hs, Token.read_text, Token.read_shape, hlabel, label?_comment hhash hw hne,
      hread]
    cases Shape.read l with
    | protocol name number rest =>
      obtain ⟨hstate, hfound⟩ := declare_place s
        (show (Token.read i (l ++ (w ++ '#' :: ' ' :: x))).index = (Token.read i l).index from rfl)
        name number
      refine ⟨hstate, ?_⟩
      simp only [Shape.withComment, List.map_append, hpunct, hfound]
    | block k closed rest => cases closed <;> exact ⟨rfl, hpunct⟩
    | _ => exact ⟨rfl, hpunct⟩
  · obtain ⟨hl, hx⟩ := hin k fields hs
    obtain ⟨hfields, hfound⟩ := checkField_comment k fields i hfeed hhash hw hl hx
    rw [step_of_inside (t := Token.read i l) hs fun h => hl (standsAlone_of_closeBrace h),
      step_of_inside (t := Token.read i (l ++ (w ++ '#' :: ' ' :: x))) hs
        (read_comment_ne_closeBrace l w (' ' :: x)), hfields, List.map_append, List.map_append, hpunct,
      hfound]
    exact ⟨rfl, rfl⟩

/-- **Inside a block, a comment that changes the standing of a line changes what is found on it.** -/
theorem step_comment_ne {s : State} {k : BlockKind} {fields : List Entry}
    (hs : s.context = .block k fields) (i : Nat) (hfeed : '\n' ∉ l ++ (w ++ '#' :: ' ' :: x))
    (hhash : '#' ∉ l) (hw : isBlank w = true) (hmarks : Punctuation.marks x = [])
    (h : StandsAlone l ∨ IsMalformed l ∧ Supplies l x) :
    (s.step (Token.read i (l ++ (w ++ '#' :: ' ' :: x)))).2.map Finding.place ≠
      (s.step (Token.read i l)).2.map Finding.place := by
  rw [step_of_inside (t := Token.read i (l ++ (w ++ '#' :: ' ' :: x))) hs
    (read_comment_ne_closeBrace l w (' ' :: x))]
  by_cases hclose : Shape.read l = .closeBrace
  · have hmal' := (standsAlone_of_closeBrace hclose).isMalformed_comment hfeed hhash hw
    have hnil : (s.step (Token.read i l)).2 = [] := by
      simp only [State.step, hs, Token.read_shape, hclose, if_true]
    rw [hnil, List.map_append, map_place_checkField_of_isMalformed k fields i hfeed hmal']
    simp
  · rw [step_of_inside (t := Token.read i l) hs hclose, List.map_append, List.map_append,
      map_place_punctuationFindings_comment i hw hmarks]
    exact fun heq => checkField_comment_ne k fields i hfeed hhash hw h (List.append_cancel_left heq)

end

/-- A step that finds the same and leaves the same state does so for the whole document. -/
theorem places_set {ls : List Text} {i : Nat} {l m : Text} (hl : ls[i]? = some l)
    (hstate : ((State.before ls i).step (Token.read i m)).1 =
      ((State.before ls i).step (Token.read i l)).1)
    (hfound : ((State.before ls i).step (Token.read i m)).2.map Finding.place =
      ((State.before ls i).step (Token.read i l)).2.map Finding.place) :
    (Report.ofTokens (Token.ofLines (ls.set i m))).places =
      (Report.ofTokens (Token.ofLines ls)).places := by
  obtain ⟨hi, -⟩ := List.getElem?_eq_some_iff.mp hl
  rw [places_set_eq hi, places_eq_at hl, hstate, hfound]

/-- Documents with the same report find the same on the line in which they differ. -/
theorem step_place_eq_of_places_set {ls : List Text} (hls : ∀ l ∈ ls, '\n' ∉ l) {i : Nat} {l m : Text}
    (hl : ls[i]? = some l) (hm : '\n' ∉ m)
    (h : (Report.ofTokens (Token.ofLines (ls.set i m))).places =
      (Report.ofTokens (Token.ofLines ls)).places) :
    ((State.before ls i).step (Token.read i m)).2.map Finding.place =
      ((State.before ls i).step (Token.read i l)).2.map Finding.place := by
  obtain ⟨hi, -⟩ := List.getElem?_eq_some_iff.mp hl
  have hplaces := filter_places_ofTokens (feed_set hls hm) (List.getElem?_set_self hi)
  rwa [h, filter_places_ofTokens hls hl, State.before_set (Nat.le_refl i), eq_comm] at hplaces

end Validation

open Validation

/-! ## Documents -/

/-- White space at the end of a comment supplies nothing. -/
theorem supplies_append_iff {l c b : Text} (hb : isBlank b = true) :
    Supplies l (c ++ b) ↔ Supplies l c := by
  rw [supplies_iff, supplies_iff, List.mem_append, List.mem_append,
    hasTypeAfterColon_append_of_isBlank c hb]
  simp only [not_mem_of_isBlank hb isSpace_colon,
    not_mem_of_isBlank hb (show isSpace ')' = false from rfl), or_false]

/-- The two parts of a line end: white space, and a carriage return or nothing. -/
theorem lineEnd_cases {w e : Text} (h : w ++ e = [] ∨ w ++ e = ['\r']) :
    isBlank w = true ∧ (e = [] ∨ e = ['\r']) := by
  rcases h with h | h
  · obtain ⟨rfl, rfl⟩ := List.append_eq_nil_iff.mp h
    exact ⟨rfl, Or.inl rfl⟩
  · rcases List.append_eq_singleton_iff.mp h with ⟨rfl, rfl⟩ | ⟨rfl, rfl⟩
    · exact ⟨rfl, Or.inr rfl⟩
    · exact ⟨rfl, Or.inl rfl⟩

/-- A commented line as it is read: a carriage return at its end is dropped, be it that of the line end
or one of the comment. -/
theorem exists_commented_line {e : Text} (he : e = [] ∨ e = ['\r']) (l w c : Text) :
    ∃ c' b, isBlank b = true ∧ c = c' ++ b ∧
      dropReturn (l ++ (w ++ (" # ".toList ++ c) ++ e)) =
        l ++ (w ++ [' '] ++ '#' :: ' ' :: c') := by
  rcases he with rfl | rfl
  · obtain ⟨b, hb, hc⟩ := exists_dropReturn_append c
    refine ⟨dropReturn c, b, hb, hc, ?_⟩
    have hcons : dropReturn (" # ".toList ++ c) = " # ".toList ++ dropReturn c := by
      show dropReturn (' ' :: '#' :: ' ' :: c) = ' ' :: '#' :: ' ' :: dropReturn c
      rw [dropReturn_cons (by decide), dropReturn_cons (by decide), dropReturn_cons (by decide)]
    rw [List.append_nil, ← List.append_assoc, dropReturn_append _ (by simp), hcons]
    simp
  · refine ⟨c, [], rfl, (List.append_nil c).symm, ?_⟩
    rw [← List.append_assoc, dropReturn_append _ (by simp)]
    simp [dropReturn]

/-- **A comment behind a line changes nothing of what is reported**, neither the lines of the issues nor
their codes, exactly if the line is met outside any block, or does not stand alone and, in case it is
malformed, the comment does not supply what it lacks.  The carriage return of the line end, if there is
one, may come before the comment (`w`) or behind it (`e`). -/
theorem places_comment_iff {source l w e c : Text} {i : Nat} {r : Report}
    (h : validate source = .ok r) (hl : (lines source)[i]? = some l)
    (hraw : (source.splitOn '\n')[i]? = some (l ++ (w ++ e))) (hhash : '#' ∉ l) (hfeed : '\n' ∉ c)
    (hmarks : Punctuation.marks c = []) :
    ∃ r', validate (replaceLine source i (l ++ (w ++ (" # ".toList ++ c) ++ e))) = .ok r' ∧
      (r'.places = r.places ↔
        (Inside (lines source) i → ¬ StandsAlone l ∧ (IsMalformed l → ¬ Supplies l c))) := by
  have hls : ∀ m ∈ lines source, '\n' ∉ m := fun m hm => not_mem_of_mem_lines hm
  obtain ⟨hi, -⟩ := List.getElem?_eq_some_iff.mp hl
  obtain ⟨hw, he⟩ : isBlank w = true ∧ (e = [] ∨ e = ['\r']) := by
    refine lineEnd_cases (eq_nil_or_return_of_dropReturn (l := l) ?_)
    rw [getElem?_lines, hraw, Option.map_some, Option.some.injEq] at hl
    exact hl
  obtain ⟨c', b, hb, rfl, hline⟩ := exists_commented_line he l w c
  have hmarks' : Punctuation.marks c' = [] := by
    rw [Punctuation.marks_eq_nil_iff, List.countP_append] at hmarks
    rw [Punctuation.marks_eq_nil_iff]
    omega
  have hrawfeed : '\n' ∉ l ++ (w ++ (" # ".toList ++ (c' ++ b)) ++ e) := by
    have hold : '\n' ∉ l ++ (w ++ e) := not_mem_of_mem_splitOn (List.mem_of_getElem? hraw)
    simp only [List.mem_append, not_or] at hold hfeed ⊢
    exact ⟨hold.1, ⟨hold.2.1, by decide, hfeed⟩, hold.2.2⟩
  have hfeed' : '\n' ∉ l ++ (w ++ [' '] ++ '#' :: ' ' :: c') := by
    rw [← hline]
    exact fun h => hrawfeed (mem_of_mem_dropReturn h)
  have hblank : isBlank (w ++ [' ']) = true := by
    rw [isBlank_append, hw]
    rfl
  have hcontext := (fits_before hls (Nat.le_of_lt hi)).inside_iff
  obtain ⟨rfl, hfault⟩ := validate_eq_ok_iff.mp h
  rw [Token.forall_fault?_ofLines] at hfault
  refine ⟨_, validate_replaceLine h i hrawfeed ?_, ?_⟩
  · rw [hline, Shape.read_comment hhash hblank, Shape.numeral?_withComment]
    exact hfault l (List.mem_of_getElem? hl)
  · rw [hline, supplies_append_iff hb, hcontext]
    constructor
    · rintro hplaces ⟨k, fields, hs⟩
      have hfound := step_place_eq_of_places_set hls hl hfeed' hplaces
      have hstands := fun h => step_comment_ne hs i hfeed' hhash hblank hmarks' h hfound
      exact ⟨fun halone => hstands (Or.inl halone), fun hmal hx => hstands (Or.inr ⟨hmal, hx⟩)⟩
    · intro hin
      obtain ⟨hstate, hfound⟩ := step_comment _ i hfeed' hhash hblank (by simp) hmarks'
        fun k fields hs => hin ⟨k, fields, hs⟩
      exact places_set hl hstate hfound

/-- A block with a field that lacks its colon, between lines with carriage returns. -/
def looseSource : Text :=
  "foo 1 \x7b\n    request \x7b\r\n        a 0 integer\r\n        b 0: integer\n    \x7d\n\x7d\n".toList

theorem places_looseSource :
    ∃ r r', validate looseSource = .ok r ∧ r.places = [(2, some "missing-colon")] ∧
      validate (replaceLine looseSource 2 ("        a 0 integer".toList ++
        ([] ++ (" # ".toList ++ "see b: below".toList) ++ ['\r']))) = .ok r' ∧
      r'.places = r.places := by
  have h : validate looseSource = .ok (Report.ofTokens (Token.ofLines (lines looseSource))) := by
    decide +kernel
  obtain ⟨r', hr', hplaces⟩ := places_comment_iff (w := []) (e := ['\r']) (c := "see b: below".toList)
    (i := 2) (l := "        a 0 integer".toList) h (by decide +kernel) (by decide +kernel)
    (by decide) (by decide) (by decide +kernel)
  exact ⟨_, r', h, by decide +kernel, hr',
    hplaces.mpr fun _ => ⟨by decide +kernel, fun _ => by decide +kernel⟩⟩

/-- A schema without fault. -/
def bracedSource : Text :=
  "foo 1 \x7b\n    request \x7b\n        a 0: integer\n    \x7d\n\x7d\n".toList

/-- Not every comment is without effect: behind the brace that ends a block, it keeps the brace from
ending the block. -/
theorem places_comment_not_always :
    ¬ ∀ (source l w e c : Text) (i : Nat) (r : Report), validate source = .ok r →
      (lines source)[i]? = some l → (source.splitOn '\n')[i]? = some (l ++ (w ++ e)) →
      '#' ∉ l → '\n' ∉ c → Punctuation.marks c = [] →
      ∃ r', validate (replaceLine source i (l ++ (w ++ (" # ".toList ++ c) ++ e))) = .ok r' ∧
        r'.places = r.places := by
  intro hall
  have h : validate bracedSource = .ok (Report.ofTokens (Token.ofLines (lines bracedSource))) := by
    decide +kernel
  obtain ⟨r', hr', hplaces⟩ := hall bracedSource "    \x7d".toList [] [] "end".toList 3 _ h
    (by decide +kernel) (by decide +kernel) (by decide) (by decide) (by decide +kernel)
  have hbroken : (validate (replaceLine bracedSource 3
      ("    \x7d".toList ++ ([] ++ (" # ".toList ++ "end".toList) ++ [])))).map Report.places =
      .ok [(3, some "invalid-field")] := by
    decide +kernel
  rw [hr'] at hbroken
  have hnone : (Report.ofTokens (Token.ofLines (lines bracedSource))).places = [] := by decide +kernel
  rw [hnone] at hplaces
  cases (Except.ok.inj hbroken).symm.trans hplaces

end Sproto
