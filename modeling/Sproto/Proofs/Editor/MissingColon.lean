import Sproto.Proofs.Editor.Edit
import Sproto.Proofs.Validation.FieldCheck
import Sproto.Proofs.Validation.Isolation
import Sproto.Proofs.Validation.Repetition

/-! # The fix for a missing colon

A colon is missed behind a field's name and number.  Put there, it turns the line into a field
(`read_colon`), a field line if a word follows and one that lacks its type if nothing does.

The line stays in its block and ends it as little as before, so the two documents are passed over alike
but for the numbers that are taken in that block (`before_set_of_inBlock`), and nothing outside the
block can tell them apart (`issuesOn_set_of_inBlock`).  `missingColon_mended` puts this together for the
diagnostics of a document. -/
namespace Sproto

open Text Validation

/-! ## The line -/

/-- A colon is missed behind a name and a number, in front of white space or of a word. -/
theorem missingColon?_eq_some {l : Text} {start : Nat} (h : missingColon? l = some start) :
    ∃ name n rest, Shape.nameAndNumber? l = some (name, n, rest) ∧ wantsColon rest = true ∧
      start = l.length - rest.length := by
  unfold missingColon? at h
  rcases hnn : Shape.nameAndNumber? l with _ | ⟨name, n, rest⟩
  · rw [hnn] at h
    cases h
  · rw [hnn] at h
    replace h : (if wantsColon rest then some (l.length - rest.length) else none) = some start := h
    split at h
    · next hwants => exact ⟨name, n, rest, rfl, hwants, (Option.some.inj h).symm⟩
    · cases h

/-- The problem of a line is a missing colon only where one is missed. -/
theorem missingColon?_of_fieldProblem {l : Text} (h : (fieldProblem l).2 = .missingColon) :
    missingColon? l = some (fieldProblem l).1 := by
  unfold fieldProblem at h ⊢
  split at h
  · cases h
  · next hcolon =>
    rw [if_neg hcolon]
    rcases hmissing : missingColon? l with _ | start
    · rw [hmissing] at h
      rcases hnumber : missingNumber? l with _ | start
      · rw [hnumber] at h
        cases h
      · rw [hnumber] at h
        cases h
    · rfl

/-- **With its colon, the line is a field.** -/
theorem read_colon {l name rest : Text} {n : Numeral}
    (h : Shape.nameAndNumber? l = some (name, n, rest)) :
    ∃ front, l = front ++ rest ∧ Shape.read (front ++ ':' :: rest) = .field name n rest := by
  obtain ⟨hname, hn, -, a, g, ha, hne, hg, rfl⟩ := Shape.nameAndNumber?_eq_some_iff.mp h
  refine ⟨a ++ (name ++ (g ++ n.digits)), by simp only [List.append_assoc], Shape.Reads.read_eq ?_⟩
  refine .field (Shape.field?_eq_some_iff.mpr ⟨hname, hn, a, g, [], ha, hne, hg, rfl, ?_⟩)
  simp only [List.append_assoc, List.nil_append]

section

variable {l name rest : Text} {n : Numeral}

/-- In front of a word, the colon completes a field line. -/
theorem isFieldLine_of_wantsColon (hl : '\n' ∉ l) (hread : Shape.read l = .field name n rest)
    (hfeed : '\n' ∉ rest) (hwants : wantsColon rest = true) (hblank : isBlank rest = false) :
    IsFieldLine l name n := by
  refine (isFieldLine_iff hl).mpr ⟨rest, hread, ?_⟩
  rw [wantsColon, hblank, Bool.false_or, Option.any_eq_true] at hwants
  obtain ⟨u, hgap, hword⟩ := hwants
  obtain ⟨hstop, g, -, hg, rfl⟩ := readGap?_eq_some_iff.mp hgap
  rw [Shape.fieldContent_eq hfeed, trimLeft_append_of_isBlank hg, trimLeft_of_stops hstop]
  obtain ⟨w, v, hw, rfl⟩ := startsWord_iff.mp hword
  exact startsType_of_isTypeStart (.word hw) v

/-- In front of nothing, it leaves a field that lacks its type. -/
theorem isMalformed_of_isBlank (hl : '\n' ∉ l) (hread : Shape.read l = .field name n rest)
    (hfeed : '\n' ∉ rest) (hblank : isBlank rest = true) :
    IsMalformed l ∧ (fieldProblem l).2 = .missingType := by
  have hgenuine := Token.genuine_read hl 0
  refine ⟨⟨isSkipped_field hgenuine hread, fun name' n' hline => ?_⟩, ?_⟩
  · obtain ⟨body, hbody, htype⟩ := (isFieldLine_iff hl).mp hline
    rw [hread] at hbody
    cases hbody
    rw [Shape.fieldContent_eq hfeed, trimLeft_of_isBlank hblank] at htype
    cases htype
  · have hproblem := Token.fieldProblem_field hgenuine (show (Token.read 0 l).shape = _ from hread)
    rw [trimLeft_of_isBlank hblank, hasTypeAfterColon_of_isBlank hblank] at hproblem
    exact hproblem

end

/-! ## The findings that ask for the fix -/

namespace Validation

/-- **A colon is missed on malformed lines of blocks only.** -/
theorem Moves.missingColon {s s' : State} {t : Token} {fs : List Finding} (h : Moves s t s' fs)
    {f : Finding} (hf : f ∈ fs) (hcode : f.problem.code = "missing-colon") :
    t.shape ≠ .closeBrace ∧ (∃ k fields, s.context = .block k fields) ∧
      f = checkField.faultOf t ∧ (fieldProblem t.text).2 = .missingColon := by
  rcases h.finding_cases hf with ⟨mark, replacement, hproblem⟩ | ⟨name, n, rest, -, -, hname | hfirst⟩ |
    ⟨k, fields, hs, hclose, hfield | rfl⟩
  · simp [hproblem, Problem.code] at hcode
  · simp [(mem_typeFindings hname).2, Problem.code] at hcode
  · obtain ⟨first, hproblem⟩ := hfirst
    simp [hproblem, Problem.code] at hcode
  · obtain ⟨number, first, hproblem⟩ := hfield
    simp [hproblem, Problem.code] at hcode
  · refine ⟨hclose, ⟨k, fields, hs⟩, rfl, ?_⟩
    have hproblem := problem_faultOf t
    simp only [List.mem_cons, List.not_mem_nil, or_false] at hproblem
    rcases hproblem with hp | hp | hp | hp
    · simp [hp, Problem.code] at hcode
    · exact hp
    · simp [hp, Problem.code] at hcode
    · simp [hp, Problem.code] at hcode

/-! ## The passes over both documents -/

variable {ls : List Text} {i j : Nat} {k : BlockKind} {l l' : Text}

/-- Two states inside a block that differ at most in the numbers which are taken in it. -/
def SameButFields (k : BlockKind) (s s' : State) : Prop :=
  ∃ fields fields', s.context = .block k fields ∧ s' = { s with context := .block k fields' }

/-- A line that does not end the block keeps such states such. -/
theorem SameButFields.step {s s' : State} (h : SameButFields k s s') {t t' : Token} (ht : t.Genuine)
    (ht' : t'.Genuine) (hopen : t.shape ≠ .closeBrace) (hopen' : t'.shape ≠ .closeBrace) :
    SameButFields k (s.step t).1 (s'.step t').1 := by
  obtain ⟨fields, fields', hs, rfl⟩ := h
  obtain ⟨f, hf⟩ := (moves_step s ht).eq_of_inside hs hopen
  obtain ⟨f', hf'⟩ := (moves_step { s with context := .block k fields' } ht').eq_of_inside rfl hopen'
  rw [hf, hf']
  exact ⟨f, f', rfl, rfl⟩

/-- The end of the block makes them equal. -/
theorem SameButFields.step_of_closes {s s' : State} (h : SameButFields k s s') {t : Token}
    (hclose : t.shape = .closeBrace) : (s'.step t).1 = (s.step t).1 := by
  obtain ⟨fields, fields', hs, rfl⟩ := h
  rw [Validation.step_of_closes hs hclose, Validation.step_of_closes rfl hclose]

/-- **After another line of a block, a pass differs only in the numbers of that block**, as long as it is
in it. -/
theorem before_set_of_inBlock (hls : ∀ l ∈ ls, '\n' ∉ l) (hl' : '\n' ∉ l') (hl : ls[i]? = some l)
    (hopen : Shape.read l ≠ .closeBrace) (hopen' : Shape.read l' ≠ .closeBrace)
    (hblock : InBlock ls k j i) {m : Nat} (him : i < m) (hm : m ≤ ls.length) :
    State.before (ls.set i l') m = State.before ls m ∨
      InBlock ls k j m ∧ SameButFields k (State.before ls m) (State.before (ls.set i l') m) := by
  obtain ⟨hi, -⟩ := List.getElem?_eq_some_iff.mp hl
  induction m, him using Nat.le_induction with
  | base =>
    right
    have hset : (ls.set i l')[i]? = some l' := List.getElem?_set_self hi
    have hfits := fits_before hls (Nat.le_of_lt hi)
    have hcontext : ∃ fields, (State.before ls i).context = .block k fields := by
      generalize (State.before ls i).context = c at hfits
      cases hfits with
      | top h => exact absurd hblock.inside h
      | block h =>
        obtain ⟨rfl, -⟩ := h.unique hblock
        exact ⟨_, rfl⟩
    obtain ⟨fields, hs⟩ := hcontext
    have hsame : SameButFields k (State.before ls i) (State.before ls i) :=
      ⟨fields, fields, hs, (State.context_eq_self hs).symm⟩
    rw [Nat.succ_eq_add_one, State.before_succ hl, State.before_succ hset,
      State.before_set (Nat.le_refl i)]
    refine ⟨hblock.succ (by rw [isLoneBrace_eq hl]; simpa using hopen), hsame.step ?_ ?_ hopen hopen'⟩
    · exact Token.genuine_read (hls l (List.mem_of_getElem? hl)) i
    · exact Token.genuine_read hl' i
  | succ m him ih =>
    have hm' : m < ls.length := by omega
    have hlm : ls[m]? = some ls[m] := List.getElem?_eq_getElem hm'
    have hsetm : (ls.set i l')[m]? = some ls[m] := by
      rw [List.getElem?_set_ne (by omega), hlm]
    have hgenuine := Token.genuine_read (hls _ (List.getElem_mem hm')) m
    rw [State.before_succ hlm, State.before_succ hsetm]
    rcases ih (by omega) with heq | ⟨hin, hsame⟩
    · exact Or.inl (by rw [heq])
    · by_cases hclose : Shape.read ls[m] = .closeBrace
      · exact Or.inl (hsame.step_of_closes (t := Token.read m ls[m]) hclose)
      · refine Or.inr ⟨hin.succ (by rw [isLoneBrace_eq hlm]; simpa using hclose), ?_⟩
        exact hsame.step hgenuine hgenuine hclose hclose

/-- **No line outside a block can tell one of its lines from another.** -/
theorem issuesOn_set_of_inBlock (hls : ∀ l ∈ ls, '\n' ∉ l) (hl' : '\n' ∉ l') (hl : ls[i]? = some l)
    (hopen : Shape.read l ≠ .closeBrace) (hopen' : Shape.read l' ≠ .closeBrace)
    (hblock : InBlock ls k j i) {m : Nat} (hm : ¬ InBlock ls k j m) :
    (Report.ofTokens (Token.ofLines (ls.set i l'))).issuesOn m =
      (Report.ofTokens (Token.ofLines ls)).issuesOn m := by
  have hls' := feed_set (i := i) hls hl'
  have hne : i ≠ m := by
    rintro rfl
    exact hm hblock
  rcases Nat.lt_or_ge m ls.length with hlt | hge
  · have hlm : ls[m]? = some ls[m] := List.getElem?_eq_getElem hlt
    have hsetm : (ls.set i l')[m]? = some ls[m] := by rw [List.getElem?_set_ne hne, hlm]
    have hbefore : State.before (ls.set i l') m = State.before ls m := by
      rcases Nat.lt_or_ge i m with him | him
      · exact (before_set_of_inBlock hls hl' hl hopen hopen' hblock him (Nat.le_of_lt hlt)).resolve_right
          fun h => hm h.1
      · exact State.before_set him ls l'
    rw [issuesOn_ofTokens hls hlm, issuesOn_ofTokens hls' hsetm, hbefore]
  · rw [issuesOn_ofTokens_eq_nil hls hge, issuesOn_ofTokens_eq_nil hls' (by simpa using hge)]

/-- What is found on a line that is put into a block, its punctuation aside. -/
theorem foundAt_set {fields : List Entry} {code : String}
    (hs : (State.before ls i).context = .block k fields) (hopen' : Shape.read l' ≠ .closeBrace)
    (hcode : code ≠ "chinese-punctuation") :
    foundAt (ls.set i l') code i l' =
      (checkField k fields (Token.read i l')).2.filter fun f => f.problem.code = code := by
  rw [foundAt, State.before_set (Nat.le_refl i), step_of_inside hs hopen', List.filter_append,
    filter_punctuationFindings hcode, List.nil_append]

end Validation

/-! ## The mended document -/

/-- The codes of malformed fields. -/
def shapeCodes : List String :=
  ["missing-type", "missing-colon", "missing-number-and-type", "invalid-field"]

/-- What the reports `r` and `r'` on a document and on the mended one say, where a colon was put behind
the number `n` on line `i`, in the block of the kind `k` that line `j` starts, and `rest` follows the
number. -/
structure ColonMended (ls : List Text) (k : BlockKind) (j i : Nat) (n : Numeral) (rest : Text)
    (r r' : Report) : Prop where
  /-- No colon is missed any more. -/
  colon : r'.issuesAt "missing-colon" i = []
  /-- A type is missed exactly when nothing but white space follows the number. -/
  type : r'.issuesAt "missing-type" i ≠ [] ↔ isBlank rest = true
  /-- Otherwise the line is not malformed. -/
  shape : isBlank rest = false → ∀ code ∈ shapeCodes, r'.issuesAt code i = []
  /-- Its number is reported exactly when an earlier field line of the block has it. -/
  repeats : isBlank rest = false →
    (r'.issuesAt "duplicate-field" i ≠ [] ↔ ∃ e, FieldOf ls k j e ∧ e.line < i ∧ e.number = n.value)
  /-- Nothing changes outside the block. -/
  outside : ∀ m, ¬ InBlock ls k j m → r'.issuesOn m = r.issuesOn m

/-- The edited line, by what follows its number. -/
theorem checkField_colon (k : BlockKind) (fields : List Entry) (i : Nat) {l name rest : Text}
    {n : Numeral} (hl : '\n' ∉ l) (hread : Shape.read l = .field name n rest) (hfeed : '\n' ∉ rest)
    (hwants : wantsColon rest = true) :
    (isBlank rest = true ∧ ∃ f, f.problem = .missingType ∧
        (checkField k fields (Token.read i l)).2 = [f]) ∨
      isBlank rest = false ∧
        (taken? fields n.value = none ∧ (checkField k fields (Token.read i l)).2 = [] ∨
          ∃ f first, taken? fields n.value = some first ∧ f.problem = .repeatedField n.value k first ∧
            (checkField k fields (Token.read i l)).2 = [f]) := by
  rcases hblank : isBlank rest with _ | _
  · have hline := isFieldLine_of_wantsColon hl hread hfeed hwants hblank
    refine Or.inr ⟨rfl, ?_⟩
    rcases htaken : taken? fields n.value with _ | first
    · exact Or.inl ⟨rfl, by rw [checkField_of_free hl hline htaken]⟩
    · obtain ⟨start, stop, hcheck⟩ := checkField_of_taken (k := k) (i := i) hl hline htaken
      exact Or.inr ⟨_, first, rfl, rfl, by rw [hcheck]⟩
  · obtain ⟨hmal, hproblem⟩ := isMalformed_of_isBlank hl hread hfeed hblank
    exact Or.inl ⟨rfl, _, hproblem, by rw [checkField_of_isMalformed hl hmal]⟩

/-- Another document with the edited line in its place is the mended one. -/
theorem colonMended_of_validate {source source' : Text} {r r' : Report} {i j : Nat} {k : BlockKind}
    {fields : List Entry} {l l' name rest : Text} {n : Numeral} (hr : validate source = .ok r)
    (hr' : validate source' = .ok r') (hlines : lines source' = (lines source).set i l')
    (hl : (lines source)[i]? = some l) (hopen : Shape.read l ≠ .closeBrace)
    (hread' : Shape.read l' = .field name n rest) (hwants : wantsColon rest = true)
    (hs : (State.before (lines source) i).context = .block k fields)
    (hblock : InBlock (lines source) k j i) (hreg : Registry (FieldOf (lines source) k j) i fields) :
    ColonMended (lines source) k j i n rest r r' := by
  obtain ⟨hi, -⟩ := List.getElem?_eq_some_iff.mp hl
  have hls : ∀ m ∈ lines source, '\n' ∉ m := fun m hm => not_mem_of_mem_lines hm
  have hset : (lines source')[i]? = some l' := by rw [hlines, List.getElem?_set_self hi]
  have hl'feed : '\n' ∉ l' := not_mem_of_mem_lines (List.mem_of_getElem? hset)
  have hfeed : '\n' ∉ rest := (Token.genuine_read hl'feed i).feed_field hread'
  have hopen' : Shape.read l' ≠ .closeBrace := by rw [hread']; simp
  have hissues : ∀ {code}, code ≠ "chinese-punctuation" → r'.issuesAt code i =
      ((checkField k fields (Token.read i l')).2.filter fun f => f.problem.code = code).map
        Finding.issue := by
    intro code hcode
    rw [issuesAt_eq hr' code hset, hlines, foundAt_set hs hopen' hcode]
  have hcodes : ∀ code ∈ shapeCodes, code ≠ "chinese-punctuation" ∧ code ≠ "duplicate-field" := by
    decide
  have houtside : ∀ m, ¬ InBlock (lines source) k j m → r'.issuesOn m = r.issuesOn m := by
    intro m hm
    obtain ⟨rfl, -⟩ := validate_eq_ok_iff.mp hr
    obtain ⟨rfl, -⟩ := validate_eq_ok_iff.mp hr'
    rw [hlines]
    exact issuesOn_set_of_inBlock hls hl'feed hl hopen hopen' hblock hm
  rcases checkField_colon k fields i hl'feed hread' hfeed hwants with
    ⟨hblank, f, hf, hfound⟩ | ⟨hblank, ⟨hfree, hfound⟩ | ⟨f, first, htaken, hf, hfound⟩⟩
  · rw [hfound] at hissues
    refine ⟨?_, ?_, ?_, ?_, houtside⟩
    · rw [hissues (by decide)]
      simp [hf, Problem.code]
    · rw [hissues (by decide)]
      simp [hf, hblank, Problem.code]
    · intro hno
      rw [hno] at hblank
      cases hblank
    · intro hno
      rw [hno] at hblank
      cases hblank
  · have hnone : ∀ {code}, code ≠ "chinese-punctuation" → r'.issuesAt code i = [] := by
      intro code hcode
      rw [hissues hcode, hfound]
      rfl
    refine ⟨hnone (by decide), ?_, fun _ code hc => hnone (hcodes code hc).1, fun _ => ?_, houtside⟩
    · simp [hnone, hblank]
    · rw [hnone (by decide)]
      refine iff_of_false (fun h => h rfl) ?_
      rintro ⟨e, he, hlt, hnumber⟩
      have hle := hreg.taken?_eq_none_iff.mp hfree e he hnumber
      omega
  · have hnone : ∀ code ∈ shapeCodes, r'.issuesAt code i = [] := by
      intro code hc
      rw [hissues (hcodes code hc).1, hfound]
      simp [hf, Problem.code, (hcodes code hc).2.symm]
    refine ⟨hnone _ (by decide), ?_, fun _ => hnone, fun _ => ?_, houtside⟩
    · simp [hnone "missing-type" (by decide), hblank]
    · rw [hissues (by decide), hfound]
      refine iff_of_true (by simp [hf, Problem.code]) ?_
      have hone := onePerLine_fieldOf hls k j
      obtain ⟨hfirst, hnumber, hlt⟩ := (hreg.taken?_eq_some_iff hone).mp htaken
      exact ⟨first, hfirst.1, hlt, hnumber⟩

/-- The line on which a colon is missed: it stands in a block, and `front` is what it has up to its
number. -/
theorem exists_line_of_missingColon {source : Text} {r : Report} (hr : validate source = .ok r)
    {f : Finding} (hf : f ∈ r.findings) (hcode : f.problem.code = "missing-colon") :
    ∃ front name n rest k fields, (lines source)[f.line]? = some (front ++ rest) ∧
      f.start = front.length ∧ Shape.nameAndNumber? (front ++ rest) = some (name, n, rest) ∧
      wantsColon rest = true ∧ Shape.read (front ++ rest) ≠ .closeBrace ∧
      Shape.read (front ++ ':' :: rest) = .field name n rest ∧
      (State.before (lines source) f.line).context = .block k fields := by
  obtain ⟨l, hl, hmem⟩ := exists_step_of_mem hr hf
  have hgenuine := Token.genuine_read (not_mem_of_mem_lines (List.mem_of_getElem? hl)) f.line
  obtain ⟨hopen, ⟨k, fields, hs⟩, hfault, hproblem⟩ :=
    (moves_step _ hgenuine).missingColon hmem hcode
  rw [Token.read_shape] at hopen
  rw [Token.read_text] at hproblem
  obtain ⟨name, n, rest, hnn, hwants, hstart⟩ :=
    missingColon?_eq_some (missingColon?_of_fieldProblem hproblem)
  obtain ⟨front, rfl, hread⟩ := read_colon hnn
  have hcolumn : f.start = (fieldProblem (front ++ rest)).1 := congrArg Finding.start hfault
  rw [hstart, List.length_append, Nat.add_sub_cancel] at hcolumn
  exact ⟨front, name, n, rest, k, fields, hl, hcolumn, hnn, hwants, hopen, hread, hs⟩

/-- **The fix for a missing colon mends its line, and nothing changes outside the block.**  The
diagnostic says where the line is; the number in it must be one that is converted, for with its colon
the line has to be read. -/
theorem missingColon_mended {source : Text} {ds : List Diagnostic}
    (h : Diagnostic.ofSource source = .ok ds) {d : Diagnostic} (hd : d ∈ ds)
    (hcode : d.code = some (.name "missing-colon")) (uri : String) :
    ∃ l k j name n rest fix r,
      (lines source)[d.range.start.line]? = some l ∧
      InBlock (lines source) k j d.range.start.line ∧
      Shape.nameAndNumber? l = some (name, n, rest) ∧
      validate source = .ok r ∧ QuickFix.ofDiagnostics uri [d] = .ok (some [fix]) ∧
      (n.digits.length ≤ Fault.maxDigits →
        ∃ r', validate (fix.edit.apply source) = .ok r' ∧
          ColonMended (lines source) k j d.range.start.line n rest r r') := by
  obtain ⟨r, hr, f, hf, hfcode, hrange⟩ := Diagnostic.exists_finding h hd hcode
  obtain ⟨front, name, n, rest, k, fields, hl, hcolumn, hnn, hwants, hopen, hread, hs⟩ :=
    exists_line_of_missingColon hr hf hfcode
  have hls : ∀ m ∈ lines source, '\n' ∉ m := fun m hm => not_mem_of_mem_lines hm
  obtain ⟨hi, -⟩ := List.getElem?_eq_some_iff.mp hl
  obtain ⟨j, hblock, hreg⟩ := (registered_before hls (Nat.le_of_lt hi)).fields hs
  have hpos : d.range.start = ⟨f.line, front.length⟩ := by rw [hrange, hcolumn]
  have hfix : QuickFix.ofDiagnostic uri d =
      .ok (some ⟨"Insert \x27:\x27", d, uri, Edit.inLine f.line front.length front.length [':']⟩) := by
    rw [QuickFix.ofDiagnostic, hcode]
    simp only [hpos]
    rfl
  have hline : d.range.start.line = f.line := by rw [hpos]
  rw [hline]
  refine ⟨front ++ rest, k, j, name, n, rest, _, r, hl, hblock, hnn, hr,
    QuickFix.ofDiagnostics_singleton hfix, fun hshort => ?_⟩
  have hnumeral : (Shape.read (front ++ ([':'] ++ rest))).numeral?.bind Numeral.fault? = none := by
    show (Shape.read (front ++ ':' :: rest)).numeral?.bind Numeral.fault? = none
    rw [hread]
    exact n.fault?_eq_none_iff.mpr hshort
  obtain ⟨hlines, hr'⟩ := validate_apply (m := []) hr hl (by simp) (by simp) (by simp) hnumeral
  exact ⟨_, hr', colonMended_of_validate hr hr' hlines hl hopen hread hwants hs hblock hreg⟩

/-- A block in which a colon is missed twice: in front of a type, behind a number of other digits that
an earlier field has taken, and at the end of a line.  Some lines end in carriage returns. -/
def colonlessSource : Text :=
  ("foo 1 \x7b\r\n request \x7b\n  a 1: int\r\n  b\t١ \t*str\n  c １ int # again\r\n  d 2 \n".toList ++
    " \x7d\n\x7d\nbar 1 \x7b".toList)

theorem missingColon_colonlessSource :
    ∃ ds d fix r r' k j, Diagnostic.ofSource colonlessSource = .ok ds ∧ d ∈ ds ∧
      d.code = some (.name "missing-colon") ∧ d.range = ⟨⟨4, 5⟩, ⟨4, 17⟩⟩ ∧
      QuickFix.ofDiagnostics "file:///a.sproto" [d] = .ok (some [fix]) ∧
      validate colonlessSource = .ok r ∧ validate (fix.edit.apply colonlessSource) = .ok r' ∧
      ColonMended (lines colonlessSource) k j 4 ⟨['１']⟩ " int # again".toList r r' := by
  have hmap : ((Diagnostic.ofSource colonlessSource).map fun ds =>
      (ds.filter fun d => d.code = some (.name "missing-colon")).map (·.range)) =
      .ok [⟨⟨4, 5⟩, ⟨4, 17⟩⟩, ⟨⟨5, 5⟩, ⟨5, 6⟩⟩] := by
    decide +kernel
  rcases h : Diagnostic.ofSource colonlessSource with fault | ds
  · rw [h] at hmap
    cases hmap
  · rw [h] at hmap
    obtain ⟨d, hmem, hrange⟩ := List.mem_map.mp
      (show (⟨⟨4, 5⟩, ⟨4, 17⟩⟩ : Range) ∈ _ from Except.ok.inj hmap ▸ List.mem_cons_self)
    obtain ⟨hd, hcode⟩ := List.mem_filter.mp hmem
    rw [decide_eq_true_eq] at hcode
    obtain ⟨l, k, j, name, n, rest, fix, r, hl, -, hnn, hr, hfix, hmend⟩ :=
      missingColon_mended h hd hcode "file:///a.sproto"
    rw [hrange] at hl hmend
    have hparts : ((lines colonlessSource)[4]?.bind Shape.nameAndNumber?).map (·.2) =
        some (⟨['１']⟩, " int # again".toList) := by
      decide +kernel
    rw [hl, Option.bind_some, hnn, Option.map_some, Option.some.injEq, Prod.mk.injEq] at hparts
    obtain ⟨rfl, rfl⟩ := hparts
    obtain ⟨r', hr', hmended⟩ := hmend (by decide)
    exact ⟨ds, d, fix, r, r', k, j, rfl, hd, hcode, hrange, hfix, hr, hr', hmended⟩

end Sproto
