import Sproto.Proofs.Validation.Extent
import Sproto.Proofs.Validation.Registry
import Sproto.Proofs.Validation.Report

/-! # Numbers that are used twice

A declaration outside any block takes its number in the whole document (`Declared`), a field line takes
its number in its block (`FieldOf`).  Validation keeps registries of both (`registered_before`), and so
it reports a number that is used again on exactly the lines that use it again, once each and with the
first use of it:

* `repeatedProtocols_reported` for declarations, which also says what the protocols of a report are;
* `repeatedFields_reported` for the fields of a block. -/
namespace Sproto

open Text

namespace Validation

/-! ## The entries of a document -/

/-- A declaration with a number that is met outside any block. -/
def Declared (ls : List Text) (e : Entry) : Prop :=
  ¬ Inside ls e.line ∧
    ∃ l n rest, ls[e.line]? = some l ∧ Shape.read l = .protocol e.name (some n) rest ∧
      n.value = e.number

/-- A field line of the block of the kind `k` that line `j` starts. -/
def FieldOf (ls : List Text) (k : BlockKind) (j : Nat) (e : Entry) : Prop :=
  InBlock ls k j e.line ∧
    ∃ l n, ls[e.line]? = some l ∧ IsFieldLine l e.name n ∧ n.value = e.number

theorem onePerLine_declared (ls : List Text) : OnePerLine (Declared ls) := by
  rintro ⟨name, number, line⟩ ⟨name', number', line'⟩ ⟨-, l, n, rest, hl, hread, hn⟩
    ⟨-, l', n', rest', hl', hread', hn'⟩ hline
  simp only at hl hl' hread hread' hn hn' hline
  subst hline
  rw [hl] at hl'
  cases hl'
  rw [hread] at hread'
  cases hread'
  rw [← hn, ← hn']

theorem onePerLine_fieldOf {ls : List Text} (hls : ∀ l ∈ ls, '\n' ∉ l) (k : BlockKind) (j : Nat) :
    OnePerLine (FieldOf ls k j) := by
  rintro ⟨name, number, line⟩ ⟨name', number', line'⟩ ⟨-, l, n, hl, hfield, hn⟩
    ⟨-, l', n', hl', hfield', hn'⟩ hline
  simp only at hl hl' hfield hfield' hn hn' hline
  subst hline
  rw [hl] at hl'
  cases hl'
  obtain ⟨rfl, rfl⟩ := hfield.unique (hls l (List.mem_of_getElem? hl)) hfield'
  rw [← hn, ← hn']

/-! ## What messages cite -/

/-- The message on a declaration whose number `first` has taken. -/
def protocolCitation (e first : Entry) : String :=
  "Duplicate protocol number " ++ toString e.number ++ ". Already used by \x27" ++
    String.ofList first.name ++ "\x27 at line " ++ toString (first.line + 1)

/-- The message on a field whose number `first` has taken in a block of the kind `k`. -/
def fieldCitation (k : BlockKind) (e first : Entry) : String :=
  "Duplicate field number " ++ toString e.number ++ " in " ++ String.ofList k.word ++
    " block. Already used by \x27" ++ String.ofList first.name ++ "\x27 at line " ++
    toString (first.line + 1)

/-- The end of one sentence and the start of the next may be put together. -/
theorem append_sentence (a b c x y z : String) :
    a ++ b ++ (c ++ x ++ y ++ z) = a ++ (b ++ c) ++ x ++ y ++ z := by
  simp only [String.append_assoc]

theorem message_repeatedProtocol (e first : Entry) :
    (Problem.repeatedProtocol e.number first).message = protocolCitation e first :=
  append_sentence _ "." " Already used by \x27" _ _ _

theorem message_repeatedField (k : BlockKind) (e first : Entry) :
    (Problem.repeatedField e.number k first).message = fieldCitation k e first :=
  append_sentence _ " block." " Already used by \x27" _ _ _

theorem filter_punctuationFindings {code : String} (hc : code ≠ "chinese-punctuation") (t : Token) :
    ((punctuationFindings t).filter fun f => f.problem.code = code) = [] := by
  rw [List.filter_eq_nil_iff]
  intro f hf hcode
  obtain ⟨-, mark, replacement, hproblem⟩ := mem_punctuationFindings hf
  rw [hproblem] at hcode
  exact hc (of_decide_eq_true hcode).symm

theorem filter_typeFindings {code : String} (hc : code ≠ "dotted-protocol-number") (t : Token)
    (name : Text) : ((typeFindings t name).filter fun f => f.problem.code = code) = [] := by
  rw [List.filter_eq_nil_iff]
  intro f hf hcode
  rw [(mem_typeFindings hf).2] at hcode
  exact hc (of_decide_eq_true hcode).symm

theorem filter_faultOf {code : String}
    (hc : code ∉ ["missing-type", "missing-colon", "missing-number-and-type", "invalid-field"])
    (t : Token) : ([checkField.faultOf t].filter fun f => f.problem.code = code) = [] := by
  rw [List.filter_eq_nil_iff]
  intro f hf hcode
  obtain rfl := List.mem_singleton.mp hf
  have hproblem := problem_faultOf t
  generalize (checkField.faultOf t).problem = p at hproblem hcode
  refine hc ?_
  rw [← of_decide_eq_true hcode]
  simp only [List.mem_cons, List.not_mem_nil, or_false] at hproblem
  rcases hproblem with rfl | rfl | rfl | rfl
  all_goals simp [Problem.code]

section

variable {ls : List Text} {i : Nat} {l : Text} {s s' : State} {fs : List Finding}

/-- The registries of a state, when line `i` is met. -/
structure State.Registered (ls : List Text) (i : Nat) (s : State) : Prop where
  protocols : Registry (Declared ls) i s.protocols
  fields : ∀ {k fields}, s.context = .block k fields →
    ∃ j, InBlock ls k j i ∧ Registry (FieldOf ls k j) i fields

/-- A line inside a block, or one that is no numbered declaration, declares nothing. -/
theorem declared_line (hl : ls[i]? = some l) (hs : s.context.Fits ls i) {e : Entry}
    (he : Declared ls e) (hi : e.line = i) :
    s.context = .top ∧ ∃ n rest, Shape.read l = .protocol e.name (some n) rest ∧
      n.value = e.number := by
  obtain ⟨hout, l', n, rest, hl', hread, hn⟩ := he
  rw [hi] at hl' hout
  rw [hl] at hl'
  cases hl'
  refine ⟨?_, n, rest, hread, hn⟩
  generalize s.context = c at hs
  cases hs with
  | top => rfl
  | block hblock => exact absurd hblock.inside hout

theorem declared_of_shape (hl : ls[i]? = some l) (hs : Context.Fits ls i .top) {name rest : Text}
    {n : Numeral} (hshape : Shape.read l = .protocol name (some n) rest) :
    Declared ls ⟨name, n.value, i⟩ :=
  ⟨hs.not_inside, l, n, rest, hl, hshape, rfl⟩

/-- A line outside any block, or one that is no field line, is no field of any block. -/
theorem fieldOf_line (hl : ls[i]? = some l) (hs : s.context.Fits ls i) {k : BlockKind} {j : Nat}
    {e : Entry} (he : FieldOf ls k j e) (hi : e.line = i) :
    s.context ≠ .top ∧ InBlock ls k j i ∧ ∃ n, IsFieldLine l e.name n ∧ n.value = e.number := by
  obtain ⟨hblock, l', n, hl', hfield, hn⟩ := he
  rw [hi] at hl' hblock
  rw [hl] at hl'
  cases hl'
  refine ⟨fun htop => ?_, hblock, n, hfield, hn⟩
  rw [htop] at hs
  exact hs.not_inside hblock.inside

theorem not_isFieldLine_of_closeBrace (h : Shape.read l = .closeBrace) (hl : '\n' ∉ l) (name : Text)
    (n : Numeral) : ¬ IsFieldLine l name n := by
  intro hfield
  obtain ⟨body, hread, -⟩ := (isFieldLine_iff hl).mp hfield
  rw [h] at hread
  cases hread

/-! ## What a line does to the registries -/

/-- **What a line declares**: nothing, a new number, or a number that is taken. -/
theorem Moves.declaration_cases (hl : ls[i]? = some l) (hs : s.context.Fits ls i)
    (h : Moves s (Token.read i l) s' fs) :
    ((∀ e, Declared ls e → e.line ≠ i) ∧ s'.protocols = s.protocols ∧
        (fs.filter fun f => f.problem.code = "duplicate-protocol") = []) ∨
      (∃ e, Declared ls e ∧ e.line = i ∧ taken? s.protocols e.number = none ∧
        s'.protocols = s.protocols ++ [e] ∧
        (fs.filter fun f => f.problem.code = "duplicate-protocol") = []) ∨
      ∃ e first, Declared ls e ∧ e.line = i ∧ taken? s.protocols e.number = some first ∧
        s'.protocols = s.protocols ∧
        (fs.filter fun f => f.problem.code = "duplicate-protocol").map (fun f => f.problem.message) =
          [protocolCitation e first] := by
  have hpunct := @filter_punctuationFindings "duplicate-protocol" (by simp) (Token.read i l)
  have htype := @filter_typeFindings "duplicate-protocol" (by simp) (Token.read i l)
  have hnone : (s.context = .top → ∀ name n rest, Shape.read l ≠ .protocol name (some n) rest) →
      ∀ e, Declared ls e → e.line ≠ i := by
    intro hshape e he hi
    obtain ⟨htop, n, rest, hread, -⟩ := declared_line hl hs he hi
    exact hshape htop _ _ _ hread
  have hblock : ∀ {k fields}, s.context = .block k fields → ∀ e, Declared ls e → e.line ≠ i := by
    intro k fields hcontext
    exact hnone fun htop => by rw [hcontext] at htop; cases htop
  cases h with
  | header htop hlabel hshape =>
    refine Or.inl ⟨hnone fun _ name n rest hread => ?_, rfl, rfl⟩
    rcases hshape with h | h
    · rw [Token.read_shape, hread] at h; cases h
    · rw [Token.read_shape, hread] at h; cases h
  | @register name rest n htop hshape hfree =>
    rw [htop] at hs
    refine Or.inr (Or.inl ⟨_, declared_of_shape hl hs hshape, rfl, hfree, rfl, ?_⟩)
    rw [List.filter_append, hpunct, htype, List.nil_append]
  | @repeatProtocol name rest n first htop hshape htaken =>
    rw [htop] at hs
    refine Or.inr (Or.inr ⟨_, first, declared_of_shape hl hs hshape, rfl, htaken, rfl, ?_⟩)
    rw [List.filter_append, List.filter_append, hpunct, htype, List.nil_append, List.nil_append,
      ← message_repeatedProtocol]
    rfl
  | enter htop hshape =>
    refine Or.inl ⟨hnone fun _ name n rest hread => ?_, rfl, hpunct⟩
    rw [Token.read_shape, hread] at hshape
    cases hshape
  | pass htop hlabel hprotocol hstart => exact Or.inl ⟨hnone fun _ => hprotocol, rfl, hpunct⟩
  | leave hcontext => exact Or.inl ⟨hblock hcontext, rfl, rfl⟩
  | take hcontext | skip hcontext => exact Or.inl ⟨hblock hcontext, rfl, hpunct⟩
  | repeatField hcontext =>
    refine Or.inl ⟨hblock hcontext, rfl, ?_⟩
    rw [List.filter_append, hpunct, List.nil_append]
    rfl
  | fault hcontext =>
    refine Or.inl ⟨hblock hcontext, rfl, ?_⟩
    rw [List.filter_append, hpunct, List.nil_append, filter_faultOf (by simp)]

/-- **What a line takes in its block**: nothing, a new number, or a number that is taken. -/
theorem Moves.field_cases (hl : ls[i]? = some l) (hfeed : '\n' ∉ l) (hs : s.context.Fits ls i)
    (h : Moves s (Token.read i l) s' fs) :
    ((∀ k j e, FieldOf ls k j e → e.line ≠ i) ∧
        (s'.context = s.context ∨ ∀ k fields, s'.context = .block k fields →
          fields = [] ∧ InBlock ls k i (i + 1)) ∧
        (fs.filter fun f => f.problem.code = "duplicate-field") = []) ∨
      (∃ k fields e, s.context = .block k fields ∧ (∀ j, InBlock ls k j i → FieldOf ls k j e) ∧
        e.line = i ∧ taken? fields e.number = none ∧ s'.context = .block k (fields ++ [e]) ∧
        (fs.filter fun f => f.problem.code = "duplicate-field") = []) ∨
      ∃ k fields e first, s.context = .block k fields ∧
        (∀ j, InBlock ls k j i → FieldOf ls k j e) ∧ e.line = i ∧
        taken? fields e.number = some first ∧ s'.context = s.context ∧
        (fs.filter fun f => f.problem.code = "duplicate-field").map (fun f => f.problem.message) =
          [fieldCitation k e first] := by
  have hpunct := @filter_punctuationFindings "duplicate-field" (by simp) (Token.read i l)
  have htype := @filter_typeFindings "duplicate-field" (by simp) (Token.read i l)
  have htopnone : s.context = .top → ∀ k j e, FieldOf ls k j e → e.line ≠ i := by
    intro htop k j e he hi
    exact (fieldOf_line hl hs he hi).1 htop
  have hnone : (∀ name n, ¬ IsFieldLine l name n) → ∀ k j e, FieldOf ls k j e → e.line ≠ i := by
    intro hnot k j e he hi
    obtain ⟨-, -, n, hline, -⟩ := fieldOf_line hl hs he hi
    exact hnot _ _ hline
  have hfield : ∀ {k name n}, IsFieldLine l name n → ∀ j, InBlock ls k j i →
      FieldOf ls k j ⟨name, n.value, i⟩ := by
    intro k name n hline j hj
    exact ⟨hj, l, n, hl, hline, rfl⟩
  cases h with
  | header htop => exact Or.inl ⟨htopnone htop, Or.inl rfl, rfl⟩
  | register htop =>
    refine Or.inl ⟨htopnone htop, Or.inl rfl, ?_⟩
    rw [List.filter_append, hpunct, htype, List.nil_append]
  | repeatProtocol htop =>
    refine Or.inl ⟨htopnone htop, Or.inl rfl, ?_⟩
    rw [List.filter_append, List.filter_append, hpunct, htype, List.nil_append, List.nil_append]
    rfl
  | @enter k rest htop hshape =>
    refine Or.inl ⟨htopnone htop, Or.inr ?_, hpunct⟩
    intro k' fields hcontext
    cases hcontext
    rw [htop] at hs
    refine ⟨rfl, InBlock.of_start hs.not_inside ?_⟩
    rw [blockStart?_eq hl, ← Token.read_shape i l, hshape]
    rfl
  | pass htop => exact Or.inl ⟨htopnone htop, Or.inl rfl, hpunct⟩
  | leave hcontext hshape =>
    refine Or.inl ⟨hnone (not_isFieldLine_of_closeBrace hshape hfeed), Or.inr ?_, rfl⟩
    intro k fields h
    cases h
  | take hcontext hclose hline hfree =>
    exact Or.inr (Or.inl ⟨_, _, _, hcontext, hfield hline, rfl, hfree, rfl, hpunct⟩)
  | @repeatField k fields name body n first hcontext hshape hline htaken =>
    refine Or.inr (Or.inr ⟨_, _, _, first, hcontext, hfield hline, rfl, htaken, rfl, ?_⟩)
    rw [List.filter_append, hpunct, List.nil_append, ← message_repeatedField]
    rfl
  | skip hcontext hclose hnot => exact Or.inl ⟨hnone hnot, Or.inl rfl, hpunct⟩
  | fault hcontext hclose hnot =>
    refine Or.inl ⟨hnone hnot, Or.inl rfl, ?_⟩
    rw [List.filter_append, hpunct, List.nil_append, filter_faultOf (by simp)]

/-- **A line keeps both registries.** -/
theorem Moves.registered (hls : ∀ l ∈ ls, '\n' ∉ l) (hl : ls[i]? = some l)
    (hs : s.context.Fits ls i) (hreg : s.Registered ls i) (h : Moves s (Token.read i l) s' fs) :
    s'.Registered ls (i + 1) := by
  constructor
  · have hone := onePerLine_declared ls
    rcases h.declaration_cases hl hs with ⟨hnone, heq, -⟩ | ⟨e, he, hi, hfree, heq, -⟩ |
      ⟨e, first, he, hi, htaken, heq, -⟩
    · rw [heq]
      exact hreg.protocols.succ fun e he => hnone e he.1
    · rw [heq]
      exact hreg.protocols.add hone he hi hfree
    · rw [heq]
      exact hreg.protocols.succ_of_repeats hone
        ((hreg.protocols.taken?_iff_repeats hone he hi).mp htaken) hi
  · intro k fields' hcontext'
    have hfits := h.fits hl hs
    rw [hcontext'] at hfits
    obtain ⟨j', hj'⟩ := hfits.inBlock
    rcases h.field_cases hl (hls l (List.mem_of_getElem? hl)) hs with ⟨hnone, heq | hstart, -⟩ |
      ⟨k₀, fields, e, hcontext, hfield, hi, hfree, heq, -⟩ |
      ⟨k₀, fields, e, first, hcontext, hfield, hi, htaken, heq, -⟩
    · obtain ⟨j, hj, hfields⟩ := hreg.fields (heq.symm.trans hcontext')
      obtain ⟨-, rfl⟩ := hj.eq_of_succ hj'
      exact ⟨j, hj', hfields.succ fun e he => hnone k j e he.1⟩
    · obtain ⟨rfl, hblock⟩ := hstart k fields' hcontext'
      exact ⟨i, hblock, .nil fun e he => he.1.lt⟩
    · obtain ⟨j, hj, hfields⟩ := hreg.fields hcontext
      rw [hcontext'] at heq
      cases heq
      obtain ⟨-, rfl⟩ := hj.eq_of_succ hj'
      exact ⟨j, hj', hfields.add (onePerLine_fieldOf hls k j) (hfield j hj) hi hfree⟩
    · obtain ⟨j, hj, hfields⟩ := hreg.fields hcontext
      rw [hcontext', hcontext] at heq
      cases heq
      obtain ⟨-, rfl⟩ := hj.eq_of_succ hj'
      have hone := onePerLine_fieldOf hls k j
      exact ⟨j, hj', hfields.succ_of_repeats hone
        ((hfields.taken?_iff_repeats hone (hfield j hj) hi).mp htaken) hi⟩

/-- **Every line is met with the registries of the lines above it.** -/
theorem registered_before (hls : ∀ l ∈ ls, '\n' ∉ l) (hi : i ≤ ls.length) :
    (State.before ls i).Registered ls i := by
  induction i with
  | zero =>
    refine ⟨.nil fun e _ => Nat.zero_le _, fun h => ?_⟩
    cases h
  | succ i ih =>
    have hl : ls[i]? = some ls[i] := List.getElem?_eq_getElem hi
    have hgenuine := Token.genuine_read (hls _ (List.getElem_mem hi)) i
    rw [State.before_succ hl]
    exact (moves_step _ hgenuine).registered hls hl (fits_before hls (by omega)) (ih (by omega))

end

/-- On one line of a document the number of a protocol is reported as taken exactly when it is. -/
theorem foundAt_duplicateProtocol {ls : List Text} (hls : ∀ l ∈ ls, '\n' ∉ l) {i : Nat} {l : Text}
    (hl : ls[i]? = some l) :
    (∃ e first, Repeats (Declared ls) e first ∧ e.line = i ∧
      (foundAt ls "duplicate-protocol" i l).map (fun f => f.problem.message) =
        [protocolCitation e first]) ∨
    (foundAt ls "duplicate-protocol" i l = [] ∧
      ∀ e first, Repeats (Declared ls) e first → e.line ≠ i) := by
  obtain ⟨hi, -⟩ := List.getElem?_eq_some_iff.mp hl
  have hone := onePerLine_declared ls
  have hreg := (registered_before hls (Nat.le_of_lt hi)).protocols
  have hmove := moves_step (State.before ls i)
    (Token.genuine_read (hls l (List.mem_of_getElem? hl)) i)
  rcases hmove.declaration_cases hl (fits_before hls (Nat.le_of_lt hi)) with ⟨hnone, -, hnil⟩ |
    ⟨e, he, hline, hfree, -, hnil⟩ | ⟨e, first, he, hline, htaken, -, hcite⟩
  · exact Or.inr ⟨hnil, fun e first hrep => hnone e hrep.entry⟩
  · refine Or.inr ⟨hnil, fun e' first hrep hline' => ?_⟩
    obtain rfl := hone e' e hrep.entry he (by omega)
    rw [(hreg.taken?_iff_repeats hone he hline).mpr hrep] at hfree
    cases hfree
  · exact Or.inl ⟨e, first, (hreg.taken?_iff_repeats hone he hline).mp htaken, hline, hcite⟩

/-- On one line of a document the number of a field is reported as taken exactly when it is. -/
theorem foundAt_duplicateField {ls : List Text} (hls : ∀ l ∈ ls, '\n' ∉ l) {i : Nat} {l : Text}
    (hl : ls[i]? = some l) :
    (∃ k j e first, Repeats (FieldOf ls k j) e first ∧ e.line = i ∧
      (foundAt ls "duplicate-field" i l).map (fun f => f.problem.message) =
        [fieldCitation k e first]) ∨
    (foundAt ls "duplicate-field" i l = [] ∧
      ∀ k j e first, Repeats (FieldOf ls k j) e first → e.line ≠ i) := by
  obtain ⟨hi, -⟩ := List.getElem?_eq_some_iff.mp hl
  have hfeed := hls l (List.mem_of_getElem? hl)
  have hreg := registered_before hls (Nat.le_of_lt hi)
  have hmove := moves_step (State.before ls i) (Token.genuine_read hfeed i)
  rcases hmove.field_cases hl hfeed (fits_before hls (Nat.le_of_lt hi)) with ⟨hnone, -, hnil⟩ |
    ⟨k, fields, e, hcontext, hfield, hline, hfree, -, hnil⟩ |
    ⟨k, fields, e, first, hcontext, hfield, hline, htaken, -, hcite⟩
  · exact Or.inr ⟨hnil, fun k j e first hrep => hnone k j e hrep.entry⟩
  · obtain ⟨j, hj, hfields⟩ := hreg.fields hcontext
    refine Or.inr ⟨hnil, fun k' j' e' first hrep hline' => ?_⟩
    -- the line has one block and one entry
    have hj' : InBlock ls k' j' i := hline' ▸ hrep.entry.1
    obtain ⟨rfl, rfl⟩ := hj.unique hj'
    have hone := onePerLine_fieldOf hls k j
    obtain rfl := hone e' e hrep.entry (hfield j hj) (by omega)
    rw [(hfields.taken?_iff_repeats hone (hfield j hj) hline).mpr hrep] at hfree
    cases hfree
  · obtain ⟨j, hj, hfields⟩ := hreg.fields hcontext
    have hone := onePerLine_fieldOf hls k j
    exact Or.inl ⟨k, j, e, first,
      (hfields.taken?_iff_repeats hone (hfield j hj) hline).mp htaken, hline, hcite⟩

end Validation

open Validation

/-! ## What is reported -/

/-- **Protocol numbers that are used twice are reported exactly.**  Each declaration outside any block
whose number an earlier one has taken gets one issue, which cites the first declaration with that
number; no other line gets one.  The protocols of the report are the first declarations of each number,
in their order. -/
theorem repeatedProtocols_reported {source : Text} {r : Report} (h : validate source = .ok r) :
    r.ReportsExactly "duplicate-protocol" (fun i m =>
        ∃ e first, Repeats (Declared (lines source)) e first ∧ e.line = i ∧
          m = protocolCitation e first) ∧
      (∀ e, e ∈ r.protocols ↔ Earliest (Declared (lines source)) e) ∧
      (r.protocols.map Entry.number).Nodup ∧
      r.protocols.Pairwise fun e e' => e.line < e'.line := by
  have hls : ∀ l ∈ lines source, '\n' ∉ l := fun l hl => not_mem_of_mem_lines hl
  have hone := onePerLine_declared (lines source)
  have hreg : Registry (Declared (lines source)) (lines source).length r.protocols := by
    obtain ⟨rfl, -⟩ := validate_eq_ok_iff.mp h
    have hend := (registered_before hls (Nat.le_refl _)).protocols
    rwa [State.before_length] at hend
  refine ⟨reportsExactly_of_lines h ?_ ?_, fun e => ?_, ?_, hreg.ordered⟩
  · rintro i m ⟨e, first, hrep, rfl, -⟩
    obtain ⟨-, l, -, -, hl, -⟩ := hrep.entry
    exact ⟨l, hl⟩
  · intro i l hl
    rcases foundAt_duplicateProtocol hls hl with ⟨e, first, hrep, hline, hcite⟩ | ⟨hnil, hnone⟩
    · refine Or.inl ⟨_, hcite, fun m' => ?_⟩
      constructor
      · rintro ⟨e', first', hrep', hline', rfl⟩
        obtain ⟨rfl, rfl⟩ := hrep.unique hone hrep' (by omega)
        rfl
      · rintro rfl
        exact ⟨e, first, hrep, hline, rfl⟩
    · refine Or.inr ⟨hnil, ?_⟩
      rintro m ⟨e, first, hrep, hline, -⟩
      exact hnone e first hrep hline
  · rw [hreg.mem_iff]
    refine and_iff_left_of_imp fun he => ?_
    obtain ⟨-, l, -, -, hl, -⟩ := he.1
    exact (List.getElem?_eq_some_iff.mp hl).1
  · rw [List.Nodup, List.pairwise_map]
    refine hreg.ordered.imp_of_mem fun {e e'} he he' hlt hnumber => ?_
    have hsame := ((hreg.mem_iff e).mp he).1.unique hone ((hreg.mem_iff e').mp he').1 hnumber
    rw [hsame] at hlt
    omega

/-- Declarations with the number one: one swallowed by a block, one of a type, one with leading
zeros. -/
def crowdedSource : Text :=
  "#### Base\nfoo 1 \x7b\nrequest \x7b\nbar 1 \x7b\n\x7d\n\x7d\n.Baz 1 \x7b\nfoo 001 \x7b".toList

/-- The declarations on the last two lines repeat the one on line 1; the one inside the block counts for
nothing. -/
theorem repeatedProtocols_crowdedSource :
    ∃ r, validate crowdedSource = .ok r ∧
      r.protocols = [⟨"foo".toList, 1, 1⟩] ∧
      ((r.issues.filter fun x => x.code = some "duplicate-protocol").map fun x => (x.line, x.message)) =
        [(6, "Duplicate protocol number 1. Already used by \x27foo\x27 at line 2"),
          (7, "Duplicate protocol number 1. Already used by \x27foo\x27 at line 2")] ∧
      r.ReportsExactly "duplicate-protocol" (fun i m =>
        ∃ e first, Repeats (Declared (lines crowdedSource)) e first ∧ e.line = i ∧
          m = protocolCitation e first) ∧
      (∀ e, e ∈ r.protocols ↔ Earliest (Declared (lines crowdedSource)) e) ∧
      (r.protocols.map Entry.number).Nodup ∧
      r.protocols.Pairwise fun e e' => e.line < e'.line := by
  have h : validate crowdedSource = .ok (Report.ofTokens (Token.ofLines (lines crowdedSource))) := by
    decide +kernel
  exact ⟨_, h, by decide +kernel, by decide +kernel, repeatedProtocols_reported h⟩

/-- **Field numbers that are used twice in a block are reported exactly.**  Each field line whose number
an earlier field line of the same block has taken gets one issue, which names the kind of the block and
cites the first line with that number; no other line gets one. -/
theorem repeatedFields_reported {source : Text} {r : Report} (h : validate source = .ok r) :
    r.ReportsExactly "duplicate-field" fun i m =>
      ∃ k j e first, Repeats (FieldOf (lines source) k j) e first ∧ e.line = i ∧
        m = fieldCitation k e first := by
  have hls : ∀ l ∈ lines source, '\n' ∉ l := fun l hl => not_mem_of_mem_lines hl
  refine reportsExactly_of_lines h ?_ ?_
  · rintro i m ⟨k, j, e, first, hrep, rfl, -⟩
    obtain ⟨-, l, -, hl, -⟩ := hrep.entry
    exact ⟨l, hl⟩
  · intro i l hl
    rcases foundAt_duplicateField hls hl with ⟨k, j, e, first, hrep, hline, hcite⟩ | ⟨hnil, hnone⟩
    · refine Or.inl ⟨_, hcite, fun m' => ?_⟩
      constructor
      · rintro ⟨k', j', e', first', hrep', hline', rfl⟩
        have hj : InBlock (lines source) k j i := hline ▸ hrep.entry.1
        have hj' : InBlock (lines source) k' j' i := hline' ▸ hrep'.entry.1
        obtain ⟨rfl, rfl⟩ := hj.unique hj'
        obtain ⟨rfl, rfl⟩ := hrep.unique (onePerLine_fieldOf hls k j) hrep' (by omega)
        rfl
      · rintro rfl
        exact ⟨k, j, e, first, hrep, hline, rfl⟩
    · refine Or.inr ⟨hnil, ?_⟩
      rintro m ⟨k, j, e, first, hrep, hline, -⟩
      exact hnone k j e first hrep hline

/-- Two blocks with fields of the number one: spelled in two scripts, behind a block start that opens
nothing, and once without a type. -/
def crowdedBlocks : Text :=
  ("foo 1 \x7b\n request \x7b\n  a 1:\n  b 01 : int\n  response \x7b\n  c ١: *str # again\n".toList ++
    " \x7d\n response \x7b\n  a 1: (x)\n  a １: int\n \x7d\n\x7d".toList)

/-- In the first block the field without a type takes no number and the second one does; in the other block
the number is free again. -/
theorem repeatedFields_crowdedBlocks :
    ∃ r, validate crowdedBlocks = .ok r ∧
      ((r.issues.filter fun x => x.code = some "duplicate-field").map fun x => (x.line, x.message)) =
        [(5, "Duplicate field number 1 in request block. Already used by \x27b\x27 at line 4"),
          (9, "Duplicate field number 1 in response block. Already used by \x27a\x27 at line 9")] ∧
      r.ReportsExactly "duplicate-field" fun i m =>
        ∃ k j e first, Repeats (FieldOf (lines crowdedBlocks) k j) e first ∧ e.line = i ∧
          m = fieldCitation k e first := by
  have h : validate crowdedBlocks = .ok (Report.ofTokens (Token.ofLines (lines crowdedBlocks))) := by
    decide +kernel
  exact ⟨_, h, by decide +kernel, repeatedFields_reported h⟩

end Sproto
