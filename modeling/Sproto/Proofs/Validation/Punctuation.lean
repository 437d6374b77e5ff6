import Sproto.Proofs.Validation.Header
import Sproto.Proofs.Validation.Repetition
import Sproto.Proofs.Validation.Revision

/-! # Full-width marks in a document

Validation looks for full-width marks on every line but one kind: a module header that it meets
outside any block.  An `Occurrence` is a mark in a document, with its place and the text that was
meant, and `Occurrence.Counts` says which ones are looked for.

A line is either searched or passed over (`Moves.filter_marks`), and `marks_foundAbove` carries this
over the lines of a document: above each line, what was found are the occurrences that count there, in
their order.  `marks_reported` is this at the end of the document. -/
namespace Sproto

open Text

/-! ## The marks of a line -/

namespace Punctuation

/-- The table has one replacement for each of its marks. -/
theorem replacement?_eq_some_iff {c : Char} {r : Text} :
    replacement? c = some r ↔ (c, r) ∈ table := by
  constructor
  · intro h
    obtain ⟨l₁, l₂, htable, -⟩ := List.lookup_eq_some_iff.mp h
    rw [htable]
    exact List.mem_append_right _ List.mem_cons_self
  · intro h
    have hall : ∀ p ∈ table, replacement? p.1 = some p.2 := by decide
    exact hall (c, r) h

theorem isMark_of_replacement? {c : Char} {r : Text} (h : replacement? c = some r) :
    isMark c = true := by
  rw [isMark, h]
  rfl

/-- **The marks of a text are its characters that are in the table.** -/
theorem mem_marksFrom {n column : Nat} {t r : Text} {c : Char} :
    (column, c, r) ∈ marksFrom n t ↔
      ∃ k, column = n + k ∧ t[k]? = some c ∧ replacement? c = some r := by
  induction t generalizing n with
  | nil => simp
  | cons d t ih =>
    -- the marks behind the first character, with their columns counted from it
    have htail : (column, c, r) ∈ marksFrom (n + 1) t ↔
        ∃ k, column = n + (k + 1) ∧ (d :: t)[k + 1]? = some c ∧ replacement? c = some r := by
      rw [ih]
      refine exists_congr fun k => ?_
      rw [List.getElem?_cons_succ, show n + 1 + k = n + (k + 1) by omega]
    rw [← Nat.or_exists_add_one, ← htail, Nat.add_zero, List.getElem?_cons_zero,
      Option.some.injEq, marksFrom]
    split
    · next r' hr' =>
      rw [List.mem_cons, Prod.mk.injEq, Prod.mk.injEq]
      refine or_congr_left (and_congr_right fun _ => ?_)
      constructor
      · rintro ⟨rfl, rfl⟩
        exact ⟨rfl, hr'⟩
      · rintro ⟨rfl, hr⟩
        exact ⟨rfl, Option.some.inj (hr.symm.trans hr')⟩
    · next hr' =>
      refine (or_iff_right ?_).symm
      rintro ⟨-, rfl, hr⟩
      rw [hr] at hr'
      cases hr'

theorem mem_marks {t r : Text} {column : Nat} {c : Char} :
    (column, c, r) ∈ marks t ↔ t[column]? = some c ∧ replacement? c = some r := by
  rw [marks, mem_marksFrom]
  simp

/-- The marks of a text are listed from left to right. -/
theorem pairwise_marksFrom (n : Nat) (t : Text) :
    (marksFrom n t).Pairwise fun m m' => m.1 < m'.1 := by
  induction t generalizing n with
  | nil => exact .nil
  | cons c t ih =>
    unfold marksFrom
    split
    · refine List.pairwise_cons.mpr ⟨fun m hm => ?_, ih (n + 1)⟩
      obtain ⟨k, hk, -⟩ := mem_marksFrom.mp hm
      show n < m.1
      omega
    · exact ih (n + 1)

end Punctuation

/-! ## The marks of a document -/

/-- A full-width mark in a document, and the ASCII text that was meant. -/
structure Occurrence where
  line : Nat
  column : Nat
  mark : Char
  replacement : Text

namespace Occurrence

/-- One mark stands before another one. -/
def Before (o o' : Occurrence) : Prop :=
  o.line < o'.line ∨ o.line = o'.line ∧ o.column < o'.column

/-- A mark that is looked for: it stands in the document, the table has it with its replacement, and
its line is no module header outside any block. -/
structure Counts (ls : List Text) (o : Occurrence) : Prop where
  stands : ∃ l, ls[o.line]? = some l ∧ l[o.column]? = some o.mark
  meant : (o.mark, o.replacement) ∈ Punctuation.table
  searched : ∀ label, ¬ Validation.HeaderAt ls o.line label

/-- What is found where a mark stands. -/
def finding (o : Occurrence) : Finding :=
  ⟨o.line, o.column, o.column + 1, .punctuation o.mark o.replacement⟩

/-- The issue on a mark: a warning that covers this one character and carries its replacement. -/
def issue (o : Occurrence) : Issue :=
  ⟨o.line, o.column, o.column + 1, (Problem.punctuation o.mark o.replacement).message, .warning,
    some "chinese-punctuation", .obj [("replacement", .str (String.ofList o.replacement))]⟩

/-- The marks of line `i`, as a line that is searched has them. -/
def ofLine (i : Nat) (l : Text) : List Occurrence :=
  (Punctuation.marks l).map fun (column, mark, replacement) => ⟨i, column, mark, replacement⟩

theorem mem_ofLine {i : Nat} {l : Text} {o : Occurrence} :
    o ∈ ofLine i l ↔
      o.line = i ∧ l[o.column]? = some o.mark ∧ (o.mark, o.replacement) ∈ Punctuation.table := by
  rw [ofLine, List.mem_map, ← Punctuation.replacement?_eq_some_iff, ← Punctuation.mem_marks]
  constructor
  · rintro ⟨⟨column, mark, replacement⟩, hmem, rfl⟩
    exact ⟨rfl, hmem⟩
  · rintro ⟨rfl, hmem⟩
    exact ⟨_, hmem, rfl⟩

theorem pairwise_ofLine (i : Nat) (l : Text) : (ofLine i l).Pairwise Before := by
  rw [ofLine, List.pairwise_map]
  exact (Punctuation.pairwise_marksFrom 0 l).imp fun h => Or.inr ⟨rfl, h⟩

end Occurrence

namespace Validation

theorem punctuationFindings_eq (i : Nat) (l : Text) :
    punctuationFindings (Token.read i l) = (Occurrence.ofLine i l).map Occurrence.finding := by
  rw [punctuationFindings, Occurrence.ofLine, List.map_map]
  rfl

/-- What is found on a mark covers this one character. -/
theorem exists_mark_of_mem {t : Token} {f : Finding} (h : f ∈ punctuationFindings t) :
    ∃ c r, f.problem = .punctuation c r ∧ f.stop = f.start + 1 ∧ t.text[f.start]? = some c ∧
      Punctuation.replacement? c = some r := by
  obtain ⟨⟨column, c, r⟩, hmark, rfl⟩ := List.mem_map.mp h
  exact ⟨c, r, rfl, rfl, Punctuation.mem_marks.mp hmark⟩

/-! ## What a line contributes -/

theorem filter_marks_punctuationFindings (t : Token) :
    ((punctuationFindings t).filter fun f => f.problem.code = "chinese-punctuation") =
      punctuationFindings t := by
  rw [List.filter_eq_self]
  intro f hf
  obtain ⟨-, mark, replacement, hproblem⟩ := mem_punctuationFindings hf
  rw [hproblem]
  rfl

/-- A lone closing brace holds no mark. -/
theorem punctuationFindings_closeBrace {t : Token} (ht : t.Genuine) (h : t.shape = .closeBrace) :
    punctuationFindings t = [] := by
  have hread := ht.reads
  rw [h] at hread
  have hnone : t.text.countP Punctuation.isMark = 0 := by
    cases hread with
    | closeBrace htrim =>
      rw [← Punctuation.countP_isMark_solid, ← solid_trim, htrim]
      rfl
  rw [punctuationFindings, Punctuation.marks_eq_nil_iff.mpr hnone]
  rfl

/-- **A line is searched for marks unless it is a module header outside any block.** -/
theorem Moves.filter_marks {s s' : State} {t : Token} {fs : List Finding} (ht : t.Genuine)
    (h : Moves s t s' fs) :
    (fs.filter fun f => f.problem.code = "chinese-punctuation") =
      if s.context = .top ∧ (Banner.label? t.text).isSome then [] else punctuationFindings t := by
  have hmarks := filter_marks_punctuationFindings t
  have htype := @filter_typeFindings "chinese-punctuation" (by decide) t
  have hfault := @filter_faultOf "chinese-punctuation" (by decide) t
  have hinside : ∀ {k fields}, s.context = .block k fields →
      ¬ (s.context = .top ∧ (Banner.label? t.text).isSome) := by
    rintro k fields hs ⟨htop, -⟩
    rw [hs] at htop
    cases htop
  have hunlabelled : Banner.label? t.text = none →
      ¬ (s.context = .top ∧ (Banner.label? t.text).isSome) := by
    rintro hl ⟨-, hsome⟩
    rw [hl] at hsome
    cases hsome
  cases h with
  | header hs hl =>
    rw [if_pos ⟨hs, by rw [hl]; rfl⟩]
    rfl
  | register hs hshape =>
    rw [if_neg (hunlabelled (label?_protocol ht hshape)), List.filter_append, hmarks, htype,
      List.append_nil]
  | repeatProtocol hs hshape =>
    rw [if_neg (hunlabelled (label?_protocol ht hshape)), List.filter_append, List.filter_append,
      hmarks, htype, List.nil_append]
    exact List.append_nil _
  | enter hs hshape => rw [if_neg (hunlabelled (label?_block ht hshape)), hmarks]
  | pass hs hl => rw [if_neg (hunlabelled hl), hmarks]
  | leave hs hshape =>
    rw [if_neg (hinside hs), punctuationFindings_closeBrace ht hshape]
    rfl
  | take hs | skip hs => rw [if_neg (hinside hs), hmarks]
  | repeatField hs =>
    rw [if_neg (hinside hs), List.filter_append, hmarks]
    exact List.append_nil _
  | fault hs =>
    rw [if_neg (hinside hs), List.filter_append, hmarks, hfault, List.append_nil]

variable {ls : List Text} {i : Nat}

/-- The marks of line `i` that count. -/
theorem exists_marks_step (hls : ∀ l ∈ ls, '\n' ∉ l) {l : Text} (hl : ls[i]? = some l) :
    ∃ os : List Occurrence, (∀ o, o ∈ os ↔ o.Counts ls ∧ o.line = i) ∧
      os.Pairwise Occurrence.Before ∧
      foundAt ls "chinese-punctuation" i l = os.map Occurrence.finding := by
  have hgenuine := Token.genuine_read (hls l (List.mem_of_getElem? hl)) i
  have hheader := headerAt?_eq hls hl
  rw [foundAt, (moves_step _ hgenuine).filter_marks hgenuine, Token.read_text]
  split
  · next hsome =>
    rw [if_pos hsome.1] at hheader
    obtain ⟨label, hlabel⟩ := Option.isSome_iff_exists.mp hsome.2
    refine ⟨[], fun o => iff_of_false List.not_mem_nil ?_, .nil, rfl⟩
    rintro ⟨hcounts, rfl⟩
    exact hcounts.searched label (headerAt?_eq_some_iff.mp (hheader.trans hlabel))
  · next hnone =>
    have hsearched : ∀ label, ¬ HeaderAt ls i label := by
      rw [← headerAt?_eq_none_iff, hheader]
      split
      · next htop => simpa [htop] using hnone
      · rfl
    refine ⟨Occurrence.ofLine i l, fun o => ?_, Occurrence.pairwise_ofLine i l,
      punctuationFindings_eq i l⟩
    rw [Occurrence.mem_ofLine]
    constructor
    · rintro ⟨rfl, hstands, hmeant⟩
      exact ⟨⟨⟨l, hl, hstands⟩, hmeant, hsearched⟩, rfl⟩
    · rintro ⟨hcounts, rfl⟩
      obtain ⟨l', hl', hstands⟩ := hcounts.stands
      obtain rfl := Option.some.inj (hl.symm.trans hl')
      exact ⟨rfl, hstands, hcounts.meant⟩

/-- **Above every line, the marks that count have been found, in their order.** -/
theorem marks_foundAbove (hls : ∀ l ∈ ls, '\n' ∉ l) (hi : i ≤ ls.length) :
    ∃ os : List Occurrence, (∀ o, o ∈ os ↔ o.Counts ls ∧ o.line < i) ∧
      os.Pairwise Occurrence.Before ∧
      ((foundAbove ls i).filter fun f => f.problem.code = "chinese-punctuation") =
        os.map Occurrence.finding := by
  induction i with
  | zero => exact ⟨[], fun o => by simp, .nil, rfl⟩
  | succ i ih =>
    have hl : ls[i]? = some ls[i] := List.getElem?_eq_getElem hi
    obtain ⟨os, hmem, hordered, hfound⟩ := ih (by omega)
    obtain ⟨os', hmem', hordered', hfound'⟩ := exists_marks_step hls hl
    refine ⟨os ++ os', fun o => ?_, ?_, ?_⟩
    · rw [List.mem_append, hmem, hmem', ← and_or_left, Nat.lt_succ_iff_lt_or_eq]
    · refine List.pairwise_append.mpr ⟨hordered, hordered', fun o ho o' ho' => Or.inl ?_⟩
      have hlt := ((hmem o).mp ho).2
      have heq := ((hmem' o').mp ho').2
      omega
    · rw [foundAbove_succ hl, List.filter_append, hfound, ← foundAt, hfound', List.map_append]

end Validation

open Validation

/-- **Full-width marks are reported completely.**  The issues on marks are, in document order, those of
the marks on all lines but the module headers that are met outside any block. -/
theorem marks_reported {source : Text} {r : Report} (h : validate source = .ok r) :
    ∃ os : List Occurrence, (∀ o, o ∈ os ↔ o.Counts (lines source)) ∧
      os.Pairwise Occurrence.Before ∧
      (r.issues.filter fun x => x.code = some "chinese-punctuation") = os.map Occurrence.issue := by
  have hls : ∀ l ∈ lines source, '\n' ∉ l := fun l hl => not_mem_of_mem_lines hl
  obtain ⟨os, hmem, hordered, hfound⟩ := marks_foundAbove hls (Nat.le_refl _)
  obtain ⟨rfl, -⟩ := validate_eq_ok_iff.mp h
  refine ⟨os, fun o => (hmem o).trans (and_iff_left_of_imp fun hcounts => ?_), hordered, ?_⟩
  · obtain ⟨l, hl, -⟩ := hcounts.stands
    exact (List.getElem?_eq_some_iff.mp hl).1
  · rw [foundAbove_length] at hfound
    have hissues := congrArg (List.map Finding.issue) hfound
    rw [List.map_map] at hissues
    rw [Report.issues, List.filter_map]
    refine Eq.trans (congrArg _ (List.filter_congr fun f _ => ?_)) hissues
    simp

/-- Marks in a header, in a banner without a label, in a comment, in a declaration, and inside a block
in a header that counts for nothing, in a malformed field, and behind a closing brace. -/
def markedSource : Text :=
  ("#### 模块：甲\n####：####\n# 注，释。\n.Foo 1 \x7b …（\n request \x7b\n#### Label；\n".toList ++
    "  a 1 ！ int\n \x7d\n\x7d ？—".toList)

/-- All marks are found but those in the header that counts. -/
theorem marks_markedSource :
    ∃ r, validate markedSource = .ok r ∧
      (r.findings.filter fun f => f.problem.code = "chinese-punctuation") =
        ([⟨1, 4, '：', [':']⟩, ⟨2, 3, '，', [',']⟩, ⟨2, 5, '。', ['.']⟩, ⟨3, 9, '…', ['.', '.', '.']⟩,
          ⟨3, 10, '（', ['(']⟩, ⟨5, 10, '；', [';']⟩, ⟨6, 6, '！', ['!']⟩, ⟨8, 2, '？', ['?']⟩,
          ⟨8, 3, '—', ['-']⟩] : List Occurrence).map Occurrence.finding ∧
      ∃ os : List Occurrence, (∀ o, o ∈ os ↔ o.Counts (lines markedSource)) ∧
        os.Pairwise Occurrence.Before ∧
        (r.issues.filter fun x => x.code = some "chinese-punctuation") =
          os.map Occurrence.issue := by
  have h : validate markedSource = .ok (Report.ofTokens (Token.ofLines (lines markedSource))) := by
    decide +kernel
  exact ⟨_, h, by decide +kernel, marks_reported h⟩

end Sproto
