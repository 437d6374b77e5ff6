import Sproto.Proofs.Validation.Extent
import Sproto.Proofs.Validation.Report

/-! # Blocks do not interfere

What stands inside a block matters to no line outside it.  Inside a block a pass takes field numbers and
nothing else (`Moves.eq_of_inside`), and the closing brace gives them up, so a block leaves the pass as
it was before the block started (`run_block`).  Two documents that differ inside one block only, on as
many lines, therefore have the same issues on all other lines, and the same protocols and modules
(`validate_bracketed`). -/
namespace Sproto

open Text

namespace Validation

/-! ## A pass through a block -/

section

variable {s s' : State} {k : BlockKind} {fields : List Entry}

/-- **Inside a block nothing changes but the numbers that are taken in it.** -/
theorem Moves.eq_of_inside {t : Token} {fs : List Finding} (h : Moves s t s' fs)
    (hs : s.context = .block k fields) (hclose : t.shape ≠ .closeBrace) :
    ∃ fields', s' = { s with context := .block k fields' } := by
  have hself : s = { s with context := .block k fields } := (State.context_eq_self hs).symm
  cases h with
  | header htop | register htop | repeatProtocol htop | enter htop | pass htop =>
    rw [hs] at htop
    cases htop
  | leave hcontext hshape => exact absurd hshape hclose
  | take hcontext =>
    rw [hs] at hcontext
    cases hcontext
    exact ⟨_, rfl⟩
  | repeatField | skip | fault => exact ⟨fields, hself⟩

theorem run_inside {ts : List Token} (hts : ∀ t ∈ ts, t.Genuine)
    (hclose : ∀ t ∈ ts, t.shape ≠ .closeBrace) (hs : s.context = .block k fields) :
    ∃ fields', (s.run ts).1 = { s with context := .block k fields' } := by
  induction ts generalizing s fields with
  | nil => exact ⟨fields, (State.context_eq_self hs).symm⟩
  | cons t ts ih =>
    obtain ⟨ht, htail⟩ := List.forall_mem_cons.mp hts
    obtain ⟨hopen, hrest⟩ := List.forall_mem_cons.mp hclose
    obtain ⟨fields', hstep⟩ := (moves_step s ht).eq_of_inside hs hopen
    obtain ⟨fields'', hrun⟩ := @ih (s.step t).1 fields' htail hrest (by rw [hstep])
    refine ⟨fields'', ?_⟩
    rw [State.run_cons, hrun, hstep]

/-- **A block leaves a pass as it was.**  What is found in it lies on its lines. -/
theorem run_block {t c : Token} {inner : List Token} {rest : Text} (hs : s.context = .top)
    (ht : t.Genuine) (hshape : t.shape = .block k false rest) (hinner : ∀ u ∈ inner, u.Genuine)
    (hopen : ∀ u ∈ inner, u.shape ≠ .closeBrace) (hc : c.shape = .closeBrace) (post : List Token) :
    ∃ found, (∀ f ∈ found, ∃ u ∈ inner, f.line = u.index) ∧
      s.run (t :: (inner ++ c :: post)) =
        ((s.run post).1, punctuationFindings t ++ (found ++ (s.run post).2)) := by
  obtain ⟨fields, hrun⟩ :=
    @run_inside { s with context := .block k [] } k [] inner hinner hopen rfl
  have hleave : ({ s with context := .block k fields } : State).step c = (s, []) := by
    rw [step_of_closes rfl hc, State.context_eq_self hs]
  refine ⟨(({ s with context := .block k [] } : State).run inner).2,
    fun f hf => line_mem_of_mem_run hinner _ hf, ?_⟩
  rw [State.run_cons, step_of_opens ht hs hshape, State.run_append, hrun, State.run_cons, hleave]
  rfl

end

/-! ## A block in a document -/

/-- **What a pass finds in a document with a block in it**: the lines of the block count for themselves
only. -/
theorem run_bracketed {pre inner post : List Text} {start close : Text} {k : BlockKind} {rest : Text}
    (hpre : ∀ l ∈ pre, '\n' ∉ l) (hstart : '\n' ∉ start) (hinner : ∀ l ∈ inner, '\n' ∉ l)
    (hout : ¬ Inside pre pre.length) (hshape : Shape.read start = .block k false rest)
    (hopen : ∀ l ∈ inner, Shape.read l ≠ .closeBrace) (hclose : Shape.read close = .closeBrace) :
    ∃ found, (∀ f ∈ found, pre.length < f.line ∧ f.line ≤ pre.length + inner.length) ∧
      State.initial.run (Token.ofLines (pre ++ start :: (inner ++ close :: post))) =
        ((((State.initial.run (Token.ofLines pre)).1.run
            (Token.numbered (pre.length + inner.length + 2) post))).1,
          ((State.initial.run (Token.ofLines pre)).2 ++
              punctuationFindings (Token.read pre.length start)) ++
            (found ++ ((State.initial.run (Token.ofLines pre)).1.run
              (Token.numbered (pre.length + inner.length + 2) post)).2)) := by
  have htop : (State.initial.run (Token.ofLines pre)).1.context = .top := by
    have hfits := fits_before hpre (Nat.le_refl _)
    rw [State.before_length] at hfits
    generalize (State.initial.run (Token.ofLines pre)).1.context = c at hfits
    cases hfits with
    | top => rfl
    | block h => exact absurd h.inside hout
  have hgenuine : ∀ t ∈ Token.numbered (pre.length + 1) inner, t.Genuine :=
    Token.genuine_of_mem_numbered hinner
  have hshapes : ∀ t ∈ Token.numbered (pre.length + 1) inner, t.shape ≠ .closeBrace := by
    intro t ht
    obtain ⟨j, l, hl, rfl⟩ := Token.exists_of_mem_numbered ht
    exact hopen l hl
  obtain ⟨found, hfound, hrun⟩ := run_block htop (Token.genuine_read hstart pre.length) hshape
    hgenuine hshapes (show (Token.read (pre.length + 1 + inner.length) close).shape = _ from hclose)
    (Token.numbered (pre.length + 1 + inner.length + 1) post)
  refine ⟨found, ?_, ?_⟩
  · intro f hf
    obtain ⟨u, hu, hline⟩ := hfound f hf
    have hbounds := Token.index_of_mem_numbered hu
    omega
  · have hnumber : pre.length + inner.length + 2 = pre.length + 1 + inner.length + 1 := by omega
    rw [Token.ofLines_append, State.run_append, Token.numbered, Token.numbered_append,
      Token.numbered, hrun, hnumber]
    simp only [List.append_assoc]

end Validation

/-! ## Carriage returns -/

theorem Shape.opens?_eq_some_iff {sh : Shape} {k : BlockKind} :
    sh.opens? = some k ↔ ∃ rest, sh = .block k false rest := by
  constructor
  · intro h
    cases sh with
    | block k' closed rest =>
      cases closed with
      | true => cases h
      | false =>
        cases h
        exact ⟨rest, rfl⟩
    | _ => cases h
  · rintro ⟨rest, rfl⟩
    rfl

theorem Shape.trimRest_read_dropReturn (l : Text) :
    (read (dropReturn l)).trimRest = (read l).trimRest := by
  rw [← read_trimRight, trimRight_dropReturn, read_trimRight]

theorem Shape.opens?_read_dropReturn (l : Text) : (read (dropReturn l)).opens? = (read l).opens? := by
  have htrim : ∀ sh : Shape, sh.trimRest.opens? = sh.opens? := by
    intro sh
    cases sh with
    | block k closed rest => cases closed <;> rfl
    | _ => rfl
  rw [← htrim, trimRest_read_dropReturn, htrim]

theorem Shape.read_dropReturn_eq_closeBrace_iff (l : Text) :
    read (dropReturn l) = .closeBrace ↔ read l = .closeBrace := by
  have htrim : ∀ sh : Shape, sh.trimRest = .closeBrace ↔ sh = .closeBrace := by
    intro sh
    cases sh <;> simp [trimRest]
  rw [← htrim, trimRest_read_dropReturn, htrim]

/-- Carriage returns at the ends of lines do not move blocks. -/
theorem inside_map_dropReturn (ls : List Text) (i : Nat) :
    Inside (ls.map dropReturn) i ↔ Inside ls i := by
  have hstart : blockStart? (ls.map dropReturn) = blockStart? ls := by
    funext j
    rw [blockStart?, blockStart?, List.getElem?_map]
    cases ls[j]? with
    | none => rfl
    | some l => exact Shape.opens?_read_dropReturn l
  have hbrace : isLoneBrace (ls.map dropReturn) = isLoneBrace ls := by
    funext j
    rw [isLoneBrace, isLoneBrace, List.getElem?_map]
    cases ls[j]? with
    | none => rfl
    | some l => exact decide_eq_decide.mpr (Shape.read_dropReturn_eq_closeBrace_iff l)
  simp only [Inside, Reaches, hstart, hbrace]

/-! ## Two documents -/

/-- The document that has the block `start`, `inner`, `}` between the lines `pre` and `post`. -/
def bracketed (pre : List Text) (start : Text) (inner post : List Text) : Text :=
  unlines (pre ++ start :: (inner ++ ['}'] :: post))

/-- Whether an issue lies on none of the `count` lines from line `first` on. -/
def Issue.isOutside (x : Issue) (first count : Nat) : Bool :=
  x.line < first || first + count ≤ x.line

theorem lines_bracketed {pre inner post : List Text} {start : Text}
    (hfeed : ∀ l ∈ pre ++ start :: (inner ++ post), '\n' ∉ l) :
    lines (bracketed pre start inner post) =
      pre.map dropReturn ++ dropReturn start ::
        (inner.map dropReturn ++ ['}'] :: post.map dropReturn) := by
  rw [bracketed, lines_unlines_eq_map (by simp)]
  · simp only [List.map_append, List.map_cons]
    rfl
  · intro l hl
    simp only [List.mem_append, List.mem_cons] at hl
    rcases hl with hl | rfl | hl | rfl | hl
    · exact hfeed l (by simp [hl])
    · exact hfeed l (by simp)
    · exact hfeed l (by simp [hl])
    · decide
    · exact hfeed l (by simp [hl])

open Validation

/-- The report on a document with a block of `count` lines in it, in which `found` is found. -/
def outerReport (pre : List Text) (start : Text) (count : Nat) (post : List Text)
    (found : List Finding) : Report :=
  let (s, front) := State.initial.run (Token.ofLines (pre.map dropReturn))
  let (s', back) := s.run (Token.numbered (pre.length + count + 2) (post.map dropReturn))
  ⟨(front ++ punctuationFindings (Token.read pre.length (dropReturn start))) ++ (found ++ back),
    s'.protocols, s'.modules⟩

theorem filter_isOutside {first count : Nat} (front back : List Finding) {found : List Finding}
    (hfound : ∀ f ∈ found, first ≤ f.line ∧ f.line < first + count) :
    ((front ++ (found ++ back)).map Finding.issue).filter (·.isOutside first count) =
      ((front ++ back).map Finding.issue).filter (·.isOutside first count) := by
  have hnil : (found.map Finding.issue).filter (·.isOutside first count) = [] := by
    rw [List.filter_eq_nil_iff]
    intro x hx hout
    obtain ⟨f, hf, rfl⟩ := List.mem_map.mp hx
    have hbounds := hfound f hf
    simp only [Issue.isOutside, Bool.or_eq_true, decide_eq_true_eq] at hout
    rw [Finding.issue_line] at hout
    omega
  simp only [List.map_append, List.filter_append, hnil, List.nil_append]

/-- The report on a document with a block in it: what the block holds shows on its own lines only. -/
theorem report_bracketed {pre inner post : List Text} {start : Text} {k : BlockKind} {rest : Text}
    (hfeed : ∀ l ∈ pre ++ start :: (inner ++ post), '\n' ∉ l)
    (hshape : Shape.read start = .block k false rest) (hout : ¬ Inside pre pre.length)
    (hopen : ∀ l ∈ inner, Shape.read l ≠ .closeBrace) {r : Report}
    (hr : validate (bracketed pre start inner post) = .ok r) :
    ∃ found, (∀ f ∈ found, pre.length + 1 ≤ f.line ∧ f.line < pre.length + 1 + inner.length) ∧
      r = outerReport pre start inner.length post found := by
  obtain ⟨rfl, -⟩ := validate_eq_ok_iff.mp hr
  have hfeed' : ∀ l ∈ pre ++ start :: (inner ++ post), '\n' ∉ dropReturn l :=
    fun l hl h => hfeed l hl (mem_of_mem_dropReturn h)
  have hstart : (Shape.read (dropReturn start)).opens? = some k := by
    rw [Shape.opens?_read_dropReturn]
    exact Shape.opens?_eq_some_iff.mpr ⟨rest, hshape⟩
  obtain ⟨rest', hshape'⟩ := Shape.opens?_eq_some_iff.mp hstart
  obtain ⟨found, hfound, hrun⟩ := @run_bracketed (pre.map dropReturn) (inner.map dropReturn)
    (post.map dropReturn) (dropReturn start) ['}'] k rest'
    (List.forall_mem_map.mpr fun l hl => hfeed' l (by simp [hl])) (hfeed' start (by simp))
    (List.forall_mem_map.mpr fun l hl => hfeed' l (by simp [hl]))
    (by rwa [List.length_map, inside_map_dropReturn]) hshape'
    (List.forall_mem_map.mpr fun l hl h =>
      hopen l hl ((Shape.read_dropReturn_eq_closeBrace_iff l).mp h)) rfl
  rw [List.length_map, List.length_map] at hfound hrun
  refine ⟨found, fun f hf => ?_, ?_⟩
  · have hbounds := hfound f hf
    omega
  · rw [lines_bracketed hfeed, Report.ofTokens, hrun]
    rfl

/-- **Blocks do not interfere with the rest of a document.**  Two documents that differ only in what
stands inside one block, on as many lines, have the same issues on all other lines, the same protocols
and the same modules. -/
theorem validate_bracketed {pre inner₁ inner₂ post : List Text} {start : Text} {k : BlockKind}
    {rest : Text} (hfeed : ∀ l ∈ pre ++ start :: (inner₁ ++ inner₂ ++ post), '\n' ∉ l)
    (hlen : inner₁.length = inner₂.length) (hopen₁ : ∀ l ∈ inner₁, Shape.read l ≠ .closeBrace)
    (hopen₂ : ∀ l ∈ inner₂, Shape.read l ≠ .closeBrace)
    (hshape : Shape.read start = .block k false rest) (hout : ¬ Inside pre pre.length)
    {r₁ r₂ : Report} (hr₁ : validate (bracketed pre start inner₁ post) = .ok r₁)
    (hr₂ : validate (bracketed pre start inner₂ post) = .ok r₂) :
    r₁.issues.filter (·.isOutside (pre.length + 1) inner₁.length) =
        r₂.issues.filter (·.isOutside (pre.length + 1) inner₁.length) ∧
      r₁.protocols = r₂.protocols ∧ r₁.modules = r₂.modules := by
  have hsub : ∀ inner, (∀ l ∈ inner, l ∈ inner₁ ++ inner₂) →
      ∀ l ∈ pre ++ start :: (inner ++ post), '\n' ∉ l := by
    intro inner hinner l hl
    refine hfeed l ?_
    simp only [List.mem_append, List.mem_cons] at hl hinner ⊢
    rcases hl with hl | hl | hl | hl
    · exact Or.inl hl
    · exact Or.inr (Or.inl hl)
    · exact Or.inr (Or.inr (Or.inl (hinner l hl)))
    · exact Or.inr (Or.inr (Or.inr hl))
  obtain ⟨found₁, hfound₁, hrun₁⟩ := report_bracketed
    (hsub inner₁ fun l hl => List.mem_append_left _ hl) hshape hout hopen₁ hr₁
  obtain ⟨found₂, hfound₂, hrun₂⟩ := report_bracketed
    (hsub inner₂ fun l hl => List.mem_append_right _ hl) hshape hout hopen₂ hr₂
  rw [← hlen] at hrun₂ hfound₂
  rw [hrun₁, hrun₂]
  refine ⟨?_, rfl, rfl⟩
  exact (filter_isOutside _ _ hfound₁).trans (filter_isOutside _ _ hfound₂).symm

/-- What stands before a block and behind it, with the start of the block. -/
def sharedFront : List Text := ["#### Base".toList, "foo 1 \x7b".toList]

def sharedStart : Text := "  request \x7b # in".toList

def sharedBack : List Text := ["\x7d".toList, "bar 2 \x7b # ：".toList, "foo 1 \x7b".toList]

/-- Lines of a block: a declaration, a header and a block start, or else fields. -/
def strayLines : List Text :=
  ["bar 2 \x7b".toList, "#### Other".toList, "response \x7b".toList]

def plainLines : List Text := ["a 1: int".toList, "a 1: int".toList, []]

theorem validate_strayLines_plainLines :
    ∃ r₁ r₂, validate (bracketed sharedFront sharedStart strayLines sharedBack) = .ok r₁ ∧
      validate (bracketed sharedFront sharedStart plainLines sharedBack) = .ok r₂ ∧
      r₁.issues.filter (·.isOutside 3 3) = r₂.issues.filter (·.isOutside 3 3) ∧
      r₁.protocols = r₂.protocols ∧ r₁.modules = r₂.modules := by
  have hr₁ : validate (bracketed sharedFront sharedStart strayLines sharedBack) =
      .ok (Report.ofTokens
        (Token.ofLines (lines (bracketed sharedFront sharedStart strayLines sharedBack)))) := by
    decide +kernel
  have hr₂ : validate (bracketed sharedFront sharedStart plainLines sharedBack) =
      .ok (Report.ofTokens
        (Token.ofLines (lines (bracketed sharedFront sharedStart plainLines sharedBack)))) := by
    decide +kernel
  have hfeed : ∀ l ∈ sharedFront ++ sharedStart :: (strayLines ++ plainLines ++ sharedBack),
      '\n' ∉ l := by
    decide +kernel
  have hlen : strayLines.length = plainLines.length := rfl
  have hopen : ∀ l ∈ strayLines ++ plainLines, Shape.read l ≠ .closeBrace := by decide +kernel
  have hshape : Shape.read sharedStart = .block .request false " # in".toList := by decide +kernel
  have hout : ¬ Inside sharedFront sharedFront.length := by decide +kernel
  exact ⟨_, _, hr₁, hr₂, validate_bracketed hfeed hlen
    (fun l hl => hopen l (List.mem_append_left _ hl))
    (fun l hl => hopen l (List.mem_append_right _ hl)) hshape hout hr₁ hr₂⟩

end Sproto
