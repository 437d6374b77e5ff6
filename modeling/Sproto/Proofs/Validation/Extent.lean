import Sproto.Proofs.Validation.Step

/-! # Where blocks lie

A block runs from a block start that is met outside any block to the next closing brace that stands
alone, or to the end.  Said of the lines alone: line `i` is met inside a block exactly when some block
start above it reaches it, with no lone closing brace in between (`Inside`).  Of the block starts that do
only one is met outside any block, and it is the one that counts (`InBlock.unique`).

Validation counts no more than this: a line is met in the context that its extent gives
(`fits_before`). -/
namespace Sproto

open Text

/-- The kind of block that a shape opens and does not close again. -/
def Shape.opens? : Shape → Option BlockKind
  | block k false _ => some k
  | _ => none

/-- The kind of block that line `j` starts. -/
def blockStart? (ls : List Text) (j : Nat) : Option BlockKind :=
  ls[j]?.bind fun l => (Shape.read l).opens?

/-- Whether line `i` is a closing brace alone. -/
def isLoneBrace (ls : List Text) (i : Nat) : Bool := ls[i]?.any fun l => Shape.read l = .closeBrace

/-- A block start on line `j` reaches line `i`: no closing brace stands alone between them. -/
def Reaches (ls : List Text) (j i : Nat) : Prop :=
  (blockStart? ls j).isSome = true ∧ ∀ m < i, j < m → isLoneBrace ls m = false

/-- Line `i` is met inside a block. -/
def Inside (ls : List Text) (i : Nat) : Prop := ∃ j < i, Reaches ls j i

instance (ls : List Text) (j i : Nat) : Decidable (Reaches ls j i) :=
  inferInstanceAs (Decidable (_ ∧ _))

instance (ls : List Text) (i : Nat) : Decidable (Inside ls i) :=
  inferInstanceAs (Decidable (∃ j < i, Reaches ls j i))

/-- Line `i` is met inside the block of the kind `k` that line `j` starts. -/
structure InBlock (ls : List Text) (k : BlockKind) (j i : Nat) : Prop where
  lt : j < i
  start : blockStart? ls j = some k
  unclosed : ∀ m < i, j < m → isLoneBrace ls m = false
  outside : ¬ Inside ls j

section

variable {ls : List Text} {k : BlockKind} {i j : Nat}

theorem not_inside_zero (ls : List Text) : ¬ Inside ls 0 := by
  rintro ⟨j, hj, -⟩
  omega

theorem InBlock.inside (h : InBlock ls k j i) : Inside ls i :=
  ⟨j, h.lt, by rw [h.start]; rfl, h.unclosed⟩

/-- **A line lies in one block at most.** -/
theorem InBlock.unique {k' : BlockKind} {j' : Nat} (h : InBlock ls k j i) (h' : InBlock ls k' j' i) :
    k = k' ∧ j = j' := by
  have hle : ∀ {k k' : BlockKind} {j j' : Nat}, InBlock ls k j i → InBlock ls k' j' i → j' ≤ j := by
    intro k k' j j' h h'
    rcases Nat.lt_or_ge j j' with hlt | hge
    · have hi := h'.lt
      have hreach : Reaches ls j j' :=
        ⟨by rw [h.start]; rfl, fun m hm hjm => h.unclosed m (by omega) hjm⟩
      exact absurd ⟨j, hlt, hreach⟩ h'.outside
    · exact hge
  obtain rfl : j = j' := Nat.le_antisymm (hle h' h) (hle h h')
  have hstart := h.start
  rw [h'.start] at hstart
  exact ⟨(Option.some.inj hstart).symm, rfl⟩

/-- Two lines in a row that are inside blocks are inside the same one. -/
theorem InBlock.eq_of_succ {k' : BlockKind} {j' : Nat} (h : InBlock ls k j i)
    (h' : InBlock ls k' j' (i + 1)) : k = k' ∧ j = j' := by
  have hne : j' ≠ i := by
    rintro rfl
    exact h'.outside h.inside
  have hlt := h'.lt
  exact h.unique ⟨by omega, h'.start, fun m hm => h'.unclosed m (by omega), h'.outside⟩

/-! ## From one line to the next -/

theorem InBlock.succ (h : InBlock ls k j i) (hi : isLoneBrace ls i = false) :
    InBlock ls k j (i + 1) := by
  refine ⟨Nat.lt_succ_of_lt h.lt, h.start, fun m hm hjm => ?_, h.outside⟩
  rcases Nat.lt_or_ge m i with hlt | hge
  · exact h.unclosed m hlt hjm
  · obtain rfl : m = i := by omega
    exact hi

theorem InBlock.of_start (h : ¬ Inside ls i) (hstart : blockStart? ls i = some k) :
    InBlock ls k i (i + 1) :=
  ⟨by omega, hstart, fun m hm him => by omega, h⟩

theorem not_inside_succ_of_isLoneBrace (h : isLoneBrace ls i = true) : ¬ Inside ls (i + 1) := by
  rintro ⟨j, hj, hstart, hunclosed⟩
  rcases Nat.lt_or_ge j i with hlt | hge
  · rw [hunclosed i (by omega) hlt] at h
    cases h
  · obtain rfl : j = i := by omega
    unfold blockStart? at hstart
    unfold isLoneBrace at h
    cases hl : ls[j]? with
    | none => rw [hl] at h; cases h
    | some l =>
      rw [hl] at hstart h
      have hread : Shape.read l = .closeBrace := by simpa using h
      simp [hread, Shape.opens?] at hstart

theorem not_inside_succ (h : ¬ Inside ls i) (hstart : blockStart? ls i = none) :
    ¬ Inside ls (i + 1) := by
  rintro ⟨j, hj, hsome, hunclosed⟩
  rcases Nat.lt_or_ge j i with hlt | hge
  · exact h ⟨j, hlt, hsome, fun m hm hjm => hunclosed m (by omega) hjm⟩
  · obtain rfl : j = i := by omega
    rw [hstart] at hsome
    cases hsome

end

/-! ## The context of a line -/

namespace Validation

/-- The context in which line `i` is met. -/
inductive Context.Fits (ls : List Text) (i : Nat) : Context → Prop
  | top (h : ¬ Inside ls i) : Fits ls i .top
  | block {k : BlockKind} {j : Nat} {fields : List Entry} (h : InBlock ls k j i) :
      Fits ls i (.block k fields)

variable {ls : List Text} {i : Nat} {l : Text}

theorem blockStart?_eq (hl : ls[i]? = some l) : blockStart? ls i = (Shape.read l).opens? := by
  rw [blockStart?, hl, Option.bind_some]

theorem isLoneBrace_eq (hl : ls[i]? = some l) :
    isLoneBrace ls i = decide (Shape.read l = .closeBrace) := by
  rw [isLoneBrace, hl, Option.any_some]

theorem Context.Fits.not_inside (h : Context.Fits ls i .top) : ¬ Inside ls i := by
  cases h with
  | top h => exact h

theorem Context.Fits.inBlock {k : BlockKind} {fields : List Entry}
    (h : Context.Fits ls i (.block k fields)) : ∃ j, InBlock ls k j i := by
  cases h with
  | block h => exact ⟨_, h⟩

theorem Context.Fits.inside_iff {context : Context} (h : context.Fits ls i) :
    Inside ls i ↔ ∃ k fields, context = .block k fields := by
  cases h with
  | top h => exact iff_of_false h (by rintro ⟨k, fields, h⟩; cases h)
  | block h => exact iff_of_true h.inside ⟨_, _, rfl⟩

/-- **A line leaves the pass in the context of the next line.** -/
theorem Moves.fits {s s' : State} {fs : List Finding} (hl : ls[i]? = some l)
    (h : Moves s (Token.read i l) s' fs) (hs : s.context.Fits ls i) : s'.context.Fits ls (i + 1) := by
  have hstay : s.context = .top → (Shape.read l).opens? = none → s.context.Fits ls (i + 1) := by
    intro htop hopen
    rw [htop] at hs ⊢
    exact .top (not_inside_succ hs.not_inside (by rw [blockStart?_eq hl, hopen]))
  have hkeep : ∀ {k fields}, s.context = .block k fields → Shape.read l ≠ .closeBrace →
      ∃ j, InBlock ls k j (i + 1) := by
    intro k fields hblock hclose
    rw [hblock] at hs
    obtain ⟨j, hj⟩ := hs.inBlock
    exact ⟨j, hj.succ (by rw [isLoneBrace_eq hl]; simpa using hclose)⟩
  cases h with
  | header hs hl' hshape =>
    refine hstay hs ?_
    rcases hshape with h | h
    · rw [← Token.read_shape i l, h]; rfl
    · rw [← Token.read_shape i l, h]; rfl
  | register hs hshape | repeatProtocol hs hshape =>
    refine hstay hs ?_
    rw [← Token.read_shape i l, hshape]
    rfl
  | enter htop hshape =>
    rw [htop] at hs
    refine .block (InBlock.of_start hs.not_inside ?_)
    rw [blockStart?_eq hl, ← Token.read_shape i l, hshape]
    rfl
  | pass hs hl' hprotocol hblock =>
    refine hstay hs ?_
    cases hread : Shape.read l with
    | block k closed rest =>
      cases closed with
      | true => rfl
      | false => exact absurd hread (hblock k rest)
    | _ => rfl
  | leave hs hshape =>
    refine .top (not_inside_succ_of_isLoneBrace ?_)
    rw [isLoneBrace_eq hl]
    simpa using hshape
  | take hs hclose =>
    obtain ⟨j, hj⟩ := hkeep hs hclose
    exact .block hj
  | repeatField hs hshape =>
    have hclose : Shape.read l ≠ .closeBrace := by
      rw [← Token.read_shape i l, hshape]
      exact fun h => by cases h
    obtain ⟨j, hj⟩ := hkeep hs hclose
    rw [hs]
    exact .block hj
  | skip hs hclose | fault hs hclose =>
    obtain ⟨j, hj⟩ := hkeep hs hclose
    rw [hs]
    exact .block hj

/-- **Every line is met in the context that its extent gives.** -/
theorem fits_before (hls : ∀ l ∈ ls, '\n' ∉ l) (hi : i ≤ ls.length) :
    (State.before ls i).context.Fits ls i := by
  induction i with
  | zero => exact .top (not_inside_zero ls)
  | succ i ih =>
    have hl : ls[i]? = some ls[i] := List.getElem?_eq_getElem hi
    rw [State.before_succ hl]
    have hgenuine := Token.genuine_read (hls _ (List.getElem_mem hi)) i
    exact (moves_step _ hgenuine).fits hl (ih (by omega))

end Validation
end Sproto
