import Sproto.Proofs.Outline.Placement

/-! # Nesting of symbols

The range of a symbol holds the range to select, and the range of a module or a protocol holds those of
its children.  For a block this depends on how it ends.  A block that is closed by braces, by a banner or
by the end of the document covers its fields; one that is still open when the next block of the protocol
starts is left as it stands, and ends on its own first line.

So the symbols of a document are nested exactly when no line starts a block while another one is open
that has a field (`Interrupts`, `symbols_nested_iff`).  Which block is open before a line is said of the
lines alone: depths are counted by braces, and a block is open from its start until the depth falls to
one or another block starts (`BlockOpen`, `tracks_before`). -/
namespace Sproto

open Text

namespace Token

/-- Whether a line starts a block. -/
def startsBlock (t : Token) : Bool :=
  match t.shape with
  | .block _ _ _ => true
  | _ => false

/-- Whether a line starts a block and does not close it at once. -/
def opensBlock (t : Token) : Bool :=
  match t.shape with
  | .block _ closed _ => !closed
  | _ => false

/-- Whether a line is a field. -/
def isField (t : Token) : Bool :=
  match t.shape with
  | .field _ _ _ => true
  | _ => false

end Token

namespace Outline

/-! ## Blocks that are open before a line -/

/-- The depth behind a line.  A protocol opens the first level, if none is open. -/
def deepen (depth : Option Int) (t : Token) : Option Int :=
  match t.shape, depth with
  | .blank, _ => depth
  | .banner, _ => none
  | .protocol _ _ _, none => keepOpen (braceBalance t.text)
  | _, none => none
  | _, some d => keepOpen (d + braceBalance t.text)

/-- The depth before a line; none outside protocols. -/
def depthBefore (ts : List Token) (n : Nat) : Option Int := (ts.take n).foldl deepen none

/-- Whether more than the protocol's brace is open before a line. -/
def IsDeep (ts : List Token) (n : Nat) : Prop := 1 < (depthBefore ts n).getD 0

instance (ts : List Token) (n : Nat) : Decidable (IsDeep ts n) := inferInstanceAs (Decidable (_ < _))

/-- Whether the block that line `i` starts is open before line `n`: more than the protocol's brace has
been open since, and no other block has started. -/
structure BlockOpen (ts : List Token) (i n : Nat) : Prop where
  opens : ts[i]?.any Token.opensBlock = true
  before : i < n
  deep : ∀ m < n + 1, i < m → IsDeep ts m
  alone : ∀ m < n, i < m → ts[m]?.any Token.startsBlock = false

/-- Whether line `k` starts a block while the one that line `i` has started is open and has a field, on
line `j`. -/
structure Interrupts (ts : List Token) (i j k : Nat) : Prop where
  openBlock : BlockOpen ts i k
  behind : i < j
  before : j < k
  field : ts[j]?.any Token.isField = true
  starts : ts[k]?.any Token.startsBlock = true

instance (ts : List Token) (i n : Nat) : Decidable (BlockOpen ts i n) :=
  decidable_of_iff (ts[i]?.any Token.opensBlock = true ∧ i < n ∧ (∀ m < n + 1, i < m → IsDeep ts m) ∧
      ∀ m < n, i < m → ts[m]?.any Token.startsBlock = false)
    ⟨fun ⟨h₁, h₂, h₃, h₄⟩ => ⟨h₁, h₂, h₃, h₄⟩, fun ⟨h₁, h₂, h₃, h₄⟩ => ⟨h₁, h₂, h₃, h₄⟩⟩

section

variable {ts : List Token} {n : Nat} {t : Token}

theorem depthBefore_succ (h : ts[n]? = some t) :
    depthBefore ts (n + 1) = deepen (depthBefore ts n) t := by
  rw [depthBefore, List.take_add_one, h, Option.toList_some, List.foldl_append]
  rfl

theorem deepen_some (hblank : t.shape ≠ .blank) (hbanner : t.shape ≠ .banner) (d : Int) :
    deepen (some d) t = keepOpen (d + braceBalance t.text) := by
  cases hs : t.shape with
  | blank => exact absurd hs hblank
  | banner => exact absurd hs hbanner
  | _ => simp only [deepen, hs]

theorem deepen_none (hp : ∀ name number rest, t.shape ≠ .protocol name number rest) :
    deepen none t = none := by
  cases hs : t.shape with
  | protocol name number rest => exact absurd hs (hp name number rest)
  | _ => simp only [deepen, hs]

theorem startsBlock_of_opensBlock (h : t.opensBlock = true) : t.startsBlock = true := by
  unfold Token.opensBlock at h
  unfold Token.startsBlock
  split at h
  · rfl
  · cases h

/-- **A block is open behind a line** if the line leaves more than the protocol's brace open, and either
starts it or starts no block while it is open. -/
theorem blockOpen_succ (h : ts[n]? = some t) {i : Nat} :
    BlockOpen ts i (n + 1) ↔ IsDeep ts (n + 1) ∧
      (i = n ∧ t.opensBlock = true ∨ BlockOpen ts i n ∧ t.startsBlock = false) := by
  constructor
  · intro hopen
    refine ⟨hopen.deep (n + 1) (Nat.lt_succ_self _) hopen.before, ?_⟩
    rcases Nat.lt_or_eq_of_le (Nat.le_of_lt_succ hopen.before) with hlt | rfl
    · refine .inr ⟨⟨hopen.opens, hlt, fun m hm => hopen.deep m (by omega),
        fun m hm => hopen.alone m (by omega)⟩, ?_⟩
      have hline := hopen.alone n (Nat.lt_succ_self _) hlt
      rwa [h] at hline
    · have hline := hopen.opens
      rw [h] at hline
      exact .inl ⟨rfl, hline⟩
  · rintro ⟨hdeep, ⟨rfl, hopens⟩ | ⟨hopen, hstarts⟩⟩
    · refine ⟨by rw [h]; exact hopens, Nat.lt_succ_self _, fun m hm him => ?_,
        fun m hm him => by omega⟩
      obtain rfl : m = i + 1 := by omega
      exact hdeep
    · refine ⟨hopen.opens, Nat.lt_succ_of_lt hopen.before, fun m hm him => ?_, fun m hm him => ?_⟩
      · by_cases hmn : m = n + 1
        · exact hmn ▸ hdeep
        · exact hopen.deep m (by omega) him
      · by_cases hmn : m = n
        · rw [hmn, h]
          exact hstarts
        · exact hopen.alone m (by omega) him

end

/-- The open block behind a line that leaves more than the protocol's brace open. -/
def nextBlock (t : Token) (block : Option Block) : Option Block :=
  match t.shape with
  | .block kind closed _ => if closed then none else some ⟨kind, t.index, t.index, []⟩
  | .field name number body =>
      block.map fun c => { c with
        fields := c.fields ++ [⟨name, number.value, trim (beforeComment (fieldContent body)), t.index⟩] }
  | _ => block

namespace Draft

theorem block_addMember (d : Draft) (t : Token) : (d.addMember t).block = nextBlock t d.block := by
  cases hs : t.shape with
  | block kind closed rest =>
    simp only [addMember, nextBlock, hs]
    rcases closed with _ | _ <;> rfl
  | field name number body =>
    simp only [addMember, nextBlock, hs, addField]
    rcases d.block with _ | c <;> rfl
  | _ => simp only [addMember, nextBlock, hs]

theorem openBlock_add (d : Draft) (t : Token) :
    (d.add t).block = if 1 < d.depth + braceBalance t.text then nextBlock t d.block else none := by
  rw [← block_addMember]
  unfold add
  simp only [depth_addMember]
  by_cases hle : d.depth + braceBalance t.text ≤ 1
  · rw [if_pos hle, if_neg (by omega)]
    rfl
  · rw [if_neg hle, if_pos (by omega)]

end Draft

namespace Builder

/-- The open block. -/
def openBlock (b : Builder) : Option Block := b.draft.bind Draft.block

variable {b : Builder} {t : Token}

theorem depth_step_eq_deepen (b : Builder) (t : Token) :
    (b.step t).draft.map Draft.depth = deepen (b.draft.map Draft.depth) t := by
  have hstep := step_cases b t
  generalize b.step t = c at hstep ⊢
  rcases hstep with hs | hs | @⟨d, hd, hblank, hbanner⟩ | ⟨hd, hs⟩ | ⟨hd, hbanner, hp⟩
  · simp only [deepen, hs]
  · simp only [draft_endGroup, draft_endDraft, deepen, hs, Option.map_none]
  · rw [draft_extend, map_depth_eq_keepOpen, Draft.depth_add, hd, Option.map_some,
      deepen_some hblank hbanner]
  · rw [hd, Option.map_none]
    unfold Builder.declare
    simp only [deepen, hs, keepOpen]
    split
    · rw [draft_place]
      rfl
    · rfl
  · rw [hd, Option.map_none, deepen_none hp]

/-- **What a line makes of the open block.** -/
theorem openBlock_step (h : b.Settled) :
    (b.step t).openBlock =
      if 1 < (deepen (b.draft.map Draft.depth) t).getD 0 then nextBlock t b.openBlock else none := by
  rw [← depth_step_eq_deepen]
  have hstep := step_cases b t
  generalize b.step t = c at hstep ⊢
  rcases hstep with hs | hs | @⟨d, hd, -, -⟩ | ⟨hd, hs⟩ | ⟨hd, -, -⟩
  · -- A blank line changes nothing, so the condition must be met by what is open already.
    have hnext : nextBlock t b.openBlock = b.openBlock := by simp only [nextBlock, hs]
    rw [hnext]
    split
    · rfl
    · next hdepth =>
      rcases hd : b.draft with _ | d
      · rw [openBlock, hd]
        rfl
      · rw [hd] at hdepth
        have hle : d.depth ≤ 1 := by simpa using hdepth
        rw [openBlock, hd]
        exact h d hd hle
  · simp [openBlock, draft_endGroup, draft_endDraft]
  · rw [openBlock, draft_extend, openBlock, hd]
    by_cases hle : (d.add t).depth ≤ 0
    · rw [if_pos hle]
      rfl
    · rw [if_neg hle]
      simp only [Option.bind_some, Option.map_some, Option.getD_some]
      rw [Draft.openBlock_add, Draft.depth_add]
  · have hnone : nextBlock t b.openBlock = none := by
      simp only [nextBlock, hs, openBlock, hd, Option.bind_none]
    rw [hnone, ite_self]
    unfold Builder.declare openBlock
    simp only
    split
    · rw [draft_place, hd]
      rfl
    · rfl
  · simp [openBlock, hd]

/-! ## The open block, by lines -/

/-- The lines of the open block: its first one, and those of its fields. -/
def openLines (b : Builder) : Option (Nat × List Nat) :=
  b.openBlock.map fun c => (c.line, c.fields.map Field.line)

/-- The pass knows which block is open before a line, and on which lines its fields are. -/
structure Tracks (ts : List Token) (n : Nat) (b : Builder) : Prop where
  depth : b.draft.map Draft.depth = depthBefore ts n
  block : ∀ i, BlockOpen ts i n ↔ ∃ js, b.openLines = some (i, js)
  fields : ∀ i js, b.openLines = some (i, js) → ∀ j, j ∈ js ↔
    i < j ∧ j < n ∧ ts[j]?.any Token.isField = true

theorem tracks_initial (ts : List Token) : Tracks ts 0 initial := by
  refine ⟨rfl, fun i => ⟨fun h => ?_, ?_⟩, fun i js h => by cases h⟩
  · exact absurd h.before (Nat.not_lt_zero _)
  · rintro ⟨js, h⟩
    cases h

/-- A line starts a block, which is open unless it is closed at once, or may add a field to the open
one. -/
theorem lines_nextBlock (t : Token) (block : Option Block) :
    (nextBlock t block).map (fun c => (c.line, c.fields.map Field.line)) =
      if t.startsBlock then (if t.opensBlock then some (t.index, []) else none)
      else block.map fun c =>
        (c.line, c.fields.map Field.line ++ if t.isField then [t.index] else []) := by
  cases hs : t.shape with
  | block kind closed rest =>
    simp only [nextBlock, Token.startsBlock, Token.opensBlock, hs]
    rcases closed with _ | _ <;> rfl
  | field name number body =>
    simp only [nextBlock, Token.startsBlock, Token.isField, hs]
    rcases block with _ | c
    · rfl
    · simp
  | _ => simp [nextBlock, Token.startsBlock, Token.isField, hs]

theorem openLines_step {ts : List Token} {n : Nat} (h : Tracks ts n b) (hsettled : b.Settled)
    (ht : ts[n]? = some t) (hindex : t.index = n) :
    (b.step t).openLines =
      if IsDeep ts (n + 1) then
        if t.startsBlock then (if t.opensBlock then some (n, []) else none)
        else b.openLines.map fun (i, js) => (i, js ++ if t.isField then [n] else [])
      else none := by
  have hblock : (b.step t).openBlock =
      if IsDeep ts (n + 1) then nextBlock t b.openBlock else none := by
    rw [openBlock_step hsettled, h.depth, ← depthBefore_succ ht]
    rfl
  rw [openLines, hblock, openLines, Option.map_map, ← hindex]
  split
  · exact lines_nextBlock t _
  · rfl

/-- **One line more.**  The open block behind a line is the one that the lines up to it tell. -/
theorem tracks_step {ts : List Token} {n : Nat} (h : Tracks ts n b) (hsettled : b.Settled)
    (ht : ts[n]? = some t) (hindex : t.index = n) : Tracks ts (n + 1) (b.step t) := by
  have hlines := openLines_step h hsettled ht hindex
  have hdepth : (b.step t).draft.map Draft.depth = depthBefore ts (n + 1) := by
    rw [depthBefore_succ ht, depth_step_eq_deepen, h.depth]
  -- A field on a line up to this one is on a line before it, or on this one.
  have hfields : ∀ j, j < n + 1 ∧ ts[j]?.any Token.isField = true ↔
      (j < n ∧ ts[j]?.any Token.isField = true) ∨ (j = n ∧ t.isField = true) := by
    intro j
    by_cases hj : j = n
    · subst hj
      simp [ht]
    · have hlt : j < n + 1 ↔ j < n := by omega
      simp [hj, hlt]
  by_cases hdeep : IsDeep ts (n + 1)
  · rw [if_pos hdeep] at hlines
    by_cases hstarts : t.startsBlock = true
    · -- Whatever block was open is left; the only one that can be open is the line's own.
      rw [if_pos hstarts] at hlines
      refine ⟨hdepth, fun i => ?_, fun i js hjs j => ?_⟩
      · rw [blockOpen_succ ht, hlines]
        by_cases hopens : t.opensBlock = true
        · simp [hdeep, hstarts, hopens, eq_comm]
        · simp [hstarts, hopens]
      · rw [hlines] at hjs
        split at hjs
        · cases hjs
          simp only [List.not_mem_nil, false_iff]
          omega
        · cases hjs
    · have hopens : ¬ t.opensBlock = true := fun hopens => hstarts (startsBlock_of_opensBlock hopens)
      rw [if_neg hstarts] at hlines
      refine ⟨hdepth, fun i => ?_, fun i js hjs j => ?_⟩
      · rw [blockOpen_succ ht, hlines, h.block i]
        simp [hdeep, hstarts, hopens]
      · rw [hlines] at hjs
        obtain ⟨⟨i, js'⟩, hjs', heq⟩ := Option.map_eq_some_iff.mp hjs
        cases heq
        have hbefore := ((h.block i).mpr ⟨js', hjs'⟩).before
        rw [List.mem_append, h.fields i js' hjs' j, hfields j]
        split
        · next hfield =>
          simp only [List.mem_singleton, hfield, and_true]
          constructor
          · rintro (⟨hij, hjn⟩ | rfl)
            · exact ⟨hij, .inl hjn⟩
            · exact ⟨hbefore, .inr rfl⟩
          · rintro ⟨hij, hjn | rfl⟩
            · exact .inl ⟨hij, hjn⟩
            · exact .inr rfl
        · next hfield => simp [hfield]
  · rw [if_neg hdeep] at hlines
    refine ⟨hdepth, fun i => ?_, fun i js hjs => ?_⟩
    · rw [blockOpen_succ ht, hlines]
      simp [hdeep]
    · rw [hlines] at hjs
      cases hjs

end Builder

/-! ## Blocks that cover their fields -/

/-- Whether a block covers its fields; a field has none. -/
def Member.Covers : Member → Prop
  | .block c => ∀ f ∈ c.fields, f.line ≤ c.stop
  | .field _ => True

/-- Whether all blocks of a protocol cover their fields. -/
def Protocol.Covers (p : Protocol) : Prop := ∀ m ∈ p.members, m.Covers

namespace Draft

/-- Whether all complete blocks of an open protocol cover their fields. -/
def Covers (d : Draft) : Prop := ∀ m ∈ d.members, m.Covers

variable {d : Draft} {low high : Nat}

theorem covers_leaveBlock :
    d.leaveBlock.Covers ↔ d.Covers ∧ ∀ c, d.block = some c → (Member.block c).Covers := by
  simp only [Covers, mem_leaveBlock]
  constructor
  · intro h
    exact ⟨fun m hm => h m (.inl hm), fun c hc => h _ (.inr ⟨c, hc, rfl⟩)⟩
  · rintro ⟨hmembers, hblock⟩ m (hm | ⟨c, hc, rfl⟩)
    · exact hmembers m hm
    · exact hblock c hc

/-- A block that is closed covers its fields. -/
theorem covers_closeBlock (h : d.Within low high) : (d.closeBlock high).Covers ↔ d.Covers := by
  rw [closeBlock, covers_leaveBlock]
  refine and_iff_left_of_imp fun _ c hc f hf => ?_
  obtain ⟨c, hblock, rfl⟩ := Option.map_eq_some_iff.mp hc
  exact ((h.block c hblock).1.fields f hf).2

/-- **A block that is left open does not cover its fields.** -/
theorem covers_leaveBlock_iff (h : d.Within low high) :
    d.leaveBlock.Covers ↔ d.Covers ∧ ∀ c, d.block = some c → c.fields = [] := by
  rw [covers_leaveBlock]
  refine and_congr_right fun _ => forall₂_congr fun c hc => ?_
  obtain ⟨hwithin, hstop⟩ := h.block c hc
  constructor
  · intro hcovers
    rw [List.eq_nil_iff_forall_not_mem]
    intro f hf
    have hle := hcovers f hf
    have hlt := (hwithin.fields f hf).1
    omega
  · intro hnil f hf
    rw [hnil] at hf
    cases hf

theorem covers_addMember (h : d.Within low high) (t : Token) :
    (d.addMember t).Covers ↔
      d.Covers ∧ (t.startsBlock = true → ∀ c, d.block = some c → c.fields = []) := by
  cases hs : t.shape with
  | block kind closed rest =>
    have hleave := covers_leaveBlock_iff h
    have hmembers : (d.addMember t).Covers ↔ d.leaveBlock.Covers := by
      rcases closed with _ | _
      · simp only [addMember, hs, addBlock]
        rfl
      · simp only [addMember, hs, addBlock, if_true]
        rw [covers_leaveBlock]
        refine and_iff_left_of_imp fun _ c hc f hf => ?_
        cases hc
        cases hf
    simpa [Token.startsBlock, hs] using hmembers.trans hleave
  | field name number body =>
    simp only [addMember, hs, addField, Token.startsBlock, Bool.false_eq_true, false_implies, and_true]
    split
    · rfl
    · simp [Covers, or_imp, forall_and, Member.Covers]
  | _ => simp [addMember, Token.startsBlock, hs]

theorem covers_add (h : d.Within low high) {t : Token} (ht : high < t.index) :
    (d.add t).Covers ↔
      d.Covers ∧ (t.startsBlock = true → ∀ c, d.block = some c → c.fields = []) := by
  rw [← covers_addMember h t]
  have hmember := within_addMember h ht
  have hdepth : Within { d.addMember t with
      depth := (d.addMember t).depth + braceBalance t.text } low t.index :=
    ⟨hmember.low, hmember.high, hmember.members, hmember.block⟩
  unfold add
  simp only
  split
  · exact covers_closeBlock hdepth
  · rfl

end Draft

namespace Builder

/-- Whether all complete blocks cover their fields. -/
structure Covers (b : Builder) : Prop where
  placed : ∀ p ∈ b.placed, p.Covers
  draft : ∀ d, b.draft = some d → d.Covers

variable {b : Builder} {t : Token} {n : Nat}

theorem mem_placed_place {p q : Protocol} : q ∈ (b.place p).placed ↔ q ∈ b.placed ∨ q = p := by
  unfold place placed
  rcases hg : b.group with _ | g
  · simp [or_comm, or_left_comm]
  · simp [or_assoc]

theorem covers_iff_of_none (hd : b.draft = none) : b.Covers ↔ ∀ p ∈ b.placed, p.Covers := by
  refine ⟨Covers.placed, fun h => ⟨h, fun d hd' => ?_⟩⟩
  rw [hd] at hd'
  cases hd'

theorem covers_iff_of_some {d : Draft} (hd : b.draft = some d) :
    b.Covers ↔ (∀ p ∈ b.placed, p.Covers) ∧ d.Covers := by
  refine ⟨fun h => ⟨h.placed, h.draft d hd⟩, fun h => ⟨h.1, fun d' hd' => ?_⟩⟩
  rw [hd] at hd'
  cases hd'
  exact h.2

/-- A protocol that ends with no block open is as good as what was open of it. -/
theorem covers_finish {d : Draft} (hd : d.block = none) {stop : Nat} :
    (∀ p ∈ (b.place (d.finish stop)).placed, p.Covers) ↔ (∀ p ∈ b.placed, p.Covers) ∧ d.Covers := by
  have hfinish : (d.finish stop).Covers ↔ d.Covers := by
    show d.leaveBlock.Covers ↔ d.Covers
    rw [Draft.covers_leaveBlock]
    exact and_iff_left_of_imp fun _ c hc => by rw [hd] at hc; cases hc
  rw [← hfinish]
  simp only [mem_placed_place, or_imp, forall_and, forall_eq]

theorem covers_endDraft (h : b.Within n) : b.endDraft.Covers ↔ b.Covers := by
  rcases hd : b.draft with _ | d
  · rw [endDraft, hd]
  · rw [covers_iff_of_some hd, ← Draft.covers_closeBlock (h.draft d hd).2,
      covers_iff_of_none (draft_endDraft b), endDraft_eq h hd]
    exact covers_finish rfl

/-- Ending the open protocol and the open module leaves all blocks as they cover their fields. -/
theorem covers_ended (h : b.Within n) :
    (∀ p ∈ b.endDraft.endGroup.leading ++ b.endDraft.endGroup.groups.flatMap Group.protocols,
      p.Covers) ↔ b.Covers := by
  rw [placed_endGroup, ← covers_iff_of_none (draft_endDraft b), covers_endDraft h]

/-- **A line keeps all blocks covering their fields, unless it starts a block while one with fields is
open.** -/
theorem covers_step (h : b.Within t.index) :
    (b.step t).Covers ↔
      b.Covers ∧ (t.startsBlock = true → ∀ c, b.openBlock = some c → c.fields = []) := by
  have hstep := step_cases b t
  generalize b.step t = c at hstep ⊢
  rcases hstep with hs | hs | @⟨d, hd, -, -⟩ | @⟨name, rest, number, hd, hs⟩ | ⟨hd, -, -⟩
  · simp [Token.startsBlock, hs]
  · have hstarts : t.startsBlock = false := by rw [Token.startsBlock, hs]
    have hnone : b.endDraft.endGroup.draft = none := by rw [draft_endGroup, draft_endDraft]
    rw [← covers_ended h]
    refine Iff.trans (covers_iff_of_none ?_) ?_
    · exact hnone
    · simp [hstarts, placed]
  · -- The only case in which a block can be left open.
    obtain ⟨hpos, hwithin⟩ := h.draft d hd
    have hbehind : b.lastLine < t.index := Nat.lt_of_le_of_lt h.lastLine (by omega)
    have hextend : ({ b with lastLine := t.index }.extend d t).Covers ↔
        (∀ p ∈ b.placed, p.Covers) ∧ (d.add t).Covers := by
      unfold extend
      simp only
      split
      · next hle => exact (covers_iff_of_none rfl).trans (covers_finish (Draft.block_add d t (by omega)))
      · exact covers_iff_of_some rfl
    rw [hextend, Draft.covers_add hwithin hbehind, covers_iff_of_some hd, openBlock, hd,
      Option.bind_some, and_assoc]
  · have hstarts : t.startsBlock = false := by rw [Token.startsBlock, hs]
    have hempty : Draft.Covers ⟨name, number.map Numeral.value, t.index, [], none,
        braceBalance t.text⟩ := fun m hm => by cases hm
    have hdeclare : ({ b with lastLine := t.index }.declare t name number).Covers ↔
        ∀ p ∈ b.placed, p.Covers := by
      refine Iff.trans ?_ (and_iff_left hempty)
      unfold Builder.declare
      simp only
      split
      · refine Iff.trans (covers_iff_of_none ?_) (covers_finish ?_)
        · rw [draft_place]
          exact hd
        · rfl
      · exact covers_iff_of_some rfl
    rw [hdeclare, covers_iff_of_none hd]
    simp [hstarts]
  · have hnone : b.openBlock = none := by rw [openBlock, hd]; rfl
    rw [covers_iff_of_none hd, hnone]
    refine Iff.trans (covers_iff_of_none ?_) ?_
    · exact hd
    · simp [placed]

/-! ## Whole documents -/

theorem settled_before (ts : List Token) (n : Nat) : (before ts n).Settled := by
  have hrun : ∀ (us : List Token) {b : Builder}, b.Settled → (us.foldl step b).Settled := by
    intro us
    induction us with
    | nil => exact fun hb => hb
    | cons u us ih => exact fun hb => ih (settled_step hb)
  exact hrun _ fun d hd => by cases hd

/-- **The pass follows the open block from line to line.** -/
theorem tracks_before {ts : List Token} (hts : Numbered ts) {n : Nat} (hn : n ≤ ts.length) :
    Tracks ts n (before ts n) := by
  induction n with
  | zero => exact tracks_initial ts
  | succ n ih =>
    have ht : ts[n]? = some ts[n] := List.getElem?_eq_getElem hn
    rw [before_succ ht]
    exact tracks_step (ih (by omega)) (settled_before ts n) ht (hts n _ ht)

/-- A line starts a block while one with fields is open exactly when it interrupts that one. -/
theorem interrupts_iff {ts : List Token} (h : Tracks ts n b) (ht : ts[n]? = some t) :
    (t.startsBlock = true → ∀ c, b.openBlock = some c → c.fields = []) ↔
      ∀ i j, ¬ Interrupts ts i j n := by
  constructor
  · intro hnil i j hinterrupts
    have hstarts := hinterrupts.starts
    rw [ht, Option.any_some] at hstarts
    obtain ⟨js, hjs⟩ := (h.block i).mp hinterrupts.openBlock
    have hj := (h.fields i js hjs j).mpr ⟨hinterrupts.behind, hinterrupts.before, hinterrupts.field⟩
    obtain ⟨c, hc, heq⟩ := Option.map_eq_some_iff.mp hjs
    cases heq
    rw [hnil hstarts c hc] at hj
    cases hj
  · intro hnone hstarts c hc
    rw [List.eq_nil_iff_forall_not_mem]
    intro f hf
    have hlines : b.openLines = some (c.line, c.fields.map Field.line) := by
      rw [openLines, hc]
      rfl
    obtain ⟨hbehind, hbefore, hfield⟩ :=
      (h.fields _ _ hlines f.line).mp (List.mem_map.mpr ⟨f, hf, rfl⟩)
    refine hnone c.line f.line ⟨(h.block _).mpr ⟨_, hlines⟩, hbehind, hbefore, hfield, ?_⟩
    rw [ht, Option.any_some]
    exact hstarts

/-- **All blocks that are complete before a line cover their fields exactly when none of them has been
interrupted.** -/
theorem covers_before_iff {ts : List Token} (hts : Numbered ts) (hn : n ≤ ts.length) :
    (before ts n).Covers ↔ ∀ k < n, ∀ i j, ¬ Interrupts ts i j k := by
  induction n with
  | zero =>
    refine iff_of_true ?_ fun k hk => by omega
    exact ⟨fun p hp => (by cases hp), fun d hd => (by cases hd)⟩
  | succ n ih =>
    have ht : ts[n]? = some ts[n] := List.getElem?_eq_getElem hn
    have hn' : n ≤ ts.length := by omega
    have hwithin : (before ts n).Within (ts[n]).index := by
      rw [hts n _ ht]
      exact within_before hts hn'
    rw [before_succ ht, covers_step hwithin, ih hn', interrupts_iff (tracks_before hts hn') ht]
    constructor
    · rintro ⟨hold, hnew⟩ k hk
      by_cases hkn : k = n
      · exact hkn ▸ hnew
      · exact hold k (by omega)
    · intro hall
      exact ⟨fun k hk => hall k (by omega), hall n (by omega)⟩

end Builder

/-- Whether all blocks of an outline cover their fields. -/
def Covers (o : Outline) : Prop := ∀ p ∈ o.leading ++ o.groups.flatMap Group.protocols, p.Covers

theorem covers_ofTokens_iff {ts : List Token} (hts : Numbered ts) :
    (ofTokens ts).Covers ↔ ¬ ∃ i j k, Interrupts ts i j k := by
  rw [Builder.ofTokens_eq]
  refine (Builder.covers_ended (Builder.within_before hts (Nat.le_refl _))).trans ?_
  rw [Builder.covers_before_iff hts (Nat.le_refl _)]
  constructor
  · rintro hnone ⟨i, j, k, h⟩
    have hk : k < ts.length := by
      by_contra hge
      have hstarts := h.starts
      rw [List.getElem?_eq_none (by omega)] at hstarts
      cases hstarts
    exact hnone k hk i j h
  · intro hnone k _ i j h
    exact hnone ⟨i, j, k, h⟩

/-- Whether the blocks in a part cover their fields. -/
def Part.Covers : Part → Prop
  | .field _ => True
  | .block c => (Member.block c).Covers
  | .protocol p => p.Covers
  | .group g => ∀ p ∈ g.protocols, p.Covers

theorem Covers.part {o : Outline} (h : o.Covers) {x : Part} (hx : o.HasPart x) : x.Covers := by
  induction hx with
  | root hx =>
    rcases List.mem_append.mp hx with hx | hx
    · obtain ⟨p, hp, rfl⟩ := List.mem_map.mp hx
      exact h p (List.mem_append_left _ hp)
    · obtain ⟨g, hg, rfl⟩ := List.mem_map.mp hx
      exact fun p hp => h p (List.mem_append_right _ (List.mem_flatMap.mpr ⟨g, hg, hp⟩))
  | @child x y _ hy ih =>
    rcases x with f | c | p | g
    · cases hy
    · obtain ⟨f, -, rfl⟩ := List.mem_map.mp hy
      trivial
    · obtain ⟨m, hm, rfl⟩ := List.mem_map.mp hy
      rcases m with c | f
      · exact ih _ hm
      · trivial
    · obtain ⟨p, hp, rfl⟩ := List.mem_map.mp hy
      exact ih p hp

/-- **The parts of an outline are nested exactly when its blocks cover their fields.** -/
theorem encloses_iff_covers {o : Outline} {high : Nat} (hwithin : o.Within high) :
    (∀ x, o.HasPart x → x.Encloses) ↔ o.Covers := by
  constructor
  · intro hencloses p hp m hm
    have hpart : o.HasPart (.protocol p) := by
      rcases List.mem_append.mp hp with hp | hp
      · exact .root (List.mem_append_left _ (List.mem_map.mpr ⟨p, hp, rfl⟩))
      · obtain ⟨g, hg, hp⟩ := List.mem_flatMap.mp hp
        exact .child (.root (List.mem_append_right _ (List.mem_map.mpr ⟨g, hg, rfl⟩)))
          (List.mem_map.mpr ⟨p, hp, rfl⟩)
    have hmember := hencloses _ (.child hpart (List.mem_map.mpr ⟨m, hm, rfl⟩))
    rcases m with c | f
    · exact fun f hf => (hmember (.field f) (List.mem_map.mpr ⟨f, hf, rfl⟩)).2
    · trivial
  · intro hcovers x hx y hy
    obtain ⟨-, hline, hstop⟩ := (hwithin.part hx).children hy
    refine ⟨hline, ?_⟩
    by_cases hkind : x.kind = .block
    · rcases x with f | c | p | g
      · cases hy
      · obtain ⟨f, hf, rfl⟩ := List.mem_map.mp hy
        exact hcovers.part hx f hf
      · simp only [Part.kind] at hkind
        split at hkind <;> cases hkind
      · cases hkind
    · exact hstop hkind

end Outline

/-- **Symbols are nested unless a block is interrupted**: every symbol of a document holds the range to
select, every one but a block holds the ranges of its children, and all of them do exactly when no line
starts a block while another one is open that has a field. -/
theorem symbols_nested_iff {source : Text} {ss : List Symbol} (h : Symbol.ofSource source = .ok ss) :
    (∀ s, Symbol.Among ss s → s.selection.Inside s.range ∧
        (s.kind ≠ .block → ∀ c ∈ s.children, c.range.Inside s.range)) ∧
      ((∀ s, Symbol.Among ss s → ∀ c ∈ s.children, c.range.Inside s.range) ↔
        ¬ ∃ i j k, Outline.Interrupts (Token.ofLines (lines source)) i j k) := by
  obtain ⟨ts, hts, h⟩ := Symbol.exists_of_bind_eq_ok h
  obtain ⟨rfl, -⟩ := Token.ofLines?_eq_ok_iff.mp hts
  have hnumbered := Outline.numbered_ofLines (lines source)
  have hwithin := Outline.within_ofTokens hnumbered
  rw [← Outline.covers_ofTokens_iff hnumbered, ← Outline.encloses_iff_covers hwithin]
  refine ⟨fun s hs => ?_, fun hinside x hx => ?_, fun hencloses s hs => ?_⟩
  · obtain ⟨x, hx, hsymbol⟩ := Symbol.exists_part h hs
    have hpart := hwithin.part hx
    refine ⟨(Symbol.selection_inside_iff hsymbol).mpr hpart.upright, fun hkind => ?_⟩
    rw [(Symbol.shows_of_symbol hsymbol).kind] at hkind
    rw [Symbol.inside_iff_encloses hsymbol]
    intro y hy
    obtain ⟨-, hline, hstop⟩ := hpart.children hy
    exact ⟨hline, hstop hkind⟩
  · obtain ⟨s, hs, hsymbol⟩ := Symbol.exists_symbol h hx
    exact (Symbol.inside_iff_encloses hsymbol).mp (hinside s hs)
  · obtain ⟨x, hx, hsymbol⟩ := Symbol.exists_part h hs
    exact (Symbol.inside_iff_encloses hsymbol).mpr (hencloses x hx)

/-- A document with a block that is still open when the next one starts. -/
def unclosedRequest : Text :=
  "foo 1 \x7b\n    request \x7b\n        a 1: int\n    response \x7b\n    \x7d\n\x7d\n\x7d\n".toList

theorem symbols_unclosedRequest :
    Outline.Interrupts (Token.ofLines (lines unclosedRequest)) 1 2 3 ∧
      ∃ ss, Symbol.ofSource unclosedRequest = .ok ss ∧
        ¬ ∀ s, Symbol.Among ss s → ∀ c ∈ s.children, c.range.Inside s.range := by
  have hopen : Outline.BlockOpen (Token.ofLines (lines unclosedRequest)) 1 3 := by decide +kernel
  have hfield : (Token.ofLines (lines unclosedRequest))[2]?.any Token.isField = true := by
    decide +kernel
  have hstarts : (Token.ofLines (lines unclosedRequest))[3]?.any Token.startsBlock = true := by
    decide +kernel
  have hinterrupts : Outline.Interrupts (Token.ofLines (lines unclosedRequest)) 1 2 3 :=
    ⟨hopen, by omega, by omega, hfield, hstarts⟩
  have hok : (Symbol.ofSource unclosedRequest).isOk = true := by decide +kernel
  rcases hss : Symbol.ofSource unclosedRequest with f | ss
  · rw [hss] at hok
    cases hok
  · refine ⟨hinterrupts, ss, rfl, fun hnested => ?_⟩
    exact (symbols_nested_iff hss).2.mp hnested ⟨1, 2, 3, hinterrupts⟩

end Sproto
