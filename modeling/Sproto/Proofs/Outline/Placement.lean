import Sproto.Proofs.Outline.Parts

/-! # Where the parts of an outline lie

A module covers its protocols and a protocol covers its members, whichever way they end: by their own
braces, by a banner or by the end of the document (`Builder.within_step`, `within_ofTokens`).  A block
covers its own first line and lies behind it, but no more is said of its fields here than that they come
behind its first line and not behind the last line of its protocol. -/
namespace Sproto

namespace Outline

/-! ## Parts between two lines -/

structure Block.Within (c : Block) (i j : Nat) : Prop where
  low : i ≤ c.line
  upright : c.line ≤ c.stop
  high : c.stop ≤ j
  fields : ∀ f ∈ c.fields, c.line < f.line ∧ f.line ≤ j

/-- Whether a member lies between two lines. -/
def Member.Within (i j : Nat) : Member → Prop
  | .block c => c.Within i j
  | .field f => i ≤ f.line ∧ f.line ≤ j

structure Protocol.Within (p : Protocol) (i j : Nat) : Prop where
  low : i ≤ p.line
  upright : p.line ≤ p.stop
  high : p.stop ≤ j
  members : ∀ m ∈ p.members, m.Within p.line p.stop

structure Group.Within (g : Group) (j : Nat) : Prop where
  upright : g.line ≤ g.stop
  high : g.stop ≤ j
  protocols : ∀ p ∈ g.protocols, p.Within g.line g.stop

/-- Whether no part of an outline goes beyond a line, and modules and protocols cover what is in them. -/
structure Within (o : Outline) (j : Nat) : Prop where
  leading : ∀ p ∈ o.leading, p.Within 0 j
  groups : ∀ g ∈ o.groups, g.Within j

section

variable {low high high' : Nat}

theorem Block.Within.mono {c : Block} (h : c.Within low high) (hle : high ≤ high') :
    c.Within low high' :=
  ⟨h.low, h.upright, Nat.le_trans h.high hle,
    fun f hf => ⟨(h.fields f hf).1, Nat.le_trans (h.fields f hf).2 hle⟩⟩

theorem Member.Within.mono {m : Member} (h : m.Within low high) (hle : high ≤ high') :
    m.Within low high' := by
  rcases m with c | f
  · exact Block.Within.mono h hle
  · exact ⟨h.1, Nat.le_trans h.2 hle⟩

theorem Protocol.Within.mono {p : Protocol} (h : p.Within low high) (hle : high ≤ high') :
    p.Within low high' :=
  ⟨h.low, h.upright, Nat.le_trans h.high hle, h.members⟩

theorem Group.Within.mono {g : Group} (h : g.Within high) (hle : high ≤ high') : g.Within high' :=
  ⟨h.upright, Nat.le_trans h.high hle, h.protocols⟩

end

/-- Whether a part covers what is in it, blocks apart, and no part in it goes beyond a line. -/
def Part.Within (j : Nat) : Part → Prop
  | .field f => f.line ≤ j
  | .block c => c.Within 0 j
  | .protocol p => p.Within 0 j
  | .group g => g.Within j

namespace Part.Within

variable {high : Nat} {x y : Part}

theorem upright (h : x.Within high) : x.line ≤ x.stop := by
  rcases x with f | c | p | g
  · exact Nat.le_refl _
  · exact Block.Within.upright h
  · exact Protocol.Within.upright h
  · exact Group.Within.upright h

theorem stop_le (h : x.Within high) : x.stop ≤ high := by
  rcases x with f | c | p | g
  · exact h
  · exact Block.Within.high h
  · exact Protocol.Within.high h
  · exact Group.Within.high h

/-- The parts in a module or a protocol lie in its lines, and those in a block behind its first line. -/
theorem children (h : x.Within high) (hy : y ∈ x.children) :
    y.Within high ∧ x.line ≤ y.line ∧ (x.kind ≠ .block → y.stop ≤ x.stop) := by
  rcases x with f | c | p | g
  · cases hy
  · obtain ⟨f, hf, rfl⟩ := List.mem_map.mp hy
    obtain ⟨hbehind, hhigh⟩ := Block.Within.fields h f hf
    exact ⟨hhigh, Nat.le_of_lt hbehind, fun hkind => absurd rfl hkind⟩
  · obtain ⟨m, hm, rfl⟩ := List.mem_map.mp hy
    have hmember := Protocol.Within.members h m hm
    have hstop := Protocol.Within.high h
    rcases m with c | f
    · have hc : c.Within p.line p.stop := hmember
      have hwide := hc.mono hstop
      exact ⟨⟨Nat.zero_le _, hwide.upright, hwide.high, hwide.fields⟩, hc.low, fun _ => hc.high⟩
    · obtain ⟨hlow, hhigh⟩ := hmember
      exact ⟨Nat.le_trans hhigh hstop, hlow, fun _ => hhigh⟩
  · obtain ⟨p, hp, rfl⟩ := List.mem_map.mp hy
    have hp := Group.Within.protocols h p hp
    have hwide := hp.mono (Group.Within.high h)
    exact ⟨⟨Nat.zero_le _, hwide.upright, hwide.high, hwide.members⟩, hp.low, fun _ => hp.high⟩

end Part.Within

/-- What is known of the places of an outline holds of each of its parts. -/
theorem Within.part {o : Outline} {high : Nat} (h : o.Within high) {x : Part} (hx : o.HasPart x) :
    x.Within high := by
  induction hx with
  | root hx =>
    rcases List.mem_append.mp hx with hx | hx
    · obtain ⟨p, hp, rfl⟩ := List.mem_map.mp hx
      exact h.leading p hp
    · obtain ⟨g, hg, rfl⟩ := List.mem_map.mp hx
      exact h.groups g hg
  | child _ hy ih => exact (ih.children hy).1

/-! ## An open protocol -/

namespace Draft

/-- Whether all of a draft lies between two lines.  The open block ends on its own first line as yet. -/
structure Within (d : Draft) (i j : Nat) : Prop where
  low : i ≤ d.line
  high : d.line ≤ j
  members : ∀ m ∈ d.members, m.Within d.line j
  block : ∀ c, d.block = some c → c.Within d.line j ∧ c.stop = c.line

variable {d : Draft} {low high : Nat}

theorem Within.mono (h : d.Within low high) {high' : Nat} (hle : high ≤ high') :
    d.Within low high' :=
  ⟨h.low, Nat.le_trans h.high hle, fun m hm => (h.members m hm).mono hle,
    fun c hc => ⟨(h.block c hc).1.mono hle, (h.block c hc).2⟩⟩

theorem mem_leaveBlock {m : Member} :
    m ∈ d.leaveBlock.members ↔ m ∈ d.members ∨ ∃ c, d.block = some c ∧ m = .block c := by
  rw [leaveBlock, List.mem_append, Option.mem_toList, Option.map_eq_some_iff]
  simp only [eq_comm (a := m)]

theorem within_leaveBlock (h : d.Within low high) : d.leaveBlock.Within low high := by
  refine ⟨h.low, h.high, fun m hm => ?_, fun c hc => by cases hc⟩
  rcases mem_leaveBlock.mp hm with hm | ⟨c, hc, rfl⟩
  · exact h.members m hm
  · exact (h.block c hc).1

theorem within_closeBlock (h : d.Within low high) : (d.closeBlock high).Within low high := by
  refine ⟨h.low, h.high, fun m hm => ?_, fun c hc => by cases hc⟩
  rcases mem_leaveBlock.mp hm with hm | ⟨c, hc, rfl⟩
  · exact h.members m hm
  · obtain ⟨c, hblock, rfl⟩ := Option.map_eq_some_iff.mp hc
    obtain ⟨hc, -⟩ := h.block c hblock
    exact ⟨hc.low, Nat.le_trans hc.upright hc.high, Nat.le_refl _, hc.fields⟩

theorem within_addField (h : d.Within low high) {f : Field} (hf : high < f.line) :
    (d.addField f).Within low f.line := by
  have hwide := h.mono (Nat.le_of_lt hf)
  unfold addField
  split
  · next c hblock =>
    refine ⟨h.low, hwide.high, hwide.members, fun c' hc' => ?_⟩
    cases hc'
    obtain ⟨hc, hstop⟩ := hwide.block c hblock
    obtain ⟨hc', -⟩ := h.block c hblock
    refine ⟨⟨hc.low, hc.upright, hc.high, fun g hg => ?_⟩, hstop⟩
    rcases List.mem_append.mp hg with hg | hg
    · exact hc.fields g hg
    · cases List.mem_singleton.mp hg
      have hline := Nat.le_trans hc'.upright hc'.high
      exact ⟨show c.line < f.line by omega, Nat.le_refl _⟩
  · next hblock =>
    refine ⟨h.low, hwide.high, fun m hm => ?_, fun c hc => hwide.block c hc⟩
    rcases List.mem_append.mp hm with hm | hm
    · exact hwide.members m hm
    · cases List.mem_singleton.mp hm
      exact ⟨hwide.high, Nat.le_refl _⟩

theorem within_addBlock (h : d.Within low high) (k : BlockKind) (closed : Bool) {line : Nat}
    (hl : high < line) : (d.addBlock k closed line).Within low line := by
  have hwide := within_leaveBlock (h.mono (Nat.le_of_lt hl))
  have hopen : Within { d.leaveBlock with block := some ⟨k, line, line, []⟩ } low line := by
    refine ⟨hwide.low, hwide.high, hwide.members, fun c hc => ?_⟩
    cases hc
    exact ⟨⟨hwide.high, Nat.le_refl _, Nat.le_refl _, fun f hf => by cases hf⟩, rfl⟩
  unfold addBlock
  rcases closed with _ | _
  · exact hopen
  · exact within_leaveBlock hopen

theorem within_addMember (h : d.Within low high) {t : Token} (ht : high < t.index) :
    (d.addMember t).Within low t.index := by
  unfold addMember
  split
  · exact within_addBlock h _ _ ht
  · exact within_addField (f := ⟨_, _, _, t.index⟩) h ht
  · exact h.mono (Nat.le_of_lt ht)

/-- **A line behind a draft keeps the draft within the lines up to it.** -/
theorem within_add (h : d.Within low high) {t : Token} (ht : high < t.index) :
    (d.add t).Within low t.index := by
  have hmember := within_addMember h ht
  have hdepth : Within { d.addMember t with
      depth := (d.addMember t).depth + braceBalance t.text } low t.index :=
    ⟨hmember.low, hmember.high, hmember.members, hmember.block⟩
  unfold add
  simp only
  split
  · exact within_closeBlock hdepth
  · exact hdepth

theorem within_finish (h : d.Within low high) : (d.finish high).Within low high :=
  ⟨h.low, h.high, Nat.le_refl _, (within_leaveBlock h).members⟩

/-- The open block, if there is one, starts on a line that has been met. -/
theorem Within.max_block (h : d.Within low high) :
    max ((d.block.map Block.line).getD 0) high = high := by
  apply Nat.max_eq_right
  rcases hblock : d.block with _ | c
  · exact Nat.zero_le _
  · obtain ⟨hc, -⟩ := h.block c hblock
    exact Nat.le_trans hc.upright hc.high

end Draft

/-! ## The pass -/

namespace Builder

/-- The first line of the open module, or of the document. -/
def base (b : Builder) : Nat := (b.group.map Group.line).getD 0

/-- Whether all that is built before a line lies in lines that have been met. -/
structure Within (b : Builder) (n : Nat) : Prop where
  leading : ∀ p ∈ b.leading, p.Within 0 b.lastLine
  groups : ∀ g ∈ b.groups, g.Within b.lastLine
  group : ∀ g, b.group = some g → g.line ≤ b.lastLine ∧ ∀ p ∈ g.protocols, p.Within g.line b.lastLine
  draft : ∀ d, b.draft = some d → 0 < n ∧ d.Within b.base b.lastLine
  lastLine : b.lastLine ≤ n - 1

variable {b : Builder} {n : Nat}

theorem within_initial : initial.Within 0 := by
  refine ⟨?_, ?_, ?_, ?_, Nat.le_refl _⟩
  · exact fun p hp => by cases hp
  · exact fun g hg => by cases hg
  · exact fun g hg => by cases hg
  · exact fun d hd => by cases hd

/-- Going on to the next line. -/
theorem within_move (h : b.Within n) : Within { b with lastLine := n } (n + 1) := by
  have hle : b.lastLine ≤ n := Nat.le_trans h.lastLine (Nat.sub_le _ _)
  refine ⟨?_, ?_, ?_, ?_, Nat.le_refl _⟩
  · exact fun p hp => (h.leading p hp).mono hle
  · exact fun g hg => (h.groups g hg).mono hle
  · intro g hg
    obtain ⟨hline, hprotocols⟩ := h.group g hg
    exact ⟨Nat.le_trans hline hle, fun p hp => (hprotocols p hp).mono hle⟩
  · intro d hd
    exact ⟨Nat.succ_pos _, (h.draft d hd).2.mono hle⟩

theorem within_place (h : b.Within n) {p : Protocol} (hp : p.Within b.base b.lastLine) :
    (b.place p).Within n := by
  unfold place
  split
  · next g hg =>
    have hbase : b.base = g.line := by rw [base, hg]; rfl
    obtain ⟨hline, hprotocols⟩ := h.group g hg
    refine ⟨h.leading, h.groups, fun g' hg' => ?_, fun d hd => ?_, h.lastLine⟩
    · cases hg'
      refine ⟨hline, fun q hq => ?_⟩
      rcases List.mem_append.mp hq with hq | hq
      · exact hprotocols q hq
      · cases List.mem_singleton.mp hq
        exact hbase ▸ hp
    · obtain ⟨hpos, hd⟩ := h.draft d hd
      rw [hbase] at hd
      exact ⟨hpos, hd⟩
  · next hg =>
    have hbase : b.base = 0 := by rw [base, hg]; rfl
    refine ⟨fun q hq => ?_, h.groups, fun g' hg' => h.group g' hg', h.draft, h.lastLine⟩
    rcases List.mem_append.mp hq with hq | hq
    · exact h.leading q hq
    · cases List.mem_singleton.mp hq
      exact hbase ▸ hp

theorem within_setDraft (h : b.Within n) {draft : Option Draft}
    (hd : ∀ d, draft = some d → 0 < n ∧ d.Within b.base b.lastLine) :
    Within { b with draft := draft } n :=
  ⟨h.leading, h.groups, h.group, hd, h.lastLine⟩

/-- What the end of the open protocol makes of it. -/
theorem endDraft_eq (h : b.Within n) {d : Draft} (hd : b.draft = some d) :
    b.endDraft =
      { b.place ((d.closeBlock b.lastLine).finish b.lastLine) with draft := none } := by
  obtain ⟨-, hwithin⟩ := h.draft d hd
  have hline : max (d.closeBlock b.lastLine).line b.lastLine = b.lastLine :=
    Nat.max_eq_right hwithin.high
  unfold endDraft
  simp only [hd, hwithin.max_block, hline]

theorem within_endDraft (h : b.Within n) : b.endDraft.Within n := by
  rcases hd : b.draft with _ | d
  · rw [endDraft, hd]
    exact h
  · rw [endDraft_eq h hd]
    obtain ⟨-, hwithin⟩ := h.draft d hd
    have hfinish := Draft.within_finish (Draft.within_closeBlock hwithin)
    exact within_setDraft (within_place h hfinish) fun d hd => by cases hd

theorem within_endGroup (h : b.Within n) (hd : b.draft = none) : b.endGroup.Within n := by
  unfold endGroup
  split
  · exact h
  · next g hg =>
    obtain ⟨hline, hprotocols⟩ := h.group g hg
    refine ⟨h.leading, fun g' hg' => ?_, fun g' hg' => (by cases hg'), fun d' hd' => ?_, h.lastLine⟩
    · rcases List.mem_append.mp hg' with hg' | hg'
      · exact h.groups g' hg'
      · cases List.mem_singleton.mp hg'
        rw [Nat.max_eq_right hline]
        exact ⟨hline, Nat.le_refl _, hprotocols⟩
    · rw [show b.draft = some d' from hd'] at hd
      cases hd

/-- What is complete when the open protocol and the open module are ended. -/
theorem within_ended (h : b.Within n) : b.endDraft.endGroup.Within n :=
  within_endGroup (within_endDraft h) (draft_endDraft b)

/-- **A line keeps all that is built within the lines that have been met.** -/
theorem within_step {t : Token} (h : b.Within t.index) : (b.step t).Within (t.index + 1) := by
  have hmoved := within_move h
  have hstep := step_cases b t
  generalize b.step t = c at hstep ⊢
  rcases hstep with hs | hs | @⟨d, hd, -, -⟩ | @⟨name, rest, number, hd, hs⟩ | ⟨-, -, -⟩
  · exact ⟨h.leading, h.groups, h.group, fun d hd => ⟨Nat.succ_pos _, (h.draft d hd).2⟩,
      Nat.le_trans h.lastLine (by omega)⟩
  · have hended := within_move (within_ended h)
    refine ⟨hended.leading, hended.groups, fun g hg => ?_, fun d hd => ?_, Nat.le_refl _⟩
    · cases hg
      exact ⟨Nat.le_refl _, fun p hp => by cases hp⟩
    · rw [draft_endGroup, draft_endDraft] at hd
      cases hd
  · -- A protocol is open, so a line has been met and this one comes behind it: fields lie strictly
    -- behind the start of their block.
    obtain ⟨hpos, hwithin⟩ := h.draft d hd
    have hbehind : b.lastLine < t.index := Nat.lt_of_le_of_lt h.lastLine (by omega)
    have hadd := Draft.within_add hwithin hbehind
    unfold extend
    simp only
    split
    · exact within_setDraft (within_place hmoved (Draft.within_finish hadd)) fun d hd => by cases hd
    · refine within_setDraft hmoved fun d' hd' => ?_
      cases hd'
      exact ⟨Nat.succ_pos _, hadd⟩
  · have hbase : b.base ≤ t.index := by
      rcases hg : b.group with _ | g
      · rw [base, hg]
        exact Nat.zero_le _
      · rw [base, hg]
        exact Nat.le_trans (h.group g hg).1 (Nat.le_trans h.lastLine (Nat.sub_le _ _))
    have hdraft : Draft.Within ⟨name, number.map Numeral.value, t.index, [], none,
        braceBalance t.text⟩ b.base t.index :=
      ⟨hbase, Nat.le_refl _, fun m hm => (by cases hm), fun c hc => by cases hc⟩
    unfold Builder.declare
    simp only
    split
    · exact within_place hmoved (Draft.within_finish hdraft)
    · refine within_setDraft hmoved fun d' hd' => ?_
      cases hd'
      exact ⟨Nat.succ_pos _, hdraft⟩
  · exact hmoved

theorem within_finish (h : b.Within n) : b.finish.Within (n - 1) :=
  have hended := within_ended h
  ⟨fun p hp => (hended.leading p hp).mono hended.lastLine,
    fun g hg => (hended.groups g hg).mono hended.lastLine⟩

end Builder

/-- Whether tokens are numbered from zero. -/
def Numbered (ts : List Token) : Prop := ∀ (i : Nat) (t : Token), ts[i]? = some t → t.index = i

theorem numbered_ofLines (ls : List Text) : Numbered (Token.ofLines ls) := by
  intro i t ht
  rw [Token.ofLines, List.getElem?_mapIdx] at ht
  obtain ⟨l, -, rfl⟩ := Option.map_eq_some_iff.mp ht
  rfl

namespace Builder

/-- What is built before a line. -/
def before (ts : List Token) (n : Nat) : Builder := (ts.take n).foldl step initial

theorem before_succ {ts : List Token} {n : Nat} {t : Token} (h : ts[n]? = some t) :
    before ts (n + 1) = (before ts n).step t := by
  rw [before, List.take_add_one, h, Option.toList_some, List.foldl_append]
  rfl

theorem ofTokens_eq (ts : List Token) : ofTokens ts = (before ts ts.length).finish := by
  rw [before, List.take_length, ofTokens]

/-- **All that is built before a line lies in the lines before it.** -/
theorem within_before {ts : List Token} (hts : Numbered ts) {n : Nat} (hn : n ≤ ts.length) :
    (before ts n).Within n := by
  induction n with
  | zero => exact within_initial
  | succ n ih =>
    have ht : ts[n]? = some ts[n] := List.getElem?_eq_getElem hn
    have hindex := hts n _ ht
    rw [before_succ ht]
    have hstep := within_step (t := ts[n]) (hindex.symm ▸ ih (by omega))
    rwa [hindex] at hstep

end Builder

/-- **The outline of a document lies in its lines**, and its modules and protocols cover what is in
them. -/
theorem within_ofTokens {ts : List Token} (hts : Numbered ts) :
    (ofTokens ts).Within (ts.length - 1) := by
  rw [Builder.ofTokens_eq]
  exact Builder.within_finish (Builder.within_before hts (Nat.le_refl _))

end Outline
end Sproto
