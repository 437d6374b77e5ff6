import Sproto.Proofs.Outline.Tree

/-! # The pass that builds an outline

What the pass can do with one line (`Builder.step_cases`), and that it never leads beyond the lines it
has met: an outline that is built from lines that fit into positions fits itself (`fits_ofTokens`). -/
namespace Sproto

open Text

namespace Outline

/-! ## One line -/

namespace Builder

theorem step_blank (b : Builder) {t : Token} (h : t.shape = .blank) : b.step t = b := by
  simp only [step, h]

theorem step_banner (b : Builder) {t : Token} (h : t.shape = .banner) :
    b.step t = { b.endDraft.endGroup with
      group := some ⟨Banner.title t.text, t.index, t.index, []⟩
      lastLine := t.index } := by
  simp only [step, h]

/-- A declaration while no protocol is open. -/
theorem step_declare {b : Builder} (hd : b.draft = none) {t : Token} {name rest : Text}
    {number : Option Numeral} (h : t.shape = .protocol name number rest) :
    b.step t = { b with lastLine := t.index }.declare t name number := by
  simp only [step, h, hd]

/-- Any other line while no protocol is open. -/
theorem step_outside {b : Builder} (hd : b.draft = none) {t : Token} (hblank : t.shape ≠ .blank)
    (hbanner : t.shape ≠ .banner) (hp : ∀ name number rest, t.shape ≠ .protocol name number rest) :
    b.step t = { b with lastLine := t.index } := by
  cases h : t.shape with
  | blank => exact absurd h hblank
  | banner => exact absurd h hbanner
  | protocol name number rest => exact absurd h (hp name number rest)
  | _ => simp only [step, h, hd]

/-- A line of an open protocol. -/
theorem step_inside {b : Builder} {d : Draft} (hd : b.draft = some d) {t : Token}
    (hblank : t.shape ≠ .blank) (hbanner : t.shape ≠ .banner) :
    b.step t = { b with lastLine := t.index }.extend d t := by
  cases h : t.shape with
  | blank => exact absurd h hblank
  | banner => exact absurd h hbanner
  | _ => simp only [step, h, hd]

/-- All that a line can do. -/
inductive Step (b : Builder) (t : Token) : Builder → Prop
  | blank (h : t.shape = .blank) : Step b t b
  | banner (h : t.shape = .banner) :
      Step b t { b.endDraft.endGroup with
        group := some ⟨Banner.title t.text, t.index, t.index, []⟩
        lastLine := t.index }
  | inside {d : Draft} (hd : b.draft = some d) (hblank : t.shape ≠ .blank)
      (hbanner : t.shape ≠ .banner) : Step b t ({ b with lastLine := t.index }.extend d t)
  | declare {name rest : Text} {number : Option Numeral} (hd : b.draft = none)
      (h : t.shape = .protocol name number rest) :
      Step b t ({ b with lastLine := t.index }.declare t name number)
  | outside (hd : b.draft = none) (hbanner : t.shape ≠ .banner)
      (hp : ∀ name number rest, t.shape ≠ .protocol name number rest) :
      Step b t { b with lastLine := t.index }

theorem step_cases (b : Builder) (t : Token) : Step b t (b.step t) := by
  by_cases hblank : t.shape = .blank
  · rw [step_blank b hblank]
    exact .blank hblank
  by_cases hbanner : t.shape = .banner
  · rw [step_banner b hbanner]
    exact .banner hbanner
  cases hd : b.draft with
  | some d =>
    rw [step_inside hd hblank hbanner]
    exact .inside hd hblank hbanner
  | none =>
    by_cases hp : ∃ name number rest, t.shape = .protocol name number rest
    · obtain ⟨name, number, rest, hp⟩ := hp
      rw [step_declare hd hp]
      exact .declare hd hp
    · have hp : ∀ name number rest, t.shape ≠ .protocol name number rest :=
        fun name number rest h => hp ⟨name, number, rest, h⟩
      rw [step_outside hd hblank hbanner hp]
      exact .outside hd hbanner hp

end Builder

/-! ## Lines that fit -/

namespace Draft

structure Fits (d : Draft) : Prop where
  line : LineFits d.line
  members : ∀ m ∈ d.members, m.Fits
  block : ∀ b, d.block = some b → b.Fits

variable {d : Draft}

theorem fits_leaveBlock (h : d.Fits) : d.leaveBlock.Fits := by
  refine ⟨h.line, fun m hm => ?_, fun b hb => by cases hb⟩
  rcases List.mem_append.mp hm with hm | hm
  · exact h.members m hm
  · cases hblock : d.block with
    | none => rw [hblock] at hm; cases hm
    | some b =>
      rw [hblock] at hm
      cases List.mem_singleton.mp hm
      exact h.block b hblock

theorem fits_closeBlock (h : d.Fits) {stop : Nat} (hs : LineFits stop) : (d.closeBlock stop).Fits := by
  refine fits_leaveBlock ⟨h.line, h.members, fun b hb => ?_⟩
  obtain ⟨c, hc, rfl⟩ := Option.map_eq_some_iff.mp hb
  exact ⟨(h.block c hc).line, hs, (h.block c hc).fields⟩

theorem fits_addField (h : d.Fits) {f : Field} (hf : f.Fits) : (d.addField f).Fits := by
  unfold addField
  split
  · next b hb =>
    refine ⟨h.line, h.members, fun c hc => ?_⟩
    cases hc
    have hblock := h.block b hb
    refine ⟨hblock.line, hblock.stop, fun g hg => ?_⟩
    rcases List.mem_append.mp hg with hg | hg
    · exact hblock.fields g hg
    · cases List.mem_singleton.mp hg
      exact hf
  · next hb =>
    refine ⟨h.line, fun m hm => ?_, fun c hc => h.block c hc⟩
    rcases List.mem_append.mp hm with hm | hm
    · exact h.members m hm
    · cases List.mem_singleton.mp hm
      exact hf

theorem fits_addBlock (h : d.Fits) (k : BlockKind) (closed : Bool) {line : Nat} (hl : LineFits line) :
    (d.addBlock k closed line).Fits := by
  have hopen : Fits { d.leaveBlock with block := some ⟨k, line, line, []⟩ } := by
    refine ⟨h.line, (fits_leaveBlock h).members, fun b hb => ?_⟩
    cases hb
    exact ⟨hl, hl, fun f hf => by cases hf⟩
  unfold addBlock
  cases closed with
  | true => exact fits_leaveBlock hopen
  | false => exact hopen

theorem fits_add (h : d.Fits) {t : Token} (ht : LineFits t.index) : (d.add t).Fits := by
  have hmember : (d.addMember t).Fits := by
    unfold addMember
    split
    · exact fits_addBlock h _ _ ht
    · exact fits_addField h ht
    · exact h
  have hdepth : Fits { d.addMember t with depth := (d.addMember t).depth + braceBalance t.text } :=
    ⟨hmember.line, hmember.members, hmember.block⟩
  unfold add
  simp only
  split
  · exact fits_closeBlock hdepth ht
  · exact hdepth

theorem fits_finish (h : d.Fits) {stop : Nat} (hs : LineFits stop) : (d.finish stop).Fits :=
  ⟨h.line, hs, (fits_leaveBlock h).members⟩

end Draft

namespace Builder

structure Fits (b : Builder) : Prop where
  leading : ∀ p ∈ b.leading, p.Fits
  groups : ∀ g ∈ b.groups, g.Fits
  group : ∀ g, b.group = some g → g.Fits
  draft : ∀ d, b.draft = some d → d.Fits
  lastLine : LineFits b.lastLine

variable {b : Builder}

theorem fits_initial : initial.Fits := by
  refine ⟨?_, ?_, ?_, ?_, Nat.zero_le _⟩
  · exact fun p hp => by cases hp
  · exact fun g hg => by cases hg
  · exact fun g hg => by cases hg
  · exact fun d hd => by cases hd

theorem fits_place (h : b.Fits) {p : Protocol} (hp : p.Fits) : (b.place p).Fits := by
  unfold place
  split
  · next g hg =>
    refine ⟨h.leading, h.groups, fun g' hg' => ?_, h.draft, h.lastLine⟩
    cases hg'
    have hgroup := h.group g hg
    refine ⟨hgroup.line, hgroup.stop, fun q hq => ?_⟩
    rcases List.mem_append.mp hq with hq | hq
    · exact hgroup.protocols q hq
    · cases List.mem_singleton.mp hq
      exact hp
  · next hg =>
    refine ⟨fun q hq => ?_, h.groups, fun g' hg' => h.group g' hg', h.draft, h.lastLine⟩
    rcases List.mem_append.mp hq with hq | hq
    · exact h.leading q hq
    · cases List.mem_singleton.mp hq
      exact hp

/-- A pass without an open protocol fits if it did with one. -/
theorem fits_setDraft (h : b.Fits) {draft : Option Draft} (hd : ∀ d, draft = some d → d.Fits) :
    Fits { b with draft := draft } :=
  ⟨h.leading, h.groups, h.group, hd, h.lastLine⟩

theorem fits_endDraft (h : b.Fits) : b.endDraft.Fits := by
  unfold endDraft
  split
  · exact h
  · next d hd =>
    have hdraft := h.draft d hd
    have hblock : LineFits ((d.block.map Block.line).getD 0) := by
      cases hb : d.block with
      | none => exact Nat.zero_le _
      | some c => exact (hdraft.block c hb).line
    have hclosed := Draft.fits_closeBlock hdraft (hblock.max h.lastLine)
    exact fits_setDraft (fits_place h (Draft.fits_finish hclosed (hclosed.line.max h.lastLine)))
      fun d hd => by cases hd

theorem fits_endGroup (h : b.Fits) : b.endGroup.Fits := by
  unfold endGroup
  split
  · exact h
  · next g hg =>
    have hgroup := h.group g hg
    refine ⟨h.leading, fun g' hg' => ?_, fun g' hg' => (by cases hg'), h.draft, h.lastLine⟩
    rcases List.mem_append.mp hg' with hg' | hg'
    · exact h.groups g' hg'
    · cases List.mem_singleton.mp hg'
      exact ⟨hgroup.line, hgroup.line.max h.lastLine, hgroup.protocols⟩

/-- **A line that fits keeps what is built within what fits.** -/
theorem fits_step (h : b.Fits) {t : Token} (ht : LineFits t.index) : (b.step t).Fits := by
  have hmoved : Fits { b with lastLine := t.index } :=
    ⟨h.leading, h.groups, h.group, h.draft, ht⟩
  have hstep := step_cases b t
  generalize b.step t = c at hstep ⊢
  cases hstep with
  | blank hs => exact h
  | banner hs =>
    have hended := fits_endGroup (fits_endDraft h)
    refine ⟨hended.leading, hended.groups, fun g hg => ?_, hended.draft, ht⟩
    cases hg
    exact ⟨ht, ht, fun p hp => by cases hp⟩
  | inside hd hblank hbanner =>
    have hdraft := Draft.fits_add (h.draft _ hd) ht
    unfold extend
    simp only
    split
    · exact fits_setDraft (fits_place hmoved (Draft.fits_finish hdraft ht)) fun d hd => by cases hd
    · exact fits_setDraft hmoved fun d' hd' => Option.some.inj hd' ▸ hdraft
  | @declare name rest number hd hs =>
    have hdraft : Draft.Fits ⟨name, number.map Numeral.value, t.index, [], none,
        braceBalance t.text⟩ :=
      ⟨ht, fun m hm => (by cases hm), fun c hc => by cases hc⟩
    unfold Builder.declare
    simp only
    split
    · exact fits_place hmoved (Draft.fits_finish hdraft ht)
    · exact fits_setDraft hmoved fun d' hd' => Option.some.inj hd' ▸ hdraft
  | outside hd hbanner hp => exact hmoved

theorem fits_finish (h : b.Fits) : b.finish.Fits :=
  have hended := fits_endGroup (fits_endDraft h)
  ⟨hended.leading, hended.groups⟩

end Builder

/-- **The outline of lines that fit does so too.** -/
theorem fits_ofTokens {ts : List Token} (h : ∀ t ∈ ts, LineFits t.index) : (ofTokens ts).Fits := by
  have hrun : ∀ {b : Builder}, b.Fits → (ts.foldl Builder.step b).Fits := by
    induction ts with
    | nil => exact fun hb => hb
    | cons t ts ih =>
      obtain ⟨ht, htail⟩ := List.forall_mem_cons.mp h
      exact fun hb => ih htail (Builder.fits_step hb ht)
  exact Builder.fits_finish (hrun Builder.fits_initial)

end Outline
end Sproto
