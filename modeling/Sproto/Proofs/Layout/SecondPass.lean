import Mathlib.Data.List.Forall2
import Sproto.Proofs.Layout.Rewriting

/-! # The second pass

What the pass over the lines that were written makes of them.  It goes along with the first one: each line
is written as it stands, meets the same depth, and is or is not part of an empty block as before, so the
sections are the same up to the spelling of their rows (`Section.Same`).

That is so up to a protocol that is cut off.  The closing brace that was added is a line of it now, which
may end it, may stand deeper than before, or may seem to close the block that begins right before it.
`Relaid.follows` says what comes of that: what is cut off once more ends one stage further on
(`Ending.next`), and where every protocol that is cut off ends in a closing brace nothing changes. -/
namespace Sproto

open Text

/-! ## Sections that are laid out alike -/

/-- Sections with the same lines. -/
inductive Section.Same (s : Style) : Section → Section → Prop
  | banner (text : Text) : Same s (.banner text) (.banner text)
  | comment (text : Text) : Same s (.comment text) (.comment text)
  | stray (text : Text) : Same s (.stray text) (.stray text)
  | protocol {rows rows' : List Row} (h : rows.map (Row.line s) = rows'.map (Row.line s)) :
      Same s (.protocol rows) (.protocol rows')

/-- Bodies with the same lines at the same depth. -/
structure Body.Same (s : Style) (b b' : Body) : Prop where
  depth_eq : b'.depth = b.depth
  lines_eq : b.rows.map (Row.line s) = b'.rows.map (Row.line s)

theorem Body.Same.addEmptyBlock {s : Style} {b b' : Body} {k : BlockKind} (h : b.Same s b') :
    (b.addEmptyBlock k).Same s (b'.addEmptyBlock k) := by
  refine ⟨h.depth_eq, ?_⟩
  simp only [Body.addEmptyBlock, List.map_append, h.lines_eq]

namespace Section

variable {s : Style}

theorem Same.lines_eq {a b : Section} (h : Same s a b) : a.lines s = b.lines s := by
  cases h with
  | protocol h => exact h
  | _ => rfl

theorem Same.isSetOff_eq {a b : Section} (h : Same s a b) : a.isSetOff = b.isSetOff := by
  cases h <;> rfl

theorem Same.parted_eq {a a' b b' : Section} (h : Same s a a') (h' : Same s b b') :
    parted a b = parted a' b' := by
  cases h <;> cases h' <;> rfl

/-- **Blank lines depend on the kinds of neighbours alone.** -/
theorem layOut_congr {as bs : List Section} (h : List.Forall₂ (Same s) as bs) :
    layOut s as = layOut s bs := by
  induction h with
  | nil => rfl
  | cons hab hrest ih =>
    cases hrest with
    | nil => rw [layOut, layOut, hab.lines_eq, hab.isSetOff_eq]
    | cons hcd hrest => rw [layOut, layOut, hab.lines_eq, hab.parted_eq hcd, ih]

/-! ## The second pass -/

/-- What is open in the two passes. -/
def Together (s : Style) : Option Body → Option Body → Prop
  | none, none => True
  | some b, some b' => b.Same s b'
  | _, _ => False

/-- A protocol ends in both passes or goes on in both. -/
theorem ended_same {b b' : Body} (h : b.Same s b') :
    List.Forall₂ (Same s) b.ended b'.ended ∧ Together s b.goesOn b'.goesOn := by
  unfold Body.ended Body.goesOn
  rw [h.depth_eq]
  split
  · exact ⟨.cons (.protocol h.lines_eq) .nil, trivial⟩
  · exact ⟨.nil, h⟩

/-- A banner or a declaration is laid out the same outside any protocol. -/
theorem step_together_of_isCut {t t' : Token} (ha : t.Alike t') (hcut : t.isCut = true) :
    List.Forall₂ (Same s) (step none (.line t)).1 (step none (.line t')).1 ∧
      Together s (step none (.line t)).2 (step none (.line t')).2 := by
  have hbal := ha.braceBalance_eq
  have htext := ha.text
  have hshape := ha.shape
  generalize hsh : t.shape = sh at hshape htext
  generalize hsh' : t'.shape = sh' at hshape
  unfold Token.isCut at hcut
  rw [hsh] at hcut
  cases hshape with
  | plain hp =>
    cases sh with
    | banner =>
      have htrim := htext rfl (fun h => by cases h)
      simp only [step, hsh, hsh', cutOff, List.nil_append, htrim]
      exact ⟨.cons (.banner _) .nil, trivial⟩
    | protocol name number rest => cases hp
    | _ => cases hcut
  | block h => cases hcut
  | protocol hn hrest =>
    simp only [step, hsh, hsh', cutOff, List.nil_append]
    refine ended_same ⟨hbal, ?_⟩
    simp only [Body.declare, hn, hrest]
  | field hn h => cases hcut

/-- **One line keeps the passes together.** -/
theorem step_together {current current' : Option Body} (hc : Together s current current')
    {t t' : Token} (ha : t.Alike t') (hcut : current = none ∨ t.isCut = false)
    (hline : s.lineOf (current.map Body.depth) t = s.lineOf (current.map Body.depth) t') :
    List.Forall₂ (Same s) (step current (.line t)).1 (step current' (.line t')).1 ∧
      Together s (step current (.line t)).2 (step current' (.line t')).2 := by
  cases hkind : t.isCut with
  | true =>
    have hnone : current = none := hcut.resolve_right (by simp [hkind])
    subst hnone
    cases current' with
    | none => exact step_together_of_isCut ha hkind
    | some b => exact absurd hc id
  | false =>
    have hkind' : t'.isCut = false := by rw [ha.isCut_eq, hkind]
    cases current with
    | none =>
      cases current' with
      | some b => exact absurd hc id
      | none =>
        rw [step_none_of_not_isCut hkind, step_none_of_not_isCut hkind']
        refine ⟨.cons ?_ .nil, trivial⟩
        -- outside, a line is a section of its own: a comment or a stray line
        have htext : Style.outsideLine t = Style.outsideLine t' := by
          rw [← lineOf_none_of_not_isCut s hkind, ← lineOf_none_of_not_isCut s hkind']
          exact hline
        unfold Style.outsideLine at htext
        unfold outside
        have hcomment := ha.shape.eq_iff_of_isPlain (p := .comment) rfl
        by_cases hs : t.shape = .comment
        · rw [if_pos hs, if_pos (hcomment.mpr hs)] at htext ⊢
          rw [htext]
          exact .comment _
        · rw [if_neg hs, if_neg fun h => hs (hcomment.mp h)] at htext ⊢
          rw [htext]
          exact .stray _
    | some b =>
      cases current' with
      | none => exact absurd hc id
      | some b' =>
        rw [step_some_of_not_isCut hkind, step_some_of_not_isCut hkind']
        refine ended_same ⟨?_, ?_⟩
        · simp only [Body.add, hc.depth_eq, ha.braceBalance_eq]
        · simp only [Body.add, List.map_append, List.map_cons, List.map_nil, hc.lines_eq]
          rw [line_rowOf s hkind, line_rowOf s hkind', hc.depth_eq]
          rw [show s.lineOf (some b.depth) t = s.lineOf (some b.depth) t' from hline]

end Section

namespace Section

/-- What is open in the two passes, with the same ending. -/
def Abreast (s : Style) : Option Body → Option Body → Prop
  | none, none => True
  | some b, some b' => b.Same s b' ∧ b'.ending = b.ending
  | _, _ => False

theorem Abreast.eq_none {current' : Option Body} (h : Abreast s none current') : current' = none := by
  rcases current' with _ | b'
  · rfl
  · exact absurd h id

theorem Abreast.exists_some {b : Body} {current' : Option Body} (h : Abreast s (some b) current') :
    ∃ b', current' = some b' ∧ b.Same s b' ∧ b'.ending = b.ending := by
  rcases current' with _ | b'
  · exact absurd h id
  · exact ⟨b', rfl, h⟩

theorem Abreast.addEmptyBlock {b b' : Body} (h : b.Same s b') (k : BlockKind) :
    Abreast s (some (b.addEmptyBlock k)) (some (b'.addEmptyBlock k)) :=
  ⟨h.addEmptyBlock, by rw [b.ending_addEmptyBlock, b'.ending_addEmptyBlock]⟩

theorem Abreast.together {current current' : Option Body} (h : Abreast s current current') :
    Together s current current' := by
  rcases current with _ | b
  · rw [h.eq_none]
    trivial
  · obtain ⟨b', rfl, hsame, -⟩ := h.exists_some
    exact hsame

/-- **One line keeps the passes abreast.** -/
theorem step_abreast {current current' : Option Body} (hc : Abreast s current current') {t t' : Token}
    (ht : t.Proper) (hw : t.Written t'.text) (ht' : t'.shape = Shape.read t'.text)
    (hcut : current = none ∨ t.isCut = false)
    (hline : s.lineOf (current.map Body.depth) t = s.lineOf (current.map Body.depth) t') :
    List.Forall₂ (Same s) (step current (.line t)).1 (step current' (.line t')).1 ∧
      Abreast s (step current (.line t)).2 (step current' (.line t')).2 := by
  have ha := hw.alike ht'
  obtain ⟨hsecs, hnext⟩ := step_together hc.together ha hcut hline
  refine ⟨hsecs, ?_⟩
  rcases hstep : (step current (.line t)).2 with _ | b <;>
    rcases hstep' : (step current' (.line t')).2 with _ | b' <;> rw [hstep, hstep'] at hnext
  · trivial
  · exact absurd hnext id
  · exact absurd hnext id
  · refine ⟨hnext, ?_⟩
    rw [ending_of_step ht.toGenuine hstep, ending_of_step (hw.proper ht ht').toGenuine hstep',
      ha.ending_eq]

/-- The pass over `ts'` with `current'` open follows the pass over `ts` with `current` open: what it cuts
off ends one stage further on, and if nothing is left to add its sections are the same. -/
structure Follows (s : Style) (current : Option Body) (ts : List Token) (current' : Option Body)
    (ts' : List Token) : Prop where
  endings : (endings current' (Item.ofTokens ts')).Sublist
    ((endings current (Item.ofTokens ts)).map Ending.next)
  same : (∀ e ∈ Section.endings current (Item.ofTokens ts), e = .closing) →
    List.Forall₂ (Same s) (gather current ts) (gather current' ts')

end Section

namespace Relaid

variable {s : Style} {current : Option Body} {ts ts' : List Token}

theorem cutAhead_eq (h : Relaid s none ts ts') : cutAhead ts' = cutAhead ts := by
  cases h with
  | done => rfl
  | outside ht hw ht' h hrest => exact (hw.alike ht').isCut_eq

/-- A closing brace comes next before as after, unless one is added. -/
theorem head_closeBrace (h : Relaid s current ts ts')
    (hahead : ∀ b, current = some b → cutAhead ts = false) :
    ts'.head?.any (·.shape = .closeBrace) = ts.head?.any (·.shape = .closeBrace) := by
  cases h with
  | done => rfl
  | outside ht hw ht' h hrest =>
    simp [(hw.alike ht').shape.eq_iff_of_isPlain (p := .closeBrace) rfl]
  | inside hd ht hw ht' hcut hempty h hahead hrest =>
    simp [(hw.alike ht').shape.eq_iff_of_isPlain (p := .closeBrace) rfl]
  | closed hd ht hshape ht' h hrest => simp [Token.shape_of_emptyBlock ht' h, hshape]
  | pair hd ht hu hshape hclose ht' h hrest => simp [Token.shape_of_emptyBlock ht' h, hshape]
  | kept hcut hb hrest => simp [hahead _ rfl] at hcut
  | mended hd hcut hb hc h hrest => simp [hahead _ rfl] at hcut
  | dangling hd ht hw ht' hshape hempty hopen hcut hc h hrest =>
    simp [(hw.alike ht').shape.eq_iff_of_isPlain (p := .closeBrace) rfl]

/-- A line begins an empty block before as after, unless the closing brace that is added ends it. -/
theorem opensEmpty_eq (h : Relaid s current ts ts') {t t' : Token} (ha : t.Alike t')
    (hahead : ∀ b, current = some b → t.ending = .blockStart → cutAhead ts = false) :
    t'.opensEmpty ts' = t.opensEmpty ts := by
  have hshape := ha.shape
  unfold Token.ending at hahead
  unfold Token.opensEmpty
  generalize t.shape = sh at hshape hahead
  generalize t'.shape = sh' at hshape
  cases hshape with
  | @block k closed rest rest' hrest =>
    cases closed with
    | true => rfl
    | false => exact h.head_closeBrace fun b hb => hahead b hb rfl
  | plain hp =>
    cases sh with
    | block k closed rest => cases hp
    | _ => rfl
  | _ => rfl

/-- A protocol that is cut off behind a closing brace is cut off there once more. -/
theorem follows_kept {b b' : Body} (hcut : cutAhead ts = true) (hb : b.ending = .closing)
    (h : Relaid s none ts ts') (hsame : b.Same s b') (hb' : b'.ending = b.ending)
    (hrest : Section.Follows s none ts none ts') : Section.Follows s (some b) ts (some b') ts' := by
  have hcut' : cutAhead ts' = true := by rw [h.cutAhead_eq, hcut]
  have hends := Section.endings_of_cutAhead hcut (some b)
  refine ⟨?_, fun hall => ?_⟩
  · rw [hends, Section.endings_of_cutAhead hcut', Section.ending, Section.ending, hb', hb]
    exact hrest.endings.cons_cons _
  · rw [Section.gather_of_cutAhead hcut, Section.gather_of_cutAhead hcut']
    refine List.rel_append (.cons ?_ .nil) (hrest.same fun e he => hall e ?_)
    · rw [Body.cutOff_of_closing hb, Body.cutOff_of_closing (hb'.trans hb)]
      exact .protocol hsame.lines_eq
    · rw [hends]
      exact List.mem_append_right _ he

/-- The closing brace that was added is a line of the protocol now.  It ends the protocol, or the protocol
is cut off behind it. -/
theorem follows_mended {b b' : Body} {c : Token} (hcut : cutAhead ts = true) (hb : b.ending = .other)
    (hc : c.shape = Shape.read c.text) (htext : c.text = ['}']) (h : Relaid s none ts ts')
    (hrest : Section.Follows s none ts none ts') :
    Section.Follows s (some b) ts (some b') (c :: ts') := by
  have hcut' : cutAhead ts' = true := by rw [h.cutAhead_eq, hcut]
  have hclose : c.shape = .closeBrace := by
    rw [hc, htext]
    decide
  have hgenuine : c.Genuine := ⟨hc, by rw [htext]; decide⟩
  have hends := Section.endings_of_cutAhead hcut (some b)
  refine ⟨?_, fun hall => ?_⟩
  · have hlast : (Section.ending (Section.step (some b') (.line c)).2).Sublist [.closing] := by
      rcases hstep : (Section.step (some b') (.line c)).2 with _ | d
      · exact List.nil_sublist _
      · rw [Section.ending, Section.ending_of_step hgenuine hstep, Token.ending, hclose]
    rw [Section.endings_line b' (Section.opensEmpty_closeBrace hclose ts') (by rw [Token.isCut, hclose]),
      Section.endings_of_cutAhead hcut', hends, Section.ending, hb]
    exact hlast.append hrest.endings
  · have hclosing := hall b.ending (by rw [hends]; exact List.mem_cons_self)
    rw [hb] at hclosing
    cases hclosing

/-- The start of a block and the closing brace that was added are an empty block now, and the protocol is
cut off behind it. -/
theorem follows_dangling {b b' : Body} {t t' c : Token} {k : BlockKind} {rest : Text} (ht : t.Proper)
    (ha : t.Alike t') (hshape : t.shape = .block k false rest) (hempty : t.opensEmpty ts = false)
    (hopen : 0 < b.depth + braceBalance t.text) (hcut : cutAhead ts = true)
    (hc : c.shape = Shape.read c.text) (htext : c.text = ['}']) (h : Relaid s none ts ts')
    (hrest : Section.Follows s none ts none ts') :
    Section.Follows s (some b) (t :: ts) (some b') (t' :: c :: ts') := by
  have hcut' : cutAhead ts' = true := by rw [h.cutAhead_eq, hcut]
  have hline : t.isCut = false := by rw [Token.isCut, hshape]
  have hclose : c.shape = .closeBrace := by
    rw [hc, htext]
    decide
  obtain ⟨rest', hshape'⟩ : ∃ rest', t'.shape = .block k false rest' := by
    have hsh := ha.shape
    rw [hshape] at hsh
    generalize t'.shape = sh' at hsh
    cases hsh with
    | plain hp => cases hp
    | block hrest => exact ⟨_, rfl⟩
  have hends : Section.endings (some b) (Item.ofTokens (t :: ts)) =
      .blockStart :: Section.endings none (Item.ofTokens ts) := by
    have hstep : (Section.step (some b) (.line t)).2 = some (b.add t) := by
      rw [Section.step_some_of_not_isCut hline]
      exact Body.goesOn_eq_some_iff.mpr ⟨rfl, hopen⟩
    have hblock := Section.ending_of_step ht.toGenuine hstep
    rw [Token.ending, hshape] at hblock
    rw [Section.endings_line b hempty hline, hstep, Section.endings_of_cutAhead hcut, Section.ending,
      hblock]
    rfl
  refine ⟨?_, fun hall => ?_⟩
  · rw [Section.endings_pair b' hshape' hclose, Section.endings_of_cutAhead hcut', hends, Section.ending,
      b'.ending_addEmptyBlock]
    exact hrest.endings.cons_cons _
  · have hclosing := hall .blockStart (by rw [hends]; exact List.mem_cons_self)
    cases hclosing

/-- **The next pass follows the one before.** -/
theorem follows (hs : 0 < s.indent) (h : Relaid s current ts ts') {current' : Option Body}
    (hc : Section.Abreast s current current') : Section.Follows s current ts current' ts' := by
  induction h generalizing current' with
  | done =>
    rw [hc.eq_none]
    exact ⟨List.Sublist.refl _, fun _ => .nil⟩
  | @outside t t' ts ts' ht hw ht' htext hrest ih =>
    have hnone := hc.eq_none
    subst hnone
    have hline : s.lineOf none t = s.lineOf none t' := by
      rw [s.lineOf_none_lineOf_none ht ht' htext, htext]
    obtain ⟨hsecs, hnext⟩ := Section.step_abreast hc ht hw ht' (Or.inl rfl) hline
    obtain ⟨hends, hsame⟩ := ih hnext
    refine ⟨?_, fun hall => ?_⟩
    · rwa [Section.endings_none, Section.endings_none]
    · rw [Section.endings_none] at hall
      rw [Section.gather_none, Section.gather_none]
      exact List.rel_append hsecs (hsame hall)
  | @inside b t t' ts ts' hd ht hw ht' hcut hempty htext hahead hrest ih =>
    obtain ⟨b', rfl, -, -⟩ := hc.exists_some
    have ha := hw.alike ht'
    have hcut' : t'.isCut = false := by rw [ha.isCut_eq, hcut]
    have hline : s.lineOf (some b.depth) t = s.lineOf (some b.depth) t' := by
      have hclosed : ∀ k rest, t.shape ≠ .block k true rest := by
        intro k rest hshape
        rw [Token.opensEmpty, hshape] at hempty
        cases hempty
      rw [Style.lineOf_some_lineOf_some hs ht ht' hd hclosed htext, htext]
    have hempty' : t'.opensEmpty ts' = false := by
      rw [hrest.opensEmpty_eq ha, hempty]
      intro c hstep hend
      exact hahead c hstep ((Section.ending_of_step ht.toGenuine hstep).trans hend)
    obtain ⟨hsecs, hnext⟩ := Section.step_abreast hc ht hw ht' (Or.inr hcut) hline
    obtain ⟨hends, hsame⟩ := ih hnext
    refine ⟨?_, fun hall => ?_⟩
    · rwa [Section.endings_line b hempty hcut, Section.endings_line b' hempty' hcut']
    · rw [Section.endings_line b hempty hcut] at hall
      rw [Section.gather_line _ hempty, Section.gather_line _ hempty']
      exact List.rel_append hsecs (hsame hall)
  | @closed b t t' ts ts' k rest hd ht hshape ht' htext hrest ih =>
    obtain ⟨b', rfl, hsame, -⟩ := hc.exists_some
    have hblock := Token.shape_of_emptyBlock ht' htext
    obtain ⟨hends, hsecs⟩ := ih (.addEmptyBlock hsame k)
    refine ⟨?_, fun hall => ?_⟩
    · rwa [Section.endings_closed b hshape, Section.endings_closed b' hblock]
    · rw [Section.endings_closed b hshape] at hall
      rw [Section.gather_closed hshape, Section.gather_closed hblock]
      exact hsecs hall
  | @pair b t u t' ts ts' k rest hd ht hu hshape hclose ht' htext hrest ih =>
    obtain ⟨b', rfl, hsame, -⟩ := hc.exists_some
    have hblock := Token.shape_of_emptyBlock ht' htext
    obtain ⟨hends, hsecs⟩ := ih (.addEmptyBlock hsame k)
    refine ⟨?_, fun hall => ?_⟩
    · rwa [Section.endings_pair b hshape hclose, Section.endings_closed b' hblock]
    · rw [Section.endings_pair b hshape hclose] at hall
      rw [Section.gather_pair hshape hclose, Section.gather_closed hblock]
      exact hsecs hall
  | kept hcut hb hrest ih =>
    obtain ⟨b', rfl, hsame, hb'⟩ := hc.exists_some
    exact follows_kept hcut hb hrest hsame hb' (ih trivial)
  | mended hd hcut hb hclose htext hrest ih =>
    obtain ⟨b', rfl, -, -⟩ := hc.exists_some
    exact follows_mended hcut hb hclose htext hrest (ih trivial)
  | dangling hd ht hw ht' hshape hempty hopen hcut hclose htext hrest ih =>
    obtain ⟨b', rfl, -, -⟩ := hc.exists_some
    exact follows_dangling ht (hw.alike ht') hshape hempty hopen hcut hclose htext hrest
      (ih trivial)

end Relaid

namespace Rewritten

variable {s : Style} {depth : Option Int} {ts ts' : List Token}

theorem cutAhead_eq_false {d : Int} (h : Rewritten s (some d) ts ts') : cutAhead ts = false := by
  cases h with
  | inside hd ht hw ht' hcut hempty h hrest => exact hcut
  | closed hd ht hshape ht' h hrest => simp [cutAhead, Token.isCut, hshape]
  | pair hd ht hu hshape hclose ht' h hrest => simp [cutAhead, Token.isCut, hshape]

/-- What is rewritten is relaid, and nothing is cut off. -/
theorem relaid (h : Rewritten s depth ts ts') {current : Option Body}
    (hdepth : current.map Body.depth = depth) :
    Relaid s current ts ts' ∧ Section.endings current (Item.ofTokens ts) = [] := by
  induction h generalizing current with
  | done =>
    rw [Option.map_eq_none_iff.mp hdepth]
    exact ⟨.done, rfl⟩
  | outside ht hw ht' h hrest ih =>
    rw [Option.map_eq_none_iff.mp hdepth]
    obtain ⟨hrelaid, hends⟩ := ih (Section.map_depth_step_line none _)
    exact ⟨.outside ht hw ht' h hrelaid, by rw [Section.endings_none, hends]⟩
  | @inside d t t' ts ts' hd ht hw ht' hcut hempty h hrest ih =>
    obtain ⟨b, rfl, rfl⟩ := Option.map_eq_some_iff.mp hdepth
    have hnext : _ = nest (some b.depth) t := Section.map_depth_step_line (some b) t
    obtain ⟨hrelaid, hends⟩ := ih hnext
    refine ⟨.inside hd ht hw ht' hcut hempty h ?_ hrelaid, ?_⟩
    · intro c hstep _
      rw [← hnext, hstep] at hrest
      exact hrest.cutAhead_eq_false
    · rw [Section.endings_line b hempty hcut, hends]
  | @closed d t t' ts ts' k rest hd ht hshape ht' h hrest ih =>
    obtain ⟨b, rfl, rfl⟩ := Option.map_eq_some_iff.mp hdepth
    obtain ⟨hrelaid, hends⟩ := @ih (some (b.addEmptyBlock k)) rfl
    exact ⟨.closed hd ht hshape ht' h hrelaid, by rw [Section.endings_closed b hshape, hends]⟩
  | @pair d t u t' ts ts' k rest hd ht hu hshape hclose ht' h hrest ih =>
    obtain ⟨b, rfl, rfl⟩ := Option.map_eq_some_iff.mp hdepth
    obtain ⟨hrelaid, hends⟩ := @ih (some (b.addEmptyBlock k)) rfl
    exact ⟨.pair hd ht hu hshape hclose ht' h hrelaid, by
      rw [Section.endings_pair b hshape hclose, hends]⟩

/-- **The pass over the rewritten lines gathers the same sections.** -/
theorem gather_same (hs : 0 < s.indent) (h : Rewritten s depth ts ts') {current current' : Option Body}
    (hdepth : current.map Body.depth = depth) (hc : Section.Abreast s current current') :
    List.Forall₂ (Section.Same s) (Section.gather current ts) (Section.gather current' ts') := by
  obtain ⟨hrelaid, hends⟩ := h.relaid hdepth
  exact (hrelaid.follows hs hc).same (by simp [hends])

end Rewritten

end Sproto
