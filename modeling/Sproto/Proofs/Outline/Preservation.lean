import Sproto.Proofs.Layout.Document
import Sproto.Proofs.Outline.Agreement

/-! # Formatting preserves the outline

A document and its formatted form have the same outline up to places, but for the banner that is put in
front of a document without a number range: that one becomes a module of its own, which takes the
protocols before the first banner (`trees_format`).

Layout and outline both count braces, but layout skips over an empty block and closes no block by
itself.  In a document that is `Shallow` the counts are the same nevertheless, and an empty block adds
the same member whether it takes one line or two. -/
namespace Sproto

open Text

/-! ## Shallow documents -/

/-- Whether a line at a depth is no block start inside a protocol, or one that stands directly in it and
has no further brace behind its own. -/
def Token.isShallow (depth : Option Int) (t : Token) : Bool :=
  match t.shape, depth with
  | .block _ _ rest, some d =>
      d = 1 && !(beforeComment rest).contains '{' && !(beforeComment rest).contains '}'
  | _, _ => true

/-- Whether all lines that are met from a depth on are shallow; depths are counted by braces. -/
def staysShallow : Option Int → List Token → Bool
  | _, [] => true
  | depth, t :: ts => t.isShallow depth && staysShallow (nest depth t) ts

/-- Every block start inside a protocol stands directly in it, and has no further brace behind its
own. -/
def Shallow (source : Text) : Prop := staysShallow none (layoutTokens source) = true

instance (source : Text) : Decidable (Shallow source) := inferInstanceAs (Decidable (_ = true))

theorem staysShallow_cons {depth : Option Int} {t : Token} {ts : List Token}
    (h : staysShallow depth (t :: ts) = true) :
    t.isShallow depth = true ∧ staysShallow (nest depth t) ts = true := by
  simpa only [staysShallow, Bool.and_eq_true] using h

namespace Token

/-- A block start of a shallow document is met at depth one, and the rest of its line does not change
the depth. -/
theorem of_isShallow {t : Token} {d : Int} (h : t.isShallow (some d) = true) {k : BlockKind}
    {closed : Bool} {rest : Text} (hs : t.shape = .block k closed rest) :
    d = 1 ∧ braceBalance rest = 0 := by
  simp only [isShallow, hs, Bool.and_eq_true, decide_eq_true_eq, Bool.not_eq_true',
    List.contains_eq_mem, decide_eq_false_iff_not] at h
  obtain ⟨⟨hd, hopen⟩, hclose⟩ := h
  refine ⟨hd, ?_⟩
  rw [braceBalance, List.count_eq_zero.mpr hopen, List.count_eq_zero.mpr hclose]
  rfl

theorem braceBalance_block {t : Token} (ht : t.Genuine) {k : BlockKind} {rest : Text}
    (hs : t.shape = .block k false rest) : braceBalance t.text = 1 + braceBalance rest := by
  rw [← braceBalance_solid, solid_block ht hs, braceBalance_of_isWord_append k.isName_word.2,
    braceBalance_cons (by decide), braceBalance_solid]
  rfl

theorem braceBalance_closedBlock {t : Token} (ht : t.Genuine) {k : BlockKind} {rest : Text}
    (hs : t.shape = .block k true rest) : braceBalance t.text = braceBalance rest := by
  have hweight : ∀ n : Int, braceWeight '{' + (braceWeight '}' + n) = n := by
    intro n
    simp only [braceWeight, if_true, if_neg (show '}' ≠ '{' by decide)]
    omega
  rw [← braceBalance_solid, solid_closedBlock ht hs, braceBalance_of_isWord_append k.isName_word.2,
    braceBalance_cons (by decide), braceBalance_cons (by decide), hweight, braceBalance_solid]

theorem braceBalance_closeBrace {t : Token} (ht : t.Genuine) (hs : t.shape = .closeBrace) :
    braceBalance t.text = -1 := by
  rw [← braceBalance_solid, solid_closeBrace ht hs]
  rfl

end Token

/-- The depth behind a line that begins or ends no protocol by its shape. -/
theorem nest_of_not_isCut {t : Token} (h : t.isCut = false) (depth : Option Int) :
    nest depth t = depth.bind fun d => keepOpen (d + braceBalance t.text) := by
  obtain ⟨hbanner, hp⟩ := Token.isCut_eq_false_iff.mp h
  cases hs : t.shape with
  | banner => exact absurd hs hbanner
  | protocol name number rest => exact absurd hs (hp name number rest)
  | _ => simp only [nest, hs]

namespace Outline

/-! ## Depths and open blocks -/

namespace Draft

theorem depth_addMember (d : Draft) (t : Token) : (d.addMember t).depth = d.depth := by
  unfold addMember
  split
  · next k closed rest hs => cases closed <;> rfl
  · unfold addField
    split <;> rfl
  · rfl

/-- A draft counts the braces of the lines that are added to it. -/
theorem depth_add (d : Draft) (t : Token) : (d.add t).depth = d.depth + braceBalance t.text := by
  unfold add
  simp only [depth_addMember]
  split <;> rfl

/-- No block stays open when at most the protocol's brace does. -/
theorem block_add (d : Draft) (t : Token) (h : (d.add t).depth ≤ 1) : (d.add t).block = none := by
  rw [depth_add] at h
  unfold add
  simp only [depth_addMember, if_pos h]
  rfl

/-- The draft with a complete block more. -/
def withBlock (d : Draft) (b : Block) : Draft :=
  { d with members := d.members ++ [.block b], block := none }

theorem withBlock_same {d d' : Draft} (h : d.Same d') {b b' : Block} (hb : b.tree = b'.tree) :
    (d.withBlock b).Same (d'.withBlock b') := by
  refine ⟨h.name, h.number, ?_, rfl, h.depth⟩
  simp only [withBlock, List.map_append, h.members, List.map_cons, Member.tree, hb]

theorem Same.block_eq_none {d d' : Draft} (h : d.Same d') (hb : d.block = none) :
    d'.block = none := by
  have hmap := h.block
  rw [hb] at hmap
  exact Option.map_eq_none_iff.mp hmap.symm

/-- An empty block on one line. -/
theorem add_closed {d : Draft} (hblock : d.block = none) {t : Token} {k : BlockKind} {rest : Text}
    (hs : t.shape = .block k true rest) (hbal : braceBalance t.text = 0) :
    d.add t = d.withBlock ⟨k, t.index, t.index, []⟩ := by
  obtain ⟨name, number, line, members, block, depth⟩ := d
  simp only at hblock
  subst hblock
  simp [add, addMember, hs, addBlock, leaveBlock, closeBlock, withBlock, hbal]

/-- An empty block over two lines. -/
theorem add_pair {d : Draft} (hblock : d.block = none) (hdepth : d.depth = 1) {t u : Token}
    {k : BlockKind} {rest : Text} (hs : t.shape = .block k false rest)
    (hbal : braceBalance t.text = 1) (hu : u.shape = .closeBrace) (hbal' : braceBalance u.text = -1) :
    (d.add t).add u = d.withBlock ⟨k, t.index, u.index, []⟩ := by
  obtain ⟨name, number, line, members, block, depth⟩ := d
  simp only at hblock hdepth
  subst hblock hdepth
  simp [add, addMember, hs, hu, addBlock, leaveBlock, closeBlock, withBlock, hbal, hbal']

end Draft

namespace Builder

/-- No block is open while at most the protocol's brace is. -/
def Settled (b : Builder) : Prop := ∀ d, b.draft = some d → d.depth ≤ 1 → d.block = none

theorem draft_endDraft (b : Builder) : b.endDraft.draft = none := by
  unfold endDraft
  split
  · next h => exact h
  · rfl

theorem draft_extend (b : Builder) (d : Draft) (t : Token) :
    (b.extend d t).draft = if (d.add t).depth ≤ 0 then none else some (d.add t) := by
  unfold extend
  simp only
  split <;> rfl

/-- A draft is kept as long as its depth is. -/
theorem map_depth_eq_keepOpen (d : Draft) :
    (if d.depth ≤ 0 then none else some d).map Draft.depth = keepOpen d.depth := by
  unfold keepOpen
  split <;> rfl

variable {b : Builder} {t : Token}

/-- **Layout and outline are at the same depth**, as long as no protocol is cut off. -/
theorem depth_step (hblank : t.shape ≠ .blank) (h : b.draft = none ∨ t.isCut = false) :
    (b.step t).draft.map Draft.depth = nest (b.draft.map Draft.depth) t := by
  have hstep := step_cases b t
  generalize b.step t = c at hstep ⊢
  cases hstep with
  | blank hs => exact absurd hs hblank
  | banner hs => simp only [draft_endGroup, draft_endDraft, nest, hs, Option.map_none]
  | declare hd hs =>
    unfold Builder.declare
    simp only [nest, hs, keepOpen]
    split
    · rw [draft_place, hd]
      rfl
    · rfl
  | outside hd hbanner hp =>
    rw [nest_of_not_isCut (Token.isCut_eq_false_iff.mpr ⟨hbanner, hp⟩), hd]
    rfl
  | @inside d hd _ hbanner =>
    have hcut : t.isCut = false := h.resolve_left (by rw [hd]; exact fun h => by cases h)
    rw [nest_of_not_isCut hcut, draft_extend, map_depth_eq_keepOpen, Draft.depth_add, hd]
    rfl

theorem settled_step (h : b.Settled) : (b.step t).Settled := by
  have hstep := step_cases b t
  generalize b.step t = c at hstep ⊢
  cases hstep with
  | blank hs => exact h
  | banner hs =>
    intro d hd
    rw [draft_endGroup, draft_endDraft] at hd
    cases hd
  | @inside d hd hblank hbanner =>
    intro d' hd' hdepth
    rw [draft_extend] at hd'
    split at hd'
    · cases hd'
    · cases hd'
      exact Draft.block_add d t hdepth
  | declare hd hs =>
    unfold Builder.declare
    simp only
    split
    · intro d' hd'
      rw [draft_place, hd] at hd'
      cases hd'
    · intro d' hd' _
      cases hd'
      rfl
  | outside hd hbanner hp => exact h

/-! ## Whole runs -/

theorem same_initial : Same none initial initial := ⟨rfl, fun _ => rfl, .none⟩

/-- **The outline does not see blank lines, nor white space at the ends of lines.** -/
theorem foldl_condensed {ts ts' : List Token} (h : Condensed ts ts') {front : Option Text}
    {b b' : Builder} (hs : Same front b b') :
    Same front (ts.foldl step b) (ts'.foldl step b') := by
  induction h generalizing b b' with
  | nil => exact hs
  | blank ht hb h ih =>
    rw [List.foldl_cons, step_blank _ hb]
    exact ih hs
  | keep ht ht' htext h ih => exact ih (step_same hs (ht.alike_of_trimRight ht'.toGenuine htext))

/-- A line of an open protocol that stays open. -/
theorem step_open {d e : Draft} (hd : b.draft = some d) (hblank : t.shape ≠ .blank)
    (hbanner : t.shape ≠ .banner) (he : d.add t = e) (hpos : 0 < e.depth) :
    b.step t = { b with draft := some e, lastLine := t.index } := by
  rw [step_inside hd hblank hbanner, extend, he]
  simp only [if_neg (by omega : ¬ e.depth ≤ 0)]

/-- An empty block on one line of an open protocol. -/
theorem step_emptyBlock {d : Draft} (hd : b.draft = some d) (hpos : 0 < d.depth)
    (hblock : d.block = none) (ht : t.Proper) {k : BlockKind} {rest : Text}
    (hs : t.shape = .block k true rest) (hrest : braceBalance rest = 0) :
    b.step t = { b with
      draft := some (d.withBlock ⟨k, t.index, t.index, []⟩), lastLine := t.index } := by
  rw [← Token.braceBalance_closedBlock ht.toGenuine hs] at hrest
  exact step_open hd ht.solid (by rw [hs]; simp) (Draft.add_closed hblock hs hrest) hpos

/-- An empty block over two lines of a protocol that is open at depth one. -/
theorem step_emptyPair {d : Draft} (hd : b.draft = some d) (hone : d.depth = 1)
    (hblock : d.block = none) {u : Token} (ht : t.Proper) (hu : u.Proper) {k : BlockKind} {rest : Text}
    (hs : t.shape = .block k false rest) (hrest : braceBalance rest = 0) (hc : u.shape = .closeBrace) :
    (b.step t).step u = { b with
      draft := some (d.withBlock ⟨k, t.index, u.index, []⟩), lastLine := u.index } := by
  have hopen := Token.braceBalance_block ht.toGenuine hs
  rw [hrest, Int.add_zero] at hopen
  have hback := Token.braceBalance_closeBrace hu.toGenuine hc
  have hstart : b.step t = { b with draft := some (d.add t), lastLine := t.index } := by
    refine step_open hd ht.solid (by rw [hs]; simp) rfl ?_
    rw [Draft.depth_add]
    omega
  have hpos : 0 < d.depth := by omega
  rw [hstart]
  exact step_open rfl hu.solid (by rw [hc]; simp) (Draft.add_pair hblock hone hs hopen hc hback) hpos

theorem Same.exists_drafts {front : Option Text} {b' : Builder} (h : Same front b b') {d : Int}
    (hd : b.draft.map Draft.depth = some d) :
    ∃ e e', b.draft = some e ∧ b'.draft = some e' ∧ e.Same e' ∧ e.depth = d ∧ e'.depth = d := by
  rcases h.draft_cases with ⟨hnone, -⟩ | ⟨e, e', he, he', hsame⟩
  · rw [hnone] at hd
    cases hd
  · rw [he] at hd
    have hdepth : e.depth = d := Option.some.inj hd
    exact ⟨e, e', he, he', hsame, hdepth, hsame.depth ▸ hdepth⟩

theorem settled_withBlock (d : Draft) (c : Block) {i : Nat} :
    Settled { b with draft := some (d.withBlock c), lastLine := i } := by
  intro d' hd' _
  cases hd'
  rfl

/-- **The outline of lines is that of what is written for them**, in a shallow document. -/
theorem foldl_rewritten {st : Style} {depth : Option Int} {ts ts' : List Token}
    (h : Rewritten st depth ts ts') {front : Option Text} {b b' : Builder} (hs : Same front b b')
    (hdepth : b.draft.map Draft.depth = depth) (hsettled : b.Settled)
    (hshallow : staysShallow depth ts = true) :
    Same front (ts.foldl step b) (ts'.foldl step b') ∧ (ts.foldl step b).draft = none := by
  induction h generalizing b b' with
  | done => exact ⟨hs, Option.map_eq_none_iff.mp hdepth⟩
  | outside ht hw ht' h hrest ih =>
    have hnone := Option.map_eq_none_iff.mp hdepth
    refine ih (step_same hs (hw.alike ht')) ?_ (settled_step hsettled) (staysShallow_cons hshallow).2
    rw [depth_step ht.solid (Or.inl hnone), hdepth]
  | inside hd ht hw ht' hcut hempty h hrest ih =>
    refine ih (step_same hs (hw.alike ht')) ?_ (settled_step hsettled) (staysShallow_cons hshallow).2
    rw [depth_step ht.solid (Or.inr hcut), hdepth]
  | @closed d t t' ts ts' k rest hd ht hshape ht' h hrest ih =>
    obtain ⟨e, e', he, he', hsame, hdepth, hdepth'⟩ := hs.exists_drafts hdepth
    obtain ⟨hline, htail⟩ := staysShallow_cons hshallow
    obtain ⟨rfl, hbal⟩ := Token.of_isShallow hline hshape
    have hblock : e.block = none := hsettled e he (by omega)
    have hstep := step_emptyBlock he (by omega) hblock ht hshape hbal
    have hstep' := step_emptyBlock he' (by omega) (hsame.block_eq_none hblock)
      (Token.proper_of_emptyBlock ht' h) (Token.shape_of_emptyBlock ht' h) rfl
    have hnest : nest (some 1) t = some 1 := by
      simp only [nest, hshape, Option.bind_some,
        Token.braceBalance_closedBlock ht.toGenuine hshape, hbal]
      rfl
    rw [hnest] at htail
    rw [List.foldl_cons, List.foldl_cons, hstep, hstep']
    exact ih (hs.setDraft (.some (Draft.withBlock_same hsame rfl))) (congrArg some hdepth)
      (settled_withBlock e _) htail
  | @pair d t u t' ts ts' k rest hd ht hu hshape hclose ht' h hrest ih =>
    obtain ⟨e, e', he, he', hsame, hdepth, hdepth'⟩ := hs.exists_drafts hdepth
    obtain ⟨hline, htail⟩ := staysShallow_cons hshallow
    obtain ⟨rfl, hbal⟩ := Token.of_isShallow hline hshape
    have hblock : e.block = none := hsettled e he (by omega)
    have hstep := step_emptyPair he hdepth hblock ht hu hshape hbal hclose
    have hstep' := step_emptyBlock he' (by omega) (hsame.block_eq_none hblock)
      (Token.proper_of_emptyBlock ht' h) (Token.shape_of_emptyBlock ht' h) rfl
    -- the two lines lead down one level and back
    have hdown : nest (some 1) t = some 2 := by
      simp only [nest, hshape, Option.bind_some, Token.braceBalance_block ht.toGenuine hshape, hbal]
      rfl
    have hup : nest (some 2) u = some 1 := by
      simp only [nest, hclose, Option.bind_some, Token.braceBalance_closeBrace hu.toGenuine hclose]
      rfl
    rw [hdown] at htail
    obtain ⟨-, htail⟩ := staysShallow_cons htail
    rw [hup] at htail
    rw [List.foldl_cons, List.foldl_cons, List.foldl_cons, hstep, hstep']
    exact ih (hs.setDraft (.some (Draft.withBlock_same hsame rfl))) (congrArg some hdepth)
      (settled_withBlock e _) htail

/-- The banner in front opens a module before anything is built. -/
theorem same_front {ts : List Token} {f : Token} (hf : IsFront ts f) :
    Same (some (frontTitle ts)) initial (initial.step f) := by
  rw [step_banner _ hf.isBanner, hf.title]
  exact ⟨rfl, fun _ => rfl, .none⟩

/-- **What a shallow document and its formatted form build**: the same, or the same under the banner
that was put in front. -/
theorem foldl_formatted {ts ts' : List Token} (h : Formatted ts ts')
    (hshallow : staysShallow none ts = true) {ranged : Bool} (hr : hasRange ts = .ok ranged) :
    Same (if ranged then none else some (frontTitle ts)) (ts.foldl step initial)
        (ts'.foldl step initial) ∧
      (ts.foldl step initial).draft = none := by
  have hsettled : initial.Settled := fun d hd => by cases hd
  cases h with
  | ranged h hrew =>
    rw [hr] at h
    cases h
    exact foldl_rewritten hrew same_initial rfl hsettled hshallow
  | front h hf hrew =>
    rw [hr] at h
    cases h
    exact foldl_rewritten hrew (same_front hf) rfl hsettled hshallow

theorem Same.shelf_eq {b b' : Builder} (h : Same none b b') : b'.shelf = b.shelf := h.shelf

theorem Same.draft_eq_none_iff {front : Option Text} {b b' : Builder} (h : Same front b b') :
    b'.draft = none ↔ b.draft = none := by
  rcases h.draft_cases with ⟨hd, hd'⟩ | ⟨d, d', hd, hd', -⟩
  · simp [hd, hd']
  · simp [hd, hd']

end Builder
end Outline

/-! ## Symbols of a document -/

/-- Whether some banner of a document announces a number range. -/
def announcesRange (source : Text) : Bool :=
  (layoutTokens source).any fun t => t.shape = .banner && (Banner.range? t.text).isSome

/-- Layout looks for the banners that announce a range. -/
theorem hasRange_eq_any {ts : List Token} {ranged : Bool} (h : hasRange ts = .ok ranged) :
    ranged = ts.any fun t => t.shape = .banner && (Banner.range? t.text).isSome := by
  induction ts with
  | nil => cases h; rfl
  | cons t ts ih =>
    rw [List.any_cons]
    by_cases hb : t.shape = .banner
    · simp only [hasRange, if_pos hb] at h
      simp only [hb, decide_true, Bool.true_and]
      cases hv : Banner.rangeValue? t.text with
      | error f => rw [hv] at h; cases h
      | ok r =>
        rw [hv] at h
        rw [Banner.isSome_of_rangeValue? hv]
        cases r with
        | none => exact ih h
        | some r => cases h; rfl
    · rw [hasRange_cons_of_ne hb] at h
      simp only [hb, decide_false, Bool.false_and, Bool.false_or]
      exact ih h

/-- The roots of an outline under a module with a title, which takes those before the first module. -/
def Tree.under (title : Text) (roots : List Tree) : List Tree :=
  ⟨title, .group, none, roots.takeWhile (·.kind ≠ .group)⟩ :: roots.dropWhile (·.kind ≠ .group)

theorem Tree.under_append {title : Text} {leading groups : List Tree}
    (hl : ∀ r ∈ leading, r.kind ≠ .group) (hg : ∀ r ∈ groups, r.kind = .group) :
    under title (leading ++ groups) = ⟨title, .group, none, leading⟩ :: groups := by
  have htake : groups.takeWhile (·.kind ≠ .group) = [] := by
    cases groups with
    | nil => rfl
    | cons g gs => simp [hg g List.mem_cons_self]
  have hdrop : groups.dropWhile (·.kind ≠ .group) = groups := by
    cases groups with
    | nil => rfl
    | cons g gs => simp [hg g List.mem_cons_self]
  have hall : ∀ r ∈ leading, decide (r.kind ≠ .group) = true := fun r hr => by simpa using hl r hr
  rw [under, List.takeWhile_append_of_pos hall, List.dropWhile_append_of_pos hall, htake, hdrop,
    List.append_nil]

/-- Whether the places of a document fit into positions: the indices of its lines and their lengths. -/
def Placeable (source : Text) : Prop :=
  (lines source).length ≤ Fault.maxCoordinate + 1 ∧ ∀ l ∈ lines source, l.length ≤ Fault.maxCoordinate

instance (source : Text) : Decidable (Placeable source) :=
  inferInstanceAs (Decidable (_ ∧ ∀ l ∈ lines source, l.length ≤ Fault.maxCoordinate))

namespace Symbol

/-- What the symbols of a document without faults come down to. -/
theorem rendersAll_ofSource {source : Text} (hf : ∀ t ∈ layoutTokens source, t.fault? = none) :
    (∀ ss, ofSource source = .ok ss →
      trees ss = (Outline.ofTokens (Token.ofLines (lines source))).trees) ∧
      (Placeable source → ∃ ss, ofSource source = .ok ss) := by
  obtain ⟨width, hwidth⟩ : ∃ width : Nat → Nat, width = fun i =>
      ((Token.ofLines (lines source)).map (·.text.length)).getD i 0 := ⟨_, rfl⟩
  have hsource : ofSource source =
      ofOutline width (Outline.ofTokens (Token.ofLines (lines source))) := by
    rw [ofSource, ofSource?_of_layoutTokens hf, hwidth]
    rfl
  have hrender := rendersAll_ofOutline width (Outline.ofTokens (Token.ofLines (lines source)))
  rw [hsource]
  refine ⟨hrender.trees, ?_⟩
  rintro ⟨hcount, hlength⟩
  refine hrender.total ?_ (Outline.fits_ofTokens fun t ht => ?_)
  · intro i
    rw [hwidth]
    simp only [List.getD_eq_getElem?_getD]
    cases hi : ((Token.ofLines (lines source)).map (·.text.length))[i]? with
    | none => exact Nat.zero_le _
    | some n =>
      obtain ⟨t, ht, rfl⟩ := List.mem_map.mp (List.mem_of_getElem? hi)
      obtain ⟨j, l, hl, rfl⟩ := Token.mem_ofLines ht
      exact hlength l hl
  · obtain ⟨j, hj, rfl⟩ := List.mem_mapIdx.mp ht
    rw [Token.read_index, Outline.LineFits]
    omega

end Symbol

open Outline in
/-- **Formatting preserves the outline**: the symbols of a formatted document are those of the document
up to their ranges, if a banner of it announces a number range; otherwise a module with the title of
the banner that was put in front comes first, and takes the symbols before the first module.  Both
documents have symbols unless they are too large for positions. -/
theorem trees_format {source out : Text} (h : format source = .ok out) (hb : Balanced source)
    (hs : Shallow source) :
    (∀ ss ss', Symbol.ofSource source = .ok ss → Symbol.ofSource out = .ok ss' →
      Symbol.trees ss' =
        if announcesRange source then Symbol.trees ss
        else Tree.under (frontTitle (layoutTokens source)) (Symbol.trees ss)) ∧
      (Placeable source → ∃ ss, Symbol.ofSource source = .ok ss) ∧
      (Placeable out → ∃ ss', Symbol.ofSource out = .ok ss') := by
  have hformatted := formatted_of_format h hb
  obtain ⟨-, hfault, ranged, hranged, -⟩ := format_eq_ok h
  obtain ⟨htrees, htotal⟩ := Symbol.rendersAll_ofSource hfault
  obtain ⟨htrees', htotal'⟩ := Symbol.rendersAll_ofSource (hformatted.fault_eq_none hfault)
  refine ⟨fun ss ss' hss hss' => ?_, htotal, htotal'⟩
  -- from the lines of the document to the lines that layout reads, and to those that it writes
  have hsource := Builder.foldl_condensed (condensed_layoutTokens source) Builder.same_initial
  have hout := Builder.foldl_condensed (condensed_layoutTokens out) Builder.same_initial
  obtain ⟨hsame, hdraft⟩ := Builder.foldl_formatted hformatted hs hranged
  have hdraft' := hsame.draft_eq_none_iff.mpr hdraft
  have htree : Symbol.trees ss = _ :=
    (htrees ss hss).trans (Builder.trees_finish (hsource.draft_eq_none_iff.mp hdraft))
  have htree' : Symbol.trees ss' = _ :=
    (htrees' ss' hss').trans (Builder.trees_finish (hout.draft_eq_none_iff.mp hdraft'))
  rw [htree, htree', ← hsource.shelf_eq, ← hout.shelf_eq, hsame.shelf]
  have hrange : announcesRange source = ranged := (hasRange_eq_any hranged).symm
  rw [hrange]
  cases ranged with
  | true => rfl
  | false =>
    rw [if_neg Bool.false_ne_true, if_neg Bool.false_ne_true, Shelf.roots_under_some hsame.orderly,
      Shelf.roots, Tree.under_append]
    · rfl
    · intro r hr
      obtain ⟨p, -, rfl⟩ := List.mem_map.mp hr
      exact p.kind_tree
    · intro r hr
      rcases List.mem_append.mp hr with hr | hr
      · obtain ⟨g, -, rfl⟩ := List.mem_map.mp hr
        rfl
      · obtain ⟨g, -, rfl⟩ := Option.map_eq_some_iff.mp (Option.mem_toList.mp hr)
        rfl

/-- A document with an empty block over two lines, and a protocol before its only banner, which
announces no range. -/
def modularSource : Text :=
  "foo 1 \x7b\n request \x7b\n\n \x7d\n response \x7b\n a 0 :int#c\n \x7d\n\x7d\n".toList ++
    "#### Late ####\n.bar \x7b\n b 1:str\n\x7d".toList

/-- The same document, laid out. -/
def modularLayout : Text :=
  ({} : Style).banner "Protocol Module 0-99".toList ++
    "\n\nfoo 1 \x7b\n    request \x7b\x7d\n    response \x7b\n        a 0: int".toList ++
    List.replicate 45 ' ' ++
    "#c\n    \x7d\n\x7d\n\n#### Late ####\n\n.bar \x7b\n        b 1: str\n\x7d\n".toList

theorem trees_modularLayout :
    format modularSource = .ok modularLayout ∧ Balanced modularSource ∧ Shallow modularSource ∧
      ∃ ss ss', Symbol.ofSource modularSource = .ok ss ∧ Symbol.ofSource modularLayout = .ok ss' ∧
        Symbol.trees ss' = Tree.under "Protocol Module 0-99".toList (Symbol.trees ss) := by
  have hformat : format modularSource = .ok modularLayout := by decide +kernel
  have hbalanced : Balanced modularSource := by decide +kernel
  have hshallow : Shallow modularSource := by decide +kernel
  have hrange : announcesRange modularSource = false := by decide +kernel
  have htitle : frontTitle (layoutTokens modularSource) = "Protocol Module 0-99".toList := by
    decide +kernel
  obtain ⟨htrees, htotal, htotal'⟩ := trees_format hformat hbalanced hshallow
  obtain ⟨ss, hss⟩ := htotal (by decide +kernel)
  obtain ⟨ss', hss'⟩ := htotal' (by decide +kernel)
  refine ⟨hformat, hbalanced, hshallow, ss, ss', hss, hss', ?_⟩
  rw [htrees ss ss' hss hss', hrange, htitle]
  rfl

end Sproto
