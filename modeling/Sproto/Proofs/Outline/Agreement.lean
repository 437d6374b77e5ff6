import Sproto.Proofs.Banner
import Sproto.Proofs.Layout.Line
import Sproto.Proofs.Outline.Builder

/-! # Passes that build the same outline

Two passes over lines that differ in layout only build the same outline up to places.  Their states are
compared by what is complete (`Shelf`) and by the protocol that is open (`Draft.Same`); the second pass
may have met one banner more than the first, in front of everything else (`Shelf.under`).

The main result is `Builder.step_same`: such lines keep the passes together, in every state. -/
namespace Sproto

open Text

namespace Outline

/-! ## What is complete -/

/-- The complete parts of an outline, and the module that is open, without places. -/
structure Shelf where
  leading : List Tree
  groups : List Tree
  group : Option Tree

namespace Shelf

/-- The tree of a module with the given protocols. -/
def groupTree (title : Text) (protocols : List Tree) : Tree := ⟨title, .group, none, protocols⟩

/-- Puts a protocol into the open module, or in front of all modules. -/
def place (s : Shelf) (p : Tree) : Shelf :=
  match s.group with
  | some g => { s with group := some { g with children := g.children ++ [p] } }
  | none => { s with leading := s.leading ++ [p] }

/-- Opens a module, and ends the one that was open. -/
def enter (s : Shelf) (title : Text) : Shelf :=
  { s with groups := s.groups ++ s.group.toList, group := some (groupTree title []) }

/-- All that has been built. -/
def roots (s : Shelf) : List Tree := s.leading ++ (s.groups ++ s.group.toList)

/-- No module is complete unless one is open. -/
def Orderly (s : Shelf) : Prop := s.group = none → s.groups = []

/-- What there would be, had a banner with a title come first. -/
def under (front : Option Text) (s : Shelf) : Shelf :=
  match front with
  | none => s
  | some title =>
      match s.group with
      | none => ⟨[], [], some (groupTree title s.leading)⟩
      | some g => ⟨[], groupTree title s.leading :: s.groups, some g⟩

variable (front : Option Text) {s : Shelf}

/-- Protocols are placed alike under a banner in front. -/
theorem place_under (s : Shelf) (p : Tree) : (s.under front).place p = (s.place p).under front := by
  obtain ⟨leading, groups, group⟩ := s
  cases front with
  | none => rfl
  | some title => cases group <;> rfl

/-- Modules are opened alike under a banner in front. -/
theorem enter_under (h : s.Orderly) (title : Text) :
    (s.under front).enter title = (s.enter title).under front := by
  obtain ⟨leading, groups, group⟩ := s
  cases front with
  | none => rfl
  | some first =>
    cases group with
    | none =>
      have hnil : groups = [] := h rfl
      subst hnil
      rfl
    | some g => rfl

theorem orderly_place (h : s.Orderly) (p : Tree) : (s.place p).Orderly := by
  obtain ⟨leading, groups, group⟩ := s
  cases group with
  | none => exact h
  | some g => exact fun hg => by cases hg

theorem orderly_enter (s : Shelf) (title : Text) : (s.enter title).Orderly := by
  intro h
  cases h

/-- A banner in front takes the leading protocols. -/
theorem roots_under_some (h : s.Orderly) (title : Text) :
    (s.under (some title)).roots = groupTree title s.leading :: (s.groups ++ s.group.toList) := by
  obtain ⟨leading, groups, group⟩ := s
  cases group with
  | none =>
    have hnil : groups = [] := h rfl
    subst hnil
    rfl
  | some g => rfl

end Shelf

/-! ## The open protocol -/

namespace Draft

/-- Drafts that are the same up to places. -/
structure Same (d d' : Draft) : Prop where
  name : d.name = d'.name
  number : d.number = d'.number
  members : d.members.map Member.tree = d'.members.map Member.tree
  block : d.block.map Block.tree = d'.block.map Block.tree
  depth : d.depth = d'.depth

variable {d d' : Draft}

theorem map_tree_leaveBlock (d : Draft) :
    d.leaveBlock.members.map Member.tree =
      d.members.map Member.tree ++ (d.block.map Block.tree).toList := by
  rw [leaveBlock, List.map_append]
  cases d.block <;> rfl

theorem leaveBlock_same (h : d.Same d') : d.leaveBlock.Same d'.leaveBlock := by
  refine ⟨h.name, h.number, ?_, rfl, h.depth⟩
  rw [map_tree_leaveBlock, map_tree_leaveBlock, h.members, h.block]

theorem map_tree_stop (b : Option Block) (stop : Nat) :
    (b.map fun b => { b with stop := stop }).map Block.tree = b.map Block.tree := by
  cases b <;> rfl

/-- It does not matter on which lines blocks are closed. -/
theorem closeBlock_same (h : d.Same d') (stop stop' : Nat) :
    (d.closeBlock stop).Same (d'.closeBlock stop') := by
  refine leaveBlock_same ⟨h.name, h.number, h.members, ?_, h.depth⟩
  simp only [map_tree_stop, h.block]

theorem addField_same (h : d.Same d') {f f' : Field} (hf : f.tree = f'.tree) :
    (d.addField f).Same (d'.addField f') := by
  obtain ⟨name, number, line, members, block, depth⟩ := d
  obtain ⟨name', number', line', members', block', depth'⟩ := d'
  obtain ⟨hname, hnumber, hmembers, hblock, hdepth⟩ := h
  simp only at hname hnumber hmembers hblock hdepth
  cases block with
  | none =>
    cases block' with
    | none =>
      refine ⟨hname, hnumber, ?_, rfl, hdepth⟩
      simp only [addField, List.map_append, hmembers, List.map_cons, Member.tree, hf]
    | some b' => cases hblock
  | some b =>
    cases block' with
    | none => cases hblock
    | some b' =>
      refine ⟨hname, hnumber, hmembers, ?_, hdepth⟩
      simp only [Option.map_some, Option.some.injEq, Block.tree, Tree.mk.injEq] at hblock
      simp only [addField, Option.map_some, Block.tree, List.map_append, List.map_cons, hf, hblock]

theorem addBlock_same (h : d.Same d') (k : BlockKind) (closed : Bool) (line line' : Nat) :
    (d.addBlock k closed line).Same (d'.addBlock k closed line') := by
  have hleave := leaveBlock_same h
  have hopen : Same { d.leaveBlock with block := some ⟨k, line, line, []⟩ }
      { d'.leaveBlock with block := some ⟨k, line', line', []⟩ } :=
    ⟨hleave.name, hleave.number, hleave.members, rfl, hleave.depth⟩
  cases closed with
  | true => exact leaveBlock_same hopen
  | false => exact hopen

/-- Alike fields have the same type. -/
theorem trim_beforeComment_congr {a a' : Text}
    (h : Style.splitComment a = Style.splitComment a') :
    trim (beforeComment a) = trim (beforeComment a') := by
  rw [Style.splitComment_eq, Style.splitComment_eq] at h
  exact congrArg Prod.fst h

theorem addMember_same (h : d.Same d') {t t' : Token} (ha : t.Alike t') :
    (d.addMember t).Same (d'.addMember t') := by
  have hshape := ha.shape
  unfold addMember
  generalize t.shape = sh at hshape
  generalize t'.shape = sh' at hshape
  cases hshape with
  | plain hp =>
    cases sh with
    | block k closed rest => cases hp
    | field name n body => cases hp
    | _ => exact h
  | block hrest => exact addBlock_same h _ _ _ _
  | protocol hn hrest => exact h
  | field hn hsplit =>
    refine addField_same h ?_
    simp only [Field.tree, hn, trim_beforeComment_congr hsplit]

/-- **Alike lines are added alike.** -/
theorem add_same (h : d.Same d') {t t' : Token} (ha : t.Alike t') :
    (d.add t).Same (d'.add t') := by
  have hmember := addMember_same h ha
  have hbal := ha.braceBalance_eq
  have hdepth : Same { d.addMember t with depth := (d.addMember t).depth + braceBalance t.text }
      { d'.addMember t' with depth := (d'.addMember t').depth + braceBalance t'.text } :=
    ⟨hmember.name, hmember.number, hmember.members, hmember.block, by simp only [hmember.depth, hbal]⟩
  unfold add
  simp only
  rw [← hmember.depth, hbal]
  rw [← hmember.depth, hbal] at hdepth
  split
  · exact closeBlock_same hdepth _ _
  · exact hdepth

theorem tree_finish_same (h : d.Same d') (stop stop' : Nat) :
    (d.finish stop).tree = (d'.finish stop').tree := by
  unfold finish Protocol.tree
  rw [h.name, h.number, (leaveBlock_same h).members]

end Draft

/-! ## The whole state -/

namespace Builder

/-- What is complete, without places. -/
def shelf (b : Builder) : Shelf :=
  ⟨b.leading.map Protocol.tree, b.groups.map Group.tree, b.group.map Group.tree⟩

/-- Passes that have built the same up to places, the second one under a banner in front if `front` is
its title. -/
structure Same (front : Option Text) (b b' : Builder) : Prop where
  shelf : b'.shelf = b.shelf.under front
  orderly : b.shelf.Orderly
  draft : Option.Rel Draft.Same b.draft b'.draft

variable {front : Option Text} {b b' : Builder}

theorem shelf_place (b : Builder) (p : Protocol) : (b.place p).shelf = b.shelf.place p.tree := by
  obtain ⟨leading, groups, group, draft, lastLine⟩ := b
  cases group with
  | none => simp [place, shelf, Shelf.place]
  | some g => simp [place, shelf, Shelf.place, Group.tree]

theorem draft_place (b : Builder) (p : Protocol) : (b.place p).draft = b.draft := by
  unfold place
  split <;> rfl

theorem Same.place (h : Same front b b') {p p' : Protocol} (hp : p.tree = p'.tree) :
    Same front (b.place p) (b'.place p') := by
  refine ⟨?_, ?_, ?_⟩
  · rw [shelf_place, shelf_place, h.shelf, Shelf.place_under, hp]
  · rw [shelf_place]
    exact Shelf.orderly_place h.orderly _
  · rw [draft_place, draft_place]
    exact h.draft

/-- States that have built the same, with other open protocols. -/
theorem Same.setDraft (h : Same front b b') {draft draft' : Option Draft} {i j : Nat}
    (hd : Option.Rel Draft.Same draft draft') :
    Same front { b with draft := draft, lastLine := i } { b' with draft := draft', lastLine := j } :=
  ⟨h.shelf, h.orderly, hd⟩

/-- Passes that agree have a protocol open together. -/
theorem Same.draft_cases (h : Same front b b') :
    (b.draft = none ∧ b'.draft = none) ∨
      ∃ d d', b.draft = some d ∧ b'.draft = some d' ∧ d.Same d' := by
  have hrel := h.draft
  generalize b.draft = draft at hrel ⊢
  generalize b'.draft = draft' at hrel ⊢
  cases hrel with
  | none => exact Or.inl ⟨rfl, rfl⟩
  | some hsame => exact Or.inr ⟨_, _, rfl, rfl, hsame⟩

theorem Same.endDraft (h : Same front b b') : Same front b.endDraft b'.endDraft := by
  rcases h.draft_cases with ⟨hd, hd'⟩ | ⟨d, d', hd, hd', hsame⟩
  · simp only [Builder.endDraft, hd, hd']
    exact h
  · simp only [Builder.endDraft, hd, hd']
    exact (h.place (Draft.tree_finish_same (Draft.closeBlock_same hsame _ _) _ _)).setDraft .none

/-- A banner ends the open module and opens another. -/
theorem shelf_enter (b : Builder) (title : Text) (i j : Nat) :
    shelf { b.endGroup with group := some ⟨title, i, i, []⟩, lastLine := j } = b.shelf.enter title := by
  obtain ⟨leading, groups, group, draft, lastLine⟩ := b
  cases group with
  | none => simp [endGroup, shelf, Shelf.enter, Group.tree, Shelf.groupTree]
  | some g => simp [endGroup, shelf, Shelf.enter, Group.tree, Shelf.groupTree]

theorem draft_endGroup (b : Builder) : b.endGroup.draft = b.draft := by
  unfold endGroup
  split <;> rfl

theorem Same.enter (h : Same front b b') (title : Text) (i i' j j' : Nat) :
    Same front { b.endGroup with group := some ⟨title, i, i, []⟩, lastLine := j }
      { b'.endGroup with group := some ⟨title, i', i', []⟩, lastLine := j' } := by
  refine ⟨?_, ?_, ?_⟩
  · rw [shelf_enter, shelf_enter, h.shelf, Shelf.enter_under front h.orderly]
  · rw [shelf_enter]
    exact Shelf.orderly_enter _ _
  · simp only [draft_endGroup]
    exact h.draft

/-- An open protocol goes on alike. -/
theorem Same.extend (h : Same front b b') {d d' : Draft} {t t' : Token}
    (hd : (d.add t).Same (d'.add t')) : Same front (b.extend d t) (b'.extend d' t') := by
  unfold Builder.extend
  simp only
  rw [← hd.depth]
  split
  · exact (h.place (Draft.tree_finish_same hd _ _)).setDraft .none
  · exact h.setDraft (.some hd)

/-- **Lines that differ in layout only keep the passes together.** -/
theorem step_same (h : Same front b b') {t t' : Token} (ha : t.Alike t') :
    Same front (b.step t) (b'.step t') := by
  have hmoved : Same front { b with lastLine := t.index } { b' with lastLine := t'.index } :=
    h.setDraft h.draft
  by_cases hblank : t.shape = .blank
  · rw [step_blank b hblank, step_blank b' ((ha.shape.eq_iff_of_isPlain rfl).mpr hblank)]
    exact h
  by_cases hbanner : t.shape = .banner
  · have htitle : Banner.title t.text = Banner.title t'.text := by
      rw [← Banner.title_trim t.text, ha.text (by rw [hbanner]; rfl) (by rw [hbanner]; simp),
        Banner.title_trim]
    rw [step_banner b hbanner, step_banner b' ((ha.shape.eq_iff_of_isPlain rfl).mpr hbanner), htitle]
    exact h.endDraft.enter _ _ _ _ _
  have hblank' := fun h' => hblank ((ha.shape.eq_iff_of_isPlain rfl).mp h')
  have hbanner' := fun h' => hbanner ((ha.shape.eq_iff_of_isPlain rfl).mp h')
  -- a declaration is read as one only while no protocol is open
  rcases h.draft_cases with ⟨hd, hd'⟩ | ⟨d, d', hd, hd', hsame⟩
  · by_cases hp : ∃ name number rest, t.shape = .protocol name number rest
    · obtain ⟨name, number, rest, hp⟩ := hp
      have hshape := ha.shape
      rw [hp] at hshape
      generalize hp' : t'.shape = sh' at hshape
      cases hshape with
      | plain hplain => cases hplain
      | @protocol _ _ rest' _ number' hn hrest =>
        rw [step_declare hd hp, step_declare hd' hp', declare, declare]
        have hdraft : Draft.Same
            ⟨name, number.map Numeral.value, t.index, [], none, braceBalance t.text⟩
            ⟨name, number'.map Numeral.value, t'.index, [], none, braceBalance t'.text⟩ :=
          ⟨rfl, hn, rfl, rfl, ha.braceBalance_eq.symm⟩
        simp only
        rw [ha.braceBalance_eq] at hdraft ⊢
        split
        · exact hmoved.place (Draft.tree_finish_same hdraft _ _)
        · exact hmoved.setDraft (.some hdraft)
    · have hp' : ∀ name number rest, t'.shape ≠ .protocol name number rest := by
        intro name number rest h'
        have hshape := ha.shape
        rw [h'] at hshape
        generalize hsh : t.shape = sh at hshape
        cases hshape with
        | plain hplain => cases hplain
        | protocol hn hrest => exact hp ⟨_, _, _, hsh⟩
      rw [step_outside hd hblank hbanner fun name number rest h => hp ⟨name, number, rest, h⟩,
        step_outside hd' hblank' hbanner' hp']
      exact hmoved
  · rw [step_inside hd hblank hbanner, step_inside hd' hblank' hbanner']
    exact hmoved.extend (Draft.add_same hsame ha)

/-- All that a pass has built, once no protocol is open. -/
theorem trees_finish (hd : b.draft = none) : b.finish.trees = b.shelf.roots := by
  obtain ⟨leading, groups, group, draft, lastLine⟩ := b
  simp only at hd
  subst hd
  cases group with
  | none => simp [finish, endDraft, endGroup, Outline.trees, shelf, Shelf.roots]
  | some g => simp [finish, endDraft, endGroup, Outline.trees, shelf, Shelf.roots, Group.tree]

end Builder
end Outline
end Sproto
