import Sproto.Proofs.Outline.Nesting

/-! # The lines that an outline lists

Every line gives the outline one symbol or none.  A banner always gives one, a declaration while no
protocol is open, a block start or a field while one is (`isListed`).  The symbols stand in the tree in
the order of their lines: each new one is the last of its siblings, below the module, the protocol or the
block that is open (`Stands`).

So the pre-order of the tree is read off the lines one by one: `Builder.nodes_step` says what a line adds
at the end, `nodes_ofTokens` what a whole pass lists, and `nodes_symbols` says it of the symbols of a
document. -/
namespace Sproto

open Text

/-- The place of a symbol in a tree: its first line, its kind, and the first line of the symbol that it is
a child of. -/
structure Symbol.Node where
  line : Nat
  kind : SymbolKind
  parent : Option Nat
  deriving DecidableEq, Repr

mutual

/-- A symbol and all that are below it, in pre-order. -/
def Symbol.nodes (parent : Option Nat) : Symbol → List Symbol.Node
  | ⟨_, kind, _, _, selection, children⟩ =>
      ⟨selection.start.line, kind, parent⟩ :: Symbol.nodesAll (some selection.start.line) children

/-- A list of symbols and all that are below them, in pre-order. -/
def Symbol.nodesAll (parent : Option Nat) : List Symbol → List Symbol.Node
  | [] => []
  | s :: ss => s.nodes parent ++ Symbol.nodesAll parent ss

end

/-- The last number below `n` on which `p` holds. -/
def latest? (p : Nat → Bool) : Nat → Option Nat
  | 0 => none
  | n + 1 => if p n then some n else latest? p n

namespace Outline

/-! ## Which lines are listed, and below which -/

/-- Whether a line is a banner. -/
def isBannerAt (ts : List Token) (i : Nat) : Bool := ts[i]?.any fun t => t.shape = .banner

/-- Whether a line declares a protocol while no protocol is open. -/
def declaresAt (ts : List Token) (i : Nat) : Bool :=
  match ts[i]?.map Token.shape with
  | some (.protocol _ _ _) => (depthBefore ts i).isNone
  | _ => false

/-- Whether a line is listed. -/
def isListed (ts : List Token) (i : Nat) : Bool :=
  match ts[i]?.map Token.shape with
  | some .banner => true
  | some (.protocol _ _ _) => (depthBefore ts i).isNone
  | some (.block _ _ _) | some (.field _ _ _) => (depthBefore ts i).isSome
  | _ => false

/-- The kind of a protocol's symbol, by its name. -/
def protocolKind (name : Text) : SymbolKind := if name.head? = some '.' then .type else .protocol

/-- What a line is listed as, and below which line. -/
inductive Stands (ts : List Token) : Symbol.Node → Prop
  /-- A banner is a module, at the root of the tree. -/
  | group {i : Nat} {t : Token} (ht : ts[i]? = some t) (hs : t.shape = .banner) :
      Stands ts ⟨i, .group, none⟩
  /-- A declaration is a protocol or a type, below the latest banner or at the root. -/
  | protocol {i : Nat} {t : Token} {name rest : Text} {number : Option Numeral}
      (ht : ts[i]? = some t) (hs : t.shape = .protocol name number rest) :
      Stands ts ⟨i, protocolKind name, latest? (isBannerAt ts) i⟩
  /-- A block is below the protocol that is open. -/
  | block {i j : Nat} {t : Token} {kind : BlockKind} {closed : Bool} {rest : Text}
      (ht : ts[i]? = some t) (hs : t.shape = .block kind closed rest)
      (hj : latest? (declaresAt ts) i = some j) : Stands ts ⟨i, .block, some j⟩
  /-- A field is below the block that is open. -/
  | fieldOfBlock {i j : Nat} {t : Token} {name body : Text} {number : Numeral}
      (ht : ts[i]? = some t) (hs : t.shape = .field name number body) (hj : BlockOpen ts j i) :
      Stands ts ⟨i, .field, some j⟩
  /-- A field is below the protocol that is open, if no block is. -/
  | fieldOfProtocol {i j : Nat} {t : Token} {name body : Text} {number : Numeral}
      (ht : ts[i]? = some t) (hs : t.shape = .field name number body)
      (hnone : ∀ k, ¬ BlockOpen ts k i) (hj : latest? (declaresAt ts) i = some j) :
      Stands ts ⟨i, .field, some j⟩

/-! ## The nodes of an outline -/

/-- A field, in what starts on the line `parent`. -/
def Field.node (parent : Nat) (f : Field) : Symbol.Node := ⟨f.line, .field, some parent⟩

/-- A block and its fields. -/
def Block.nodes (parent : Nat) (c : Block) : List Symbol.Node :=
  ⟨c.line, .block, some parent⟩ :: c.fields.map (Field.node c.line)

/-- A member of a protocol and what is in it. -/
def Member.nodes (parent : Nat) : Member → List Symbol.Node
  | .block c => c.nodes parent
  | .field f => [f.node parent]

/-- A protocol and its members. -/
def Protocol.nodes (parent : Option Nat) (p : Protocol) : List Symbol.Node :=
  ⟨p.line, protocolKind p.name, parent⟩ :: p.members.flatMap (Member.nodes p.line)

/-- A module and its protocols. -/
def Group.nodes (g : Group) : List Symbol.Node :=
  ⟨g.line, .group, none⟩ :: g.protocols.flatMap (Protocol.nodes (some g.line))

/-- All parts of an outline, in pre-order. -/
def nodes (o : Outline) : List Symbol.Node :=
  o.leading.flatMap (Protocol.nodes none) ++ o.groups.flatMap Group.nodes

end Outline

namespace Symbol

open Outline

variable {width : Nat → Nat} {s : Symbol}

theorem nodesAll_append (parent : Option Nat) (ss ss' : List Symbol) :
    nodesAll parent (ss ++ ss') = nodesAll parent ss ++ nodesAll parent ss' := by
  induction ss with
  | nil => rfl
  | cons s ss ih => rw [List.cons_append, nodesAll, ih, nodesAll, List.append_assoc]

theorem nodesAll_of_mapM {α : Type} {f : α → Except Fault Symbol} {parent : Option Nat}
    {g : α → List Symbol.Node} (h : ∀ a s, f a = .ok s → s.nodes parent = g a) {l : List α}
    {ss : List Symbol} (hl : l.mapM f = .ok ss) : nodesAll parent ss = l.flatMap g := by
  induction l generalizing ss with
  | nil =>
    cases hl
    rfl
  | cons a l ih =>
    rw [List.mapM_cons] at hl
    obtain ⟨s, ha, hl⟩ := exists_of_bind_eq_ok hl
    obtain ⟨ss', hrest, hl⟩ := exists_of_bind_eq_ok hl
    cases hl
    rw [nodesAll, h a s ha, ih hrest, List.flatMap_cons]

/-- The symbol of a part comes first, and the symbols of the parts in it follow. -/
theorem nodes_of_symbol {x : Part} (h : x.symbol width = .ok s) (parent : Option Nat) :
    s.nodes parent = ⟨x.line, x.kind, parent⟩ :: nodesAll (some x.line) s.children := by
  have hs := shows_of_symbol h
  obtain ⟨name, kind, detail, range, selection, children⟩ := s
  rw [nodes, show kind = x.kind from hs.kind,
    show selection = Range.ofLines width x.line x.line from hs.selection]
  rfl

theorem nodes_ofField {f : Field} {parent : Nat} (h : ofField width f = .ok s) :
    s.nodes (some parent) = [f.node parent] := by
  have hx : (Part.field f).symbol width = .ok s := h
  have hchildren : .ok [] = Except.ok s.children := (shows_of_symbol hx).children
  rw [nodes_of_symbol hx, ← Except.ok.inj hchildren]
  rfl

theorem nodes_ofBlock {c : Block} {parent : Nat} (h : ofBlock width c = .ok s) :
    s.nodes (some parent) = c.nodes parent := by
  have hx : (Part.block c).symbol width = .ok s := h
  have hchildren := (shows_of_symbol hx).children
  rw [Part.children, List.mapM_map] at hchildren
  rw [nodes_of_symbol hx, nodesAll_of_mapM (fun f s hs => nodes_ofField hs) hchildren]
  exact congrArg _ List.map_eq_flatMap.symm

theorem nodes_ofMember {m : Member} {parent : Nat} (h : ofMember width m = .ok s) :
    s.nodes (some parent) = m.nodes parent := by
  rcases m with c | f
  · exact nodes_ofBlock h
  · exact nodes_ofField h

theorem nodes_ofProtocol {p : Protocol} {parent : Option Nat} (h : ofProtocol width p = .ok s) :
    s.nodes parent = p.nodes parent := by
  have hx : (Part.protocol p).symbol width = .ok s := h
  have hchildren := (shows_of_symbol hx).children
  have hmember : Part.symbol width ∘ Part.ofMember = ofMember width := by
    funext m
    rcases m with c | f <;> rfl
  rw [Part.children, List.mapM_map, hmember] at hchildren
  rw [nodes_of_symbol hx, nodesAll_of_mapM (fun m s hs => nodes_ofMember hs) hchildren]
  rfl

theorem nodes_ofGroup {g : Group} (h : ofGroup width g = .ok s) : s.nodes none = g.nodes := by
  have hx : (Part.group g).symbol width = .ok s := h
  have hchildren := (shows_of_symbol hx).children
  rw [Part.children, List.mapM_map] at hchildren
  rw [nodes_of_symbol hx, nodesAll_of_mapM (fun p s hs => nodes_ofProtocol hs) hchildren]
  rfl

/-- **The symbols of an outline stand as its parts do.** -/
theorem nodesAll_ofOutline {o : Outline} {ss : List Symbol} (h : ofOutline width o = .ok ss) :
    nodesAll none ss = o.nodes := by
  obtain ⟨ls, hl, h⟩ := exists_of_bind_eq_ok h
  obtain ⟨gs, hg, h⟩ := exists_of_bind_eq_ok h
  cases h
  rw [nodesAll_append, nodesAll_of_mapM (fun p s hs => nodes_ofProtocol hs) hl,
    nodesAll_of_mapM (fun g s hs => nodes_ofGroup hs) hg, Outline.nodes]

end Symbol

namespace Outline

/-! ## What a line adds -/

namespace Draft

/-- The members of a draft and what is in them, the open block included. -/
def memberNodes (d : Draft) : List Symbol.Node := d.leaveBlock.members.flatMap (Member.nodes d.line)

/-- The line below which a field of the draft stands. -/
def fieldParent (d : Draft) : Nat := (d.block.map Block.line).getD d.line

/-- What a line adds to a draft. -/
def shown? (d : Draft) (t : Token) : Option Symbol.Node :=
  match t.shape with
  | .block _ _ _ => some ⟨t.index, .block, some d.line⟩
  | .field _ _ _ => some ⟨t.index, .field, some d.fieldParent⟩
  | _ => none

theorem memberNodes_eq (d : Draft) :
    d.memberNodes = d.members.flatMap (Member.nodes d.line) ++
      (d.block.map (Block.nodes d.line)).getD [] := by
  rw [memberNodes, leaveBlock, List.flatMap_append]
  rcases d.block with _ | c
  · rfl
  · exact congrArg _ (List.append_nil _)

theorem memberNodes_leaveBlock (d : Draft) : d.leaveBlock.memberNodes = d.memberNodes := by
  rw [memberNodes_eq d.leaveBlock]
  exact List.append_nil _

theorem memberNodes_closeBlock (d : Draft) (stop : Nat) :
    (d.closeBlock stop).memberNodes = d.memberNodes := by
  rw [closeBlock, memberNodes_leaveBlock, memberNodes_eq, memberNodes_eq]
  rcases d.block with _ | c <;> rfl

theorem memberNodes_addField (d : Draft) (f : Field) :
    (d.addField f).memberNodes = d.memberNodes ++ [⟨f.line, .field, some d.fieldParent⟩] := by
  unfold addField
  rcases hblock : d.block with _ | c
  · simp [memberNodes_eq, fieldParent, hblock, Member.nodes, Field.node]
  · simp [memberNodes_eq, fieldParent, hblock, Block.nodes, Field.node]

theorem memberNodes_addBlock (d : Draft) (kind : BlockKind) (closed : Bool) (line : Nat) :
    (d.addBlock kind closed line).memberNodes = d.memberNodes ++ [⟨line, .block, some d.line⟩] := by
  have hopen : memberNodes { d.leaveBlock with block := some ⟨kind, line, line, []⟩ } =
      d.memberNodes ++ [⟨line, .block, some d.line⟩] := by
    rw [memberNodes_eq]
    rfl
  unfold addBlock
  rcases closed with _ | _
  · exact hopen
  · exact (memberNodes_leaveBlock _).trans hopen

theorem memberNodes_add (d : Draft) (t : Token) :
    (d.add t).memberNodes = d.memberNodes ++ (d.shown? t).toList := by
  have hmember : (d.addMember t).memberNodes = d.memberNodes ++ (d.shown? t).toList := by
    unfold addMember shown?
    cases hs : t.shape with
    | block kind closed rest => exact memberNodes_addBlock d kind closed t.index
    | field name number body => exact memberNodes_addField d _
    | _ => exact (List.append_nil _).symm
  rw [← hmember]
  unfold add
  simp only
  split
  · exact memberNodes_closeBlock _ _
  · rfl

theorem line_add (d : Draft) (t : Token) : (d.add t).line = d.line ∧ (d.add t).name = d.name := by
  have hmember : (d.addMember t).line = d.line ∧ (d.addMember t).name = d.name := by
    unfold addMember
    split
    · rename_i closed _ _
      rcases closed with _ | _ <;> exact ⟨rfl, rfl⟩
    · unfold addField
      split <;> exact ⟨rfl, rfl⟩
    · exact ⟨rfl, rfl⟩
  rw [← hmember.1, ← hmember.2]
  unfold add
  simp only
  split <;> exact ⟨rfl, rfl⟩

theorem nodes_finish (d : Draft) (stop : Nat) (parent : Option Nat) :
    (d.finish stop).nodes parent = ⟨d.line, protocolKind d.name, parent⟩ :: d.memberNodes := rfl

end Draft

namespace Builder

variable {b : Builder} {t : Token}

/-- The first line of the open module. -/
def groupLine (b : Builder) : Option Nat := b.group.map Group.line

/-- All that is complete, in pre-order; the open module comes last. -/
def placedNodes (b : Builder) : List Symbol.Node :=
  b.leading.flatMap (Protocol.nodes none) ++ b.groups.flatMap Group.nodes ++
    (b.group.map Group.nodes).getD []

/-- The open protocol and its members. -/
def draftNodes (b : Builder) : List Symbol.Node :=
  (b.draft.map fun d => (d.finish d.line).nodes b.groupLine).getD []

/-- All that is built, in pre-order. -/
def nodes (b : Builder) : List Symbol.Node := b.placedNodes ++ b.draftNodes

/-- What a line adds. -/
def shown? (b : Builder) (t : Token) : Option Symbol.Node :=
  match t.shape, b.draft with
  | .banner, _ => some ⟨t.index, .group, none⟩
  | .protocol name _ _, none => some ⟨t.index, protocolKind name, b.groupLine⟩
  | _, some d => d.shown? t
  | _, none => none

theorem groupLine_place (b : Builder) (p : Protocol) : (b.place p).groupLine = b.groupLine := by
  unfold place groupLine
  rcases b.group with _ | g <;> rfl

theorem placedNodes_place (h : b.InOrder) (p : Protocol) :
    (b.place p).placedNodes = b.placedNodes ++ p.nodes b.groupLine := by
  unfold place placedNodes groupLine
  rcases hg : b.group with _ | g
  · simp [h hg]
  · simp [Group.nodes]

theorem inOrder_step (h : b.InOrder) : (b.step t).InOrder := by
  have hstep := step_cases b t
  generalize b.step t = c at hstep ⊢
  rcases hstep with _ | _ | ⟨-, -, -⟩ | ⟨-, -⟩ | ⟨-, -, -⟩
  · exact h
  · exact fun hnone => by cases hnone
  · unfold extend
    simp only
    split
    · exact inOrder_place (b := { b with lastLine := t.index }) h _
    · exact h
  · unfold Builder.declare
    simp only
    split
    · exact inOrder_place (b := { b with lastLine := t.index }) h _
    · exact h
  · exact h

/-- Ending the open protocol keeps the order of all that is built. -/
theorem nodes_endDraft (h : b.InOrder) : b.endDraft.nodes = b.nodes := by
  unfold endDraft
  rcases hd : b.draft with _ | d
  · rfl
  · simp only [nodes, draftNodes, hd, Option.map_none, Option.getD_none, Option.map_some,
      Option.getD_some, List.append_nil]
    refine (placedNodes_place h _).trans ?_
    rw [Draft.nodes_finish, Draft.nodes_finish, Draft.memberNodes_closeBlock]
    rfl

/-- Ending the open module does so too. -/
theorem nodes_endGroup (hd : b.draft = none) :
    b.endGroup.leading.flatMap (Protocol.nodes none) ++ b.endGroup.groups.flatMap Group.nodes =
      b.nodes := by
  unfold endGroup
  rcases hg : b.group with _ | g
  · simp [nodes, placedNodes, draftNodes, hd, hg]
  · simp [nodes, placedNodes, draftNodes, hd, hg, Group.nodes]

theorem nodes_finish (h : b.InOrder) : b.finish.nodes = b.nodes :=
  (nodes_endGroup (draft_endDraft b)).trans (nodes_endDraft h)

/-- A line of an open protocol adds what it adds to the draft, whether or not it closes the protocol. -/
theorem nodes_extend (h : b.InOrder) {d : Draft} (hd : b.draft = some d) (t : Token) :
    (b.extend d t).nodes = b.nodes ++ (d.shown? t).toList := by
  obtain ⟨hline, hname⟩ := d.line_add t
  have hfinish : ∀ stop, ((d.add t).finish stop).nodes b.groupLine =
      (d.finish d.line).nodes b.groupLine ++ (d.shown? t).toList := by
    intro stop
    rw [Draft.nodes_finish, Draft.nodes_finish, Draft.memberNodes_add, hline, hname,
      List.cons_append]
  have hnodes : b.nodes = b.placedNodes ++ (d.finish d.line).nodes b.groupLine := by
    rw [nodes, draftNodes, hd, Option.map_some, Option.getD_some]
  rw [hnodes, List.append_assoc, ← hfinish t.index]
  unfold extend
  simp only
  split
  · exact (List.append_nil _).trans (placedNodes_place h _)
  · rfl

theorem nodes_declare (h : b.InOrder) (hd : b.draft = none) (t : Token) (name : Text)
    (number : Option Numeral) :
    (b.declare t name number).nodes =
      b.nodes ++ [⟨t.index, protocolKind name, b.groupLine⟩] := by
  have hnodes : b.nodes = b.placedNodes := by
    rw [nodes, draftNodes, hd]
    exact List.append_nil _
  rw [hnodes]
  unfold declare
  simp only
  split
  · rw [nodes, placedNodes_place h, draftNodes, draft_place, hd]
    exact List.append_nil _
  · rfl

/-- **A line adds its node at the end**, if it has one. -/
theorem nodes_step (h : b.InOrder) : (b.step t).nodes = b.nodes ++ (b.shown? t).toList := by
  have hstep := step_cases b t
  generalize b.step t = c at hstep ⊢
  rcases hstep with hs | hs | @⟨d, hd, hblank, hbanner⟩ | @⟨name, rest, number, hd, hs⟩ |
    ⟨hd, hbanner, hp⟩
  · have hnone : b.shown? t = none := by
      unfold shown?
      rcases b.draft with _ | d
      · simp only [hs]
      · simp only [hs, Draft.shown?]
    rw [hnone]
    exact (List.append_nil _).symm
  · have hsome : b.shown? t = some ⟨t.index, .group, none⟩ := by simp only [shown?, hs]
    rw [hsome, ← nodes_endDraft h, ← nodes_endGroup (draft_endDraft b)]
    simp [nodes, placedNodes, draftNodes, draft_endGroup, draft_endDraft, Group.nodes]
  · have hshown : b.shown? t = d.shown? t := by
      unfold shown?
      cases hs : t.shape with
      | banner => exact absurd hs hbanner
      | _ => simp only [hd]
    rw [hshown]
    exact nodes_extend (b := { b with lastLine := t.index }) h hd t
  · have hsome : b.shown? t = some ⟨t.index, protocolKind name, b.groupLine⟩ := by
      simp only [shown?, hs, hd]
    rw [hsome]
    exact nodes_declare (b := { b with lastLine := t.index }) h hd t _ _
  · have hnone : b.shown? t = none := by
      unfold shown?
      cases hs : t.shape with
      | banner => exact absurd hs hbanner
      | protocol name number rest => exact absurd hs (hp name number rest)
      | _ => simp only [hd]
    rw [hnone]
    exact (List.append_nil _).symm

theorem inOrder_before (ts : List Token) (n : Nat) : (before ts n).InOrder := by
  have hrun : ∀ (us : List Token) {b : Builder}, b.InOrder → (us.foldl step b).InOrder := by
    intro us
    induction us with
    | nil => exact fun hb => hb
    | cons u us ih => exact fun hb => ih (inOrder_step hb)
  exact hrun _ fun _ => rfl

/-- What line `i` adds. -/
def shownAt? (ts : List Token) (i : Nat) : Option Symbol.Node := ts[i]?.bind (before ts i).shown?

/-- **What is built before a line are the nodes of the lines above it**, in their order. -/
theorem nodes_before {ts : List Token} {n : Nat} (hn : n ≤ ts.length) :
    (before ts n).nodes = (List.range n).filterMap (shownAt? ts) := by
  induction n with
  | zero => rfl
  | succ n ih =>
    have ht : ts[n]? = some ts[n] := List.getElem?_eq_getElem hn
    have hshown : shownAt? ts n = (before ts n).shown? ts[n] := by rw [shownAt?, ht, Option.bind_some]
    rw [before_succ ht, nodes_step (inOrder_before ts n), ih (by omega), List.range_succ,
      List.filterMap_append, ← hshown]
    rcases h : shownAt? ts n with _ | x
    · simp [h]
    · simp [h]

/-! ## Which lines are open -/

/-- The pass knows the latest banner, and the declaration of the open protocol. -/
structure Anchored (ts : List Token) (n : Nat) (b : Builder) : Prop where
  group : b.groupLine = latest? (isBannerAt ts) n
  draft : ∀ d, b.draft = some d → latest? (declaresAt ts) n = some d.line

theorem declaresAt_eq_false {ts : List Token} {n : Nat} (ht : ts[n]? = some t)
    (h : ∀ name number rest, t.shape = .protocol name number rest → depthBefore ts n ≠ none) :
    declaresAt ts n = false := by
  rw [declaresAt, ht, Option.map_some]
  cases hs : t.shape with
  | protocol name number rest =>
    rcases hd : depthBefore ts n with _ | d
    · exact absurd hd (h name number rest hs)
    · rfl
  | _ => rfl

theorem anchored_step {ts : List Token} {n : Nat} (htracks : Tracks ts n b) (h : Anchored ts n b)
    (ht : ts[n]? = some t) (hindex : t.index = n) : Anchored ts (n + 1) (b.step t) := by
  have hbannerAt : isBannerAt ts n = decide (t.shape = .banner) := by
    rw [isBannerAt, ht, Option.any_some]
  -- A line that is no banner keeps the latest one, and one that declares nothing the latest declaration.
  have hgroup : t.shape ≠ .banner → b.groupLine = latest? (isBannerAt ts) (n + 1) := by
    intro hne
    rw [latest?, hbannerAt, decide_eq_false hne, h.group]
    rfl
  have hdraft : declaresAt ts n = false →
      ∀ d, b.draft = some d → latest? (declaresAt ts) (n + 1) = some d.line := by
    intro hfalse d hd
    rw [latest?, hfalse]
    exact h.draft d hd
  have hstep := step_cases b t
  generalize b.step t = c at hstep ⊢
  rcases hstep with hs | hs | @⟨d, hd, -, hbanner⟩ | @⟨name, rest, number, hd, hs⟩ | ⟨hd, hbanner, hp⟩
  · refine ⟨hgroup (by simp [hs]), hdraft (declaresAt_eq_false ht fun name number rest h => ?_)⟩
    rw [hs] at h
    cases h
  · refine ⟨?_, fun d hd => ?_⟩
    · rw [latest?, hbannerAt, decide_eq_true hs, ← hindex]
      rfl
    · rw [draft_endGroup, draft_endDraft] at hd
      cases hd
  · have hdeclares : declaresAt ts n = false := by
      refine declaresAt_eq_false ht fun _ _ _ _ hnone => ?_
      rw [← htracks.depth, hd] at hnone
      cases hnone
    refine ⟨?_, fun e he => ?_⟩
    · rw [← hgroup hbanner]
      unfold extend
      simp only
      split
      · exact groupLine_place { b with lastLine := t.index } _
      · rfl
    · rw [draft_extend] at he
      split at he
      · cases he
      · cases he
        rw [(d.line_add t).1]
        exact hdraft hdeclares d hd
  · have hdeclares : declaresAt ts n = true := by
      simp only [declaresAt, ht, Option.map_some, hs, ← htracks.depth, hd, Option.map_none,
        Option.isNone_none]
    refine ⟨?_, fun e he => ?_⟩
    · rw [← hgroup (by simp [hs])]
      unfold Builder.declare
      simp only
      split
      · exact groupLine_place { b with lastLine := t.index } _
      · rfl
    · unfold Builder.declare at he
      simp only at he
      split at he
      · rw [draft_place] at he
        rw [show b.draft = some e from he] at hd
        cases hd
      · cases he
        rw [latest?, hdeclares, hindex]
        rfl
  · refine ⟨hgroup hbanner, fun d hd' => ?_⟩
    rw [show b.draft = some d from hd'] at hd
    cases hd

theorem anchored_before {ts : List Token} (hts : Numbered ts) {n : Nat} (hn : n ≤ ts.length) :
    Anchored ts n (before ts n) := by
  induction n with
  | zero => exact ⟨rfl, fun d hd => by cases hd⟩
  | succ n ih =>
    have ht : ts[n]? = some ts[n] := List.getElem?_eq_getElem hn
    rw [before_succ ht]
    exact anchored_step (tracks_before hts (by omega)) (ih (by omega)) ht (hts n _ ht)

/-! ## Nodes, by lines -/

/-- A field of the open protocol stands below the block that is open, or below the protocol. -/
theorem stands_field {ts : List Token} {n : Nat} {d : Draft} (htracks : Tracks ts n b)
    (h : Anchored ts n b) (ht : ts[n]? = some t) (hd : b.draft = some d) {name body : Text}
    {number : Numeral} (hs : t.shape = .field name number body) :
    Stands ts ⟨n, .field, some d.fieldParent⟩ := by
  rcases hblock : d.block with _ | c
  · have hparent : d.fieldParent = d.line := by rw [Draft.fieldParent, hblock]; rfl
    rw [hparent]
    refine .fieldOfProtocol ht hs (fun k hk => ?_) (h.draft d hd)
    obtain ⟨js, hjs⟩ := (htracks.block k).mp hk
    simp [openLines, openBlock, hd, hblock] at hjs
  · have hparent : d.fieldParent = c.line := by rw [Draft.fieldParent, hblock]; rfl
    rw [hparent]
    refine .fieldOfBlock ht hs ((htracks.block c.line).mpr ⟨c.fields.map Field.line, ?_⟩)
    rw [openLines, openBlock, hd, Option.bind_some, hblock, Option.map_some]

/-- **What a line adds stands on that line, where it belongs**, and a line adds something exactly when it
is listed. -/
theorem shown?_spec {ts : List Token} {n : Nat} (htracks : Tracks ts n b) (h : Anchored ts n b)
    (ht : ts[n]? = some t) (hindex : t.index = n) :
    (b.shown? t).isSome = isListed ts n ∧ ∀ x, b.shown? t = some x → x.line = n ∧ Stands ts x := by
  have hdepth := htracks.depth
  unfold shown? isListed
  rw [ht, Option.map_some, hindex, ← hdepth]
  rcases hd : b.draft with _ | d
  · cases hs : t.shape with
    | banner =>
      refine ⟨rfl, fun x hx => ?_⟩
      cases hx
      exact ⟨rfl, .group ht hs⟩
    | protocol name number rest =>
      refine ⟨rfl, fun x hx => ?_⟩
      cases hx
      rw [h.group]
      exact ⟨rfl, .protocol ht hs⟩
    | _ => exact ⟨rfl, fun x hx => by cases hx⟩
  · cases hs : t.shape with
    | banner =>
      refine ⟨rfl, fun x hx => ?_⟩
      cases hx
      exact ⟨rfl, .group ht hs⟩
    | block kind closed rest =>
      simp only [Draft.shown?, hs, hindex]
      refine ⟨rfl, fun x hx => ?_⟩
      cases hx
      exact ⟨rfl, .block ht hs (h.draft d hd)⟩
    | field name number body =>
      simp only [Draft.shown?, hs, hindex]
      refine ⟨rfl, fun x hx => ?_⟩
      cases hx
      exact ⟨rfl, stands_field htracks h ht hd hs⟩
    | _ =>
      simp only [Draft.shown?, hs]
      exact ⟨rfl, fun x hx => by cases hx⟩

theorem shownAt?_spec {ts : List Token} (hts : Numbered ts) (i : Nat) :
    (shownAt? ts i).isSome = isListed ts i ∧
      ∀ x, shownAt? ts i = some x → x.line = i ∧ Stands ts x := by
  rcases ht : ts[i]? with _ | t
  · simp [shownAt?, isListed, ht]
  · obtain ⟨hi, -⟩ := List.getElem?_eq_some_iff.mp ht
    have hspec := shown?_spec (tracks_before hts (Nat.le_of_lt hi))
      (anchored_before hts (Nat.le_of_lt hi)) ht (hts i t ht)
    rwa [shownAt?, ht, Option.bind_some]

end Builder

theorem nodes_ofTokens (ts : List Token) :
    (ofTokens ts).nodes = (List.range ts.length).filterMap (Builder.shownAt? ts) := by
  rw [Builder.ofTokens_eq, Builder.nodes_finish (Builder.inOrder_before _ _),
    Builder.nodes_before (Nat.le_refl _)]

end Outline

open Outline in
/-- **The outline loses and duplicates nothing.**  In pre-order the symbols of a document are selected by
lines that increase strictly, and these are exactly the lines that are listed: the banners, the
declarations while no protocol is open, and the block starts and fields while one is.  Each symbol has the
kind of its line and is a child of what is open there. -/
theorem nodes_symbols {source : Text} {ss : List Symbol} (h : Symbol.ofSource source = .ok ss) :
    ((Symbol.nodesAll none ss).map Symbol.Node.line).Pairwise (· < ·) ∧
      (∀ i, i ∈ (Symbol.nodesAll none ss).map Symbol.Node.line ↔
        isListed (Token.ofLines (lines source)) i = true) ∧
      ∀ x ∈ Symbol.nodesAll none ss, Stands (Token.ofLines (lines source)) x := by
  obtain ⟨ts, hts, h⟩ := Symbol.exists_of_bind_eq_ok h
  obtain ⟨rfl, -⟩ := Token.ofLines?_eq_ok_iff.mp hts
  have hspec := Builder.shownAt?_spec (numbered_ofLines (lines source))
  rw [Symbol.nodesAll_ofOutline h, nodes_ofTokens]
  generalize Token.ofLines (lines source) = ts at hspec
  refine ⟨?_, fun i => ?_, fun x hx => ?_⟩
  · rw [List.pairwise_map]
    refine List.pairwise_filterMap.mpr (List.pairwise_lt_range.imp fun hlt x hx y hy => ?_)
    rw [((hspec _).2 x hx).1, ((hspec _).2 y hy).1]
    exact hlt
  · rw [← (hspec i).1]
    constructor
    · intro hi
      obtain ⟨x, hx, rfl⟩ := List.mem_map.mp hi
      obtain ⟨j, -, hj⟩ := List.mem_filterMap.mp hx
      rw [((hspec j).2 x hj).1, hj]
      rfl
    · intro hi
      obtain ⟨x, hx⟩ := Option.isSome_iff_exists.mp hi
      have hlt : i < ts.length := by
        by_contra hge
        rw [Builder.shownAt?, List.getElem?_eq_none (by omega)] at hx
        cases hx
      exact List.mem_map.mpr
        ⟨x, List.mem_filterMap.mpr ⟨i, List.mem_range.mpr hlt, hx⟩, ((hspec i).2 x hx).1⟩
  · obtain ⟨j, -, hj⟩ := List.mem_filterMap.mp hx
    exact ((hspec j).2 x hj).2

/-- A document with a field outside protocols, a protocol before the banner, a block that is left open, a
declaration inside a protocol and a field behind the blocks of its protocol. -/
def tangledSource : Text :=
  "a 0: int\nping 1 \x7b \x7d\n#### Chat ####\n.pos \x7b\n x 0: int\n\x7d\nsay 2 \x7b\n".toList ++
    " request \x7b\n  text 0: string\n response \x7b\nbar 3 \x7b\n  ok 0: bool\n".toList ++
    " \x7d \x7d \x7d\n tail 9: int\n\x7d\n".toList

theorem nodes_tangledSource :
    ∃ ss, Symbol.ofSource tangledSource = .ok ss ∧
      Symbol.nodesAll none ss =
        [⟨1, .protocol, none⟩, ⟨2, .group, none⟩, ⟨3, .type, some 2⟩, ⟨4, .field, some 3⟩,
          ⟨6, .protocol, some 2⟩, ⟨7, .block, some 6⟩, ⟨8, .field, some 7⟩, ⟨9, .block, some 6⟩,
          ⟨11, .field, some 9⟩, ⟨13, .field, some 6⟩] ∧
      ((Symbol.nodesAll none ss).map Symbol.Node.line).Pairwise (· < ·) ∧
      (∀ i, i ∈ (Symbol.nodesAll none ss).map Symbol.Node.line ↔
        Outline.isListed (Token.ofLines (lines tangledSource)) i = true) ∧
      ∀ x ∈ Symbol.nodesAll none ss, Outline.Stands (Token.ofLines (lines tangledSource)) x := by
  have hnodes : (Symbol.ofSource tangledSource).map (Symbol.nodesAll none) =
      .ok [⟨1, .protocol, none⟩, ⟨2, .group, none⟩, ⟨3, .type, some 2⟩, ⟨4, .field, some 3⟩,
        ⟨6, .protocol, some 2⟩, ⟨7, .block, some 6⟩, ⟨8, .field, some 7⟩, ⟨9, .block, some 6⟩,
        ⟨11, .field, some 9⟩, ⟨13, .field, some 6⟩] := by
    decide +kernel
  rcases hss : Symbol.ofSource tangledSource with f | ss
  · rw [hss] at hnodes
    cases hnodes
  · rw [hss] at hnodes
    exact ⟨ss, rfl, Except.ok.inj hnodes, nodes_symbols hss⟩

end Sproto
