import Sproto.Outline.Symbol

/-! # Symbols without their places

Two documents have the same outline when their symbols are the same up to ranges, that is when they have
the same trees.  The trees can be read off the outline (`Outline.trees`), and the symbols of an outline
have them (`Symbol.rendersAll_ofOutline`).

Symbols are refused only where a line or a character goes beyond what a position can hold, so a document
whose lines all fit has symbols. -/
namespace Sproto

/-- A symbol without its ranges. -/
structure Tree where
  name : Text
  kind : SymbolKind
  detail : Option Text
  children : List Tree
  deriving Repr

mutual

/-- The tree of a symbol. -/
def Symbol.tree : Symbol → Tree
  | ⟨name, kind, detail, _, _, children⟩ => ⟨name, kind, detail, Symbol.trees children⟩

/-- The trees of a list of symbols. -/
def Symbol.trees : List Symbol → List Tree
  | [] => []
  | s :: ss => s.tree :: Symbol.trees ss

end

theorem Symbol.trees_append (ss ss' : List Symbol) : trees (ss ++ ss') = trees ss ++ trees ss' := by
  induction ss with
  | nil => rfl
  | cons s ss ih => rw [List.cons_append, trees, ih, trees, List.cons_append]

namespace Outline

/-- Whether a line can be the line of a position. -/
def LineFits (line : Nat) : Prop := line ≤ Fault.maxCoordinate

theorem LineFits.max {i j : Nat} (hi : LineFits i) (hj : LineFits j) : LineFits (max i j) :=
  Nat.max_le.mpr ⟨hi, hj⟩

namespace Field

def tree (f : Field) : Tree := ⟨f.name, .field, some (decimal f.number ++ ':' :: ' ' :: f.type), []⟩

def Fits (f : Field) : Prop := LineFits f.line

end Field

namespace Block

def tree (b : Block) : Tree := ⟨b.kind.word, .block, none, b.fields.map Field.tree⟩

structure Fits (b : Block) : Prop where
  line : LineFits b.line
  stop : LineFits b.stop
  fields : ∀ f ∈ b.fields, f.Fits

end Block

namespace Member

def tree : Member → Tree
  | block b => b.tree
  | field f => f.tree

def Fits : Member → Prop
  | block b => b.Fits
  | field f => f.Fits

end Member

namespace Protocol

def tree (p : Protocol) : Tree :=
  ⟨p.name, if p.name.head? = some '.' then .type else .protocol, p.number.map decimal,
    p.members.map Member.tree⟩

structure Fits (p : Protocol) : Prop where
  line : LineFits p.line
  stop : LineFits p.stop
  members : ∀ m ∈ p.members, m.Fits

theorem kind_tree (p : Protocol) : p.tree.kind ≠ .group := by
  rw [tree]
  by_cases h : p.name.head? = some '.'
  · rw [if_pos h]
    exact fun h => by cases h
  · rw [if_neg h]
    exact fun h => by cases h

end Protocol

namespace Group

def tree (g : Group) : Tree := ⟨g.title, .group, none, g.protocols.map Protocol.tree⟩

structure Fits (g : Group) : Prop where
  line : LineFits g.line
  stop : LineFits g.stop
  protocols : ∀ p ∈ g.protocols, p.Fits

end Group

end Outline

/-- The trees of an outline: those of the leading protocols, then those of the modules. -/
def Outline.trees (o : Outline) : List Tree :=
  o.leading.map Protocol.tree ++ o.groups.map Group.tree

/-- Whether all lines of an outline can be lines of positions. -/
structure Outline.Fits (o : Outline) : Prop where
  leading : ∀ p ∈ o.leading, p.Fits
  groups : ∀ g ∈ o.groups, g.Fits

namespace Symbol

/-- Whether every width can be the character of a position. -/
def Narrow (width : Nat → Nat) : Prop := ∀ i, width i ≤ Fault.maxCoordinate

/-- A symbol made from lines of a width has a certain tree, and there is one if the widths and the lines
fit. -/
structure Renders (width : Nat → Nat) (r : Except Fault Symbol) (fits : Prop) (t : Tree) : Prop where
  tree : ∀ s, r = .ok s → s.tree = t
  total : Narrow width → fits → ∃ s, r = .ok s

/-- The same for a list of symbols. -/
structure RendersAll (width : Nat → Nat) (r : Except Fault (List Symbol)) (fits : Prop)
    (ts : List Tree) : Prop where
  trees : ∀ ss, r = .ok ss → Symbol.trees ss = ts
  total : Narrow width → fits → ∃ ss, r = .ok ss

theorem exists_range {line stop width : Nat} (hl : Outline.LineFits line) (hs : Outline.LineFits stop)
    (hw : width ≤ Fault.maxCoordinate) : ∃ r, Range.make? line 0 stop width = .ok r := by
  have hcoordinate : ∀ (which : Coordinate) {n : Nat}, n ≤ Fault.maxCoordinate →
      Position.coordinate? which n = .ok n :=
    fun which n hn => Position.coordinate?_eq_ok_iff.mpr ⟨rfl, hn⟩
  have hzero : Position.coordinate? .character 0 = .ok 0 := rfl
  refine ⟨⟨⟨line, 0⟩, ⟨stop, width⟩⟩, ?_⟩
  simp only [Range.make?, Position.make?, hcoordinate _ hl, hcoordinate _ hs, hcoordinate _ hw, hzero]
  rfl

section

variable {width : Nat → Nat}

theorem renders_make? (name : Text) (kind : SymbolKind) (detail : Option Text) {line stop : Nat}
    {children : Except Fault (List Symbol)} {fits fits' : Prop} {ts : List Tree}
    (hc : RendersAll width children fits' ts)
    (hfits : fits → Outline.LineFits line ∧ Outline.LineFits stop ∧ fits') :
    Renders width (make? width name kind detail line stop children) fits
      ⟨name, kind, detail, ts⟩ := by
  constructor
  · intro s hs
    unfold make? at hs
    cases hselection : Range.make? line 0 line (width line) with
    | error f => rw [hselection] at hs; cases hs
    | ok selection =>
      cases hrange : Range.make? line 0 stop (width stop) with
      | error f => rw [hselection, hrange] at hs; cases hs
      | ok range =>
        cases hchildren : children with
        | error f => rw [hselection, hrange, hchildren] at hs; cases hs
        | ok cs =>
          rw [hselection, hrange, hchildren] at hs
          cases hs
          rw [tree, hc.trees cs hchildren]
  · intro hw hf
    obtain ⟨hl, hs, hf⟩ := hfits hf
    -- both ranges are made before the children are
    obtain ⟨selection, hselection⟩ := exists_range hl hl (hw line)
    obtain ⟨range, hrange⟩ := exists_range hl hs (hw stop)
    obtain ⟨cs, hchildren⟩ := hc.total hw hf
    refine ⟨⟨name, kind, detail, range, selection, cs⟩, ?_⟩
    rw [make?, hselection, hrange, hchildren]
    rfl

theorem rendersAll_mapM {α : Type} {f : α → Except Fault Symbol} {fits : α → Prop} {g : α → Tree}
    (h : ∀ a, Renders width (f a) (fits a) (g a)) (l : List α) :
    RendersAll width (l.mapM f) (∀ a ∈ l, fits a) (l.map g) := by
  induction l with
  | nil =>
    refine ⟨fun ss hss => ?_, fun _ _ => ⟨[], rfl⟩⟩
    cases hss
    rfl
  | cons a l ih =>
    rw [List.mapM_cons]
    constructor
    · intro ss hss
      cases ha : f a with
      | error e => rw [ha] at hss; cases hss
      | ok s =>
        cases hl : l.mapM f with
        | error e => rw [ha, hl] at hss; cases hss
        | ok ss' =>
          rw [ha, hl] at hss
          cases hss
          rw [trees, (h a).tree s ha, ih.trees ss' hl, List.map_cons]
    · intro hw hfits
      obtain ⟨hfirst, hrest⟩ := List.forall_mem_cons.mp hfits
      obtain ⟨s, ha⟩ := (h a).total hw hfirst
      obtain ⟨ss, hl⟩ := ih.total hw hrest
      refine ⟨s :: ss, ?_⟩
      rw [ha, hl]
      rfl

variable (width)

theorem renders_ofField (f : Outline.Field) : Renders width (ofField width f) f.Fits f.tree :=
  have hnone : RendersAll width (.ok []) True [] :=
    ⟨fun ss hss => by cases hss; rfl, fun _ _ => ⟨[], rfl⟩⟩
  renders_make? _ _ _ hnone fun h => ⟨h, h, trivial⟩

theorem renders_ofBlock (b : Outline.Block) : Renders width (ofBlock width b) b.Fits b.tree :=
  renders_make? _ _ _ (rendersAll_mapM (renders_ofField width) b.fields)
    fun h => ⟨h.line, h.stop, h.fields⟩

theorem renders_ofMember (m : Outline.Member) : Renders width (ofMember width m) m.Fits m.tree := by
  cases m with
  | block b => exact renders_ofBlock width b
  | field f => exact renders_ofField width f

theorem renders_ofProtocol (p : Outline.Protocol) :
    Renders width (ofProtocol width p) p.Fits p.tree :=
  renders_make? _ _ _ (rendersAll_mapM (renders_ofMember width) p.members)
    fun h => ⟨h.line, h.stop, h.members⟩

theorem renders_ofGroup (g : Outline.Group) : Renders width (ofGroup width g) g.Fits g.tree :=
  renders_make? _ _ _ (rendersAll_mapM (renders_ofProtocol width) g.protocols)
    fun h => ⟨h.line, h.stop, h.protocols⟩

end

/-- **The symbols of an outline have its trees**, and an outline whose lines fit has symbols. -/
theorem rendersAll_ofOutline (width : Nat → Nat) (o : Outline) :
    RendersAll width (ofOutline width o) o.Fits o.trees := by
  have hleading := rendersAll_mapM (renders_ofProtocol width) o.leading
  have hgroups := rendersAll_mapM (renders_ofGroup width) o.groups
  constructor
  · intro ss hss
    unfold ofOutline at hss
    cases hl : o.leading.mapM (ofProtocol width) with
    | error f => rw [hl] at hss; cases hss
    | ok ls =>
      cases hg : o.groups.mapM (ofGroup width) with
      | error f => rw [hl, hg] at hss; cases hss
      | ok gs =>
        rw [hl, hg] at hss
        cases hss
        rw [trees_append, hleading.trees ls hl, hgroups.trees gs hg, Outline.trees]
  · intro hw hf
    obtain ⟨ls, hl⟩ := hleading.total hw hf.leading
    obtain ⟨gs, hg⟩ := hgroups.total hw hf.groups
    refine ⟨ls ++ gs, ?_⟩
    rw [ofOutline, hl, hg]
    rfl

end Symbol
end Sproto
