import Sproto.Line.Braces
import Sproto.Line.Token

/-! # The outline of a document

A document holds modules, a module protocols, a protocol blocks and fields, and a block fields.  The
outline has this shape by its types; protocols before the first banner lead the document and belong to
no module.

It is built in one pass over the tokens.  Nesting is counted by braces: a protocol is open from its
declaration until its braces balance, and a declaration is read as one only while no protocol is open.
What is still open at a banner or at the end of the document ends on the last line before it that is
not blank. -/
namespace Sproto

open Text

namespace Outline

/-- A field. -/
structure Field where
  name : Text
  number : Nat
  type : Text
  line : Nat
  deriving DecidableEq, Repr

/-- A block, from its first line to its last. -/
structure Block where
  kind : BlockKind
  line : Nat
  stop : Nat
  fields : List Field
  deriving DecidableEq, Repr

/-- What a protocol holds. -/
inductive Member where
  | block (b : Block)
  | field (f : Field)
  deriving DecidableEq, Repr

/-- A protocol or a type, from its first line to its last. -/
structure Protocol where
  name : Text
  number : Option Nat
  line : Nat
  stop : Nat
  members : List Member
  deriving DecidableEq, Repr

/-- A module, from its banner to its last line. -/
structure Group where
  title : Text
  line : Nat
  stop : Nat
  protocols : List Protocol
  deriving DecidableEq, Repr

end Outline

/-- The outline of a document: the protocols before any banner, then the modules. -/
structure Outline where
  leading : List Outline.Protocol
  groups : List Outline.Group
  deriving DecidableEq, Repr

namespace Outline

/-! ## An open protocol -/

/-- A protocol whose braces do not balance yet. -/
structure Draft where
  name : Text
  number : Option Nat
  line : Nat
  /-- The members that are complete. -/
  members : List Member
  /-- The open block; until it is closed it ends on its own first line. -/
  block : Option Block
  /-- How many braces are open. -/
  depth : Int
  deriving DecidableEq, Repr

namespace Draft

/-- The draft with its open block taken as it stands. -/
def leaveBlock (d : Draft) : Draft :=
  { d with members := d.members ++ (d.block.map Member.block).toList, block := none }

/-- The draft with its open block closed on a line. -/
def closeBlock (d : Draft) (stop : Nat) : Draft :=
  leaveBlock { d with block := d.block.map fun b => { b with stop := stop } }

/-- The draft with a field more, in the open block if there is one. -/
def addField (d : Draft) (f : Field) : Draft :=
  match d.block with
  | some b => { d with block := some { b with fields := b.fields ++ [f] } }
  | none => { d with members := d.members ++ [.field f] }

/-- The draft with a block more, closed at once or open. -/
def addBlock (d : Draft) (kind : BlockKind) (closed : Bool) (line : Nat) : Draft :=
  let d := { d.leaveBlock with block := some ⟨kind, line, line, []⟩ }
  if closed then d.leaveBlock else d

/-- The draft after a line that counts for what its shape says, before its braces are counted. -/
def addMember (d : Draft) (t : Token) : Draft :=
  match t.shape with
  | .block kind closed _ => d.addBlock kind closed t.index
  | .field name number body =>
      d.addField ⟨name, number.value, trim (beforeComment (fieldContent body)), t.index⟩
  | _ => d

/-- The draft after a line.  An open block is closed when at most the protocol's brace stays open. -/
def add (d : Draft) (t : Token) : Draft :=
  let d := d.addMember t
  let d := { d with depth := d.depth + braceBalance t.text }
  if d.depth ≤ 1 then d.closeBlock t.index else d

/-- The protocol of a draft that ends on a line. -/
def finish (d : Draft) (stop : Nat) : Protocol :=
  ⟨d.name, d.number, d.line, stop, d.leaveBlock.members⟩

end Draft

/-! ## The pass -/

/-- What the pass has built. -/
structure Builder where
  leading : List Protocol
  /-- The modules that are complete. -/
  groups : List Group
  /-- The module whose banner was the last one, with its complete protocols. -/
  group : Option Group
  /-- The open protocol. -/
  draft : Option Draft
  /-- The last line that was not blank. -/
  lastLine : Nat
  deriving DecidableEq, Repr

namespace Builder

/-- Nothing built yet. -/
def initial : Builder := ⟨[], [], none, none, 0⟩

/-- Puts a complete protocol into the open module, or in front of all modules. -/
def place (b : Builder) (p : Protocol) : Builder :=
  match b.group with
  | some g => { b with group := some { g with protocols := g.protocols ++ [p] } }
  | none => { b with leading := b.leading ++ [p] }

/-- Ends the open protocol, and the open block in it, on the last line that was not blank. -/
def endDraft (b : Builder) : Builder :=
  match b.draft with
  | none => b
  | some d =>
      let d := d.closeBlock (max ((d.block.map Block.line).getD 0) b.lastLine)
      { b.place (d.finish (max d.line b.lastLine)) with draft := none }

/-- Ends the open module on the last line that was not blank. -/
def endGroup (b : Builder) : Builder :=
  match b.group with
  | none => b
  | some g =>
      { b with
        groups := b.groups ++ [{ g with stop := max g.line b.lastLine }]
        group := none }

/-- Opens a protocol; one whose braces balance on its line is complete at once. -/
def declare (b : Builder) (t : Token) (name : Text) (number : Option Numeral) : Builder :=
  let d : Draft := ⟨name, number.map Numeral.value, t.index, [], none, braceBalance t.text⟩
  if d.depth ≤ 0 then b.place (d.finish t.index) else { b with draft := some d }

/-- Adds a line to the open protocol, and closes it when its braces balance. -/
def extend (b : Builder) (d : Draft) (t : Token) : Builder :=
  let d := d.add t
  if d.depth ≤ 0 then { b.place (d.finish t.index) with draft := none }
  else { b with draft := some d }

/-- The pass over one line. -/
def step (b : Builder) (t : Token) : Builder :=
  match t.shape with
  | .blank => b
  | .banner =>
      { b.endDraft.endGroup with
        group := some ⟨Banner.title t.text, t.index, t.index, []⟩
        lastLine := t.index }
  | shape =>
      let b := { b with lastLine := t.index }
      match b.draft, shape with
      | none, .protocol name number _ => b.declare t name number
      | none, _ => b
      | some d, _ => b.extend d t

/-- The outline once all lines are read. -/
def finish (b : Builder) : Outline :=
  let b := b.endDraft.endGroup
  ⟨b.leading, b.groups⟩

end Builder

/-- The outline of a document's tokens. -/
def ofTokens (ts : List Token) : Outline := (ts.foldl Builder.step Builder.initial).finish

end Outline
end Sproto
