import Sproto.Editor.Position
import Sproto.Outline.Basic

/-! # Symbols

The outline as editors take it: a tree of named symbols, each with the range it covers and the range
to select, its own first line.  A symbol covers whole lines, from the start of its first line to the
end of its last. -/
namespace Sproto

/-- What a symbol stands for. -/
inductive SymbolKind where
  | group
  | protocol
  | type
  | block
  | field
  deriving DecidableEq, Repr

namespace SymbolKind

/-- The number of a kind in the editor protocol: namespace, class, struct, object and field. -/
def rank : SymbolKind → Nat
  | group => 3
  | protocol => 5
  | type => 23
  | block => 19
  | field => 8

end SymbolKind

/-- A node of the symbol tree. -/
structure Symbol where
  name : Text
  kind : SymbolKind
  detail : Option Text
  range : Range
  selection : Range
  children : List Symbol
  deriving Repr

namespace Symbol

/-- The symbol that covers the lines `line` to `stop`; `width` gives the length of each line. -/
def make? (width : Nat → Nat) (name : Text) (kind : SymbolKind) (detail : Option Text)
    (line stop : Nat) (children : Except Fault (List Symbol)) : Except Fault Symbol := do
  let selection ← Range.make? line 0 line (width line)
  let range ← Range.make? line 0 stop (width stop)
  return ⟨name, kind, detail, range, selection, ← children⟩

/-- The symbol of a field. -/
def ofField (width : Nat → Nat) (f : Outline.Field) : Except Fault Symbol :=
  make? width f.name .field (some (decimal f.number ++ ':' :: ' ' :: f.type)) f.line f.line (.ok [])

/-- The symbol of a block. -/
def ofBlock (width : Nat → Nat) (b : Outline.Block) : Except Fault Symbol :=
  make? width b.kind.word .block none b.line b.stop (b.fields.mapM (ofField width))

/-- The symbol of a member of a protocol. -/
def ofMember (width : Nat → Nat) : Outline.Member → Except Fault Symbol
  | .block b => ofBlock width b
  | .field f => ofField width f

/-- The symbol of a protocol; a name that starts with a full stop makes it a type. -/
def ofProtocol (width : Nat → Nat) (p : Outline.Protocol) : Except Fault Symbol :=
  make? width p.name (if p.name.head? = some '.' then .type else .protocol) (p.number.map decimal)
    p.line p.stop (p.members.mapM (ofMember width))

/-- The symbol of a module. -/
def ofGroup (width : Nat → Nat) (g : Outline.Group) : Except Fault Symbol :=
  make? width g.title .group none g.line g.stop (g.protocols.mapM (ofProtocol width))

/-- The symbols of an outline. -/
def ofOutline (width : Nat → Nat) (o : Outline) : Except Fault (List Symbol) := do
  let leading ← o.leading.mapM (ofProtocol width)
  let groups ← o.groups.mapM (ofGroup width)
  return leading ++ groups

/-- The symbols of a document. -/
def ofSource (source : Text) : Except Fault (List Symbol) := do
  let ts ← Token.ofSource? source
  let widths := ts.map (·.text.length)
  ofOutline (fun i => widths.getD i 0) (Outline.ofTokens ts)

end Symbol
end Sproto
