import Sproto.Layout.Row

/-! # Sections of a document

For layout a document is a list of sections: banners, comments, protocols and stray lines.

Blank lines are dropped first, so that a block start with nothing but a closing brace behind it can be
taken together with that brace as an empty block (`Item`).  Then one pass over the items gathers the
sections.  Nesting is counted by braces, and a protocol ends when they balance; a banner or another
declaration in the first column cuts it off, as the end of the document does, and it is then given the
closing brace that it lacks. -/
namespace Sproto

open Text

/-- A part of a document that is laid out as a whole. -/
inductive Section where
  | banner (text : Text)
  /-- A comment outside any protocol. -/
  | comment (text : Text)
  /-- Any other line outside any protocol. -/
  | stray (text : Text)
  | protocol (rows : List Row)
  deriving DecidableEq, Repr

/-- A unit of the pass: a line, or the one or two lines of an empty block. -/
inductive Item where
  | line (t : Token)
  | emptyBlock (kind : BlockKind) (ts : List Token)
  deriving DecidableEq, Repr

/-- The items of a list of tokens without blank lines. -/
def Item.ofTokens : List Token → List Item
  | [] => []
  | t :: ts =>
      match t.shape with
      | .block kind true _ => .emptyBlock kind [t] :: ofTokens ts
      | .block kind false _ =>
          match ts with
          | [] => [.line t]
          | u :: us =>
              if u.shape = .closeBrace then .emptyBlock kind [t, u] :: ofTokens us
              else .line t :: ofTokens (u :: us)
      | _ => .line t :: ofTokens ts

namespace Body

/-- The section of a body whose braces balance. -/
def ended (b : Body) : List Section := if b.depth ≤ 0 then [.protocol b.rows] else []

/-- The body, if its braces do not balance yet. -/
def goesOn (b : Body) : Option Body := if b.depth ≤ 0 then none else some b

end Body

namespace Section

/-- The section of an open protocol that is cut off. -/
def cutOff : Option Body → List Section
  | none => []
  | some b => [protocol b.cutOff]

/-- The section of a line outside any protocol. -/
def outside (t : Token) : Section :=
  if t.shape = .comment then comment (Style.commentLine t.text) else stray t.text

/-- The pass over one item: the sections that it completes, and the protocol that is open behind
it. -/
def step (current : Option Body) : Item → List Section × Option Body
  | .emptyBlock kind ts =>
      match current with
      | none => (ts.map outside, none)
      | some b => ([], some (b.addEmptyBlock kind))
  | .line t =>
      match t.shape with
      | .banner => (cutOff current ++ [banner (trim t.text)], none)
      | .protocol name number rest =>
          let b := Body.declare t name number rest
          (cutOff current ++ b.ended, b.goesOn)
      | _ =>
          match current with
          | none => ([outside t], none)
          | some b => ((b.add t).ended, (b.add t).goesOn)

/-- The pass over a list of items. -/
def run : Option Body → List Item → List Section
  | current, [] => cutOff current
  | current, i :: is => (step current i).1 ++ run (step current i).2 is

/-- The sections of a document's tokens. -/
def ofTokens (ts : List Token) : List Section :=
  run none (Item.ofTokens (ts.filter fun t => t.shape ≠ .blank))

/-! ## Laying out -/

/-- The lines of a section. -/
def lines (s : Style) : Section → List Text
  | banner text => [text]
  | comment text => [text]
  | stray text => [text]
  | protocol rows => rows.map (Row.line s)

/-- Whether a blank line follows a section in any case. -/
def isSetOff : Section → Bool
  | banner _ => true
  | protocol _ => true
  | _ => false

/-- Whether a blank line stands between two neighbours: behind a banner or a protocol, before a
banner, and before the first of a run of comments. -/
def parted : Section → Section → Bool
  | banner _, _ => true
  | protocol _, _ => true
  | _, banner _ => true
  | stray _, comment _ => true
  | _, _ => false

/-- An empty line, or none. -/
def blankIf (b : Bool) : List Text := if b then [[]] else []

/-- The lines of a document. -/
def layOut (s : Style) : List Section → List Text
  | [] => []
  | a :: rest =>
      match rest with
      | [] => a.lines s ++ blankIf a.isSetOff
      | b :: _ => a.lines s ++ blankIf (parted a b) ++ layOut s rest

end Section
end Sproto
