import Sproto.Text.Percent

/-! # Paths

A path is where it starts from and the names it goes through.  Reading a path from a text drops empty
names and single dots; `..` stays, since what it means depends on the disk.  Exactly two leading
slashes are kept apart from one, and three or more are as one. -/
namespace Sproto

open Text

/-- Where a path starts from. -/
inductive Anchor where
  /-- Wherever the reader is. -/
  | here
  /-- The root. -/
  | root
  /-- The root, written with two slashes. -/
  | doubleRoot
  deriving DecidableEq, Repr

/-- A path. -/
structure Path where
  anchor : Anchor
  parts : List Text
  deriving DecidableEq, Repr

namespace Path

/-- The anchor of a path with a number of leading slashes. -/
def anchorOf : Nat → Anchor
  | 0 => .here
  | 2 => .doubleRoot
  | _ => .root

/-- The path that a text names. -/
def ofText (t : Text) : Path :=
  ⟨anchorOf (t.takeWhile (· == '/')).length,
    (t.splitOn '/').filter fun part => part ≠ [] ∧ part ≠ ['.']⟩

/-- How an anchor is written. -/
def anchorText : Anchor → Text
  | .here => []
  | .root => ['/']
  | .doubleRoot => ['/', '/']

/-- A path as it is written; the path to nowhere else is a dot. -/
def toText (p : Path) : Text :=
  if p.anchor = .here ∧ p.parts = [] then ['.']
  else anchorText p.anchor ++ List.intercalate ['/'] p.parts

/-- Whether a path starts from the root. -/
def isAbsolute (p : Path) : Bool := p.anchor ≠ .here

/-- The path that goes on through more names. -/
def append (p : Path) (parts : List Text) : Path := { p with parts := p.parts ++ parts }

/-- The last name of a path. -/
def name (p : Path) : Text := p.parts.getLast?.getD []

/-- Whether a name is a schema file's. -/
def isSchemaName (name : Text) : Bool := ".sproto".toList.isSuffixOf name

end Path
end Sproto
