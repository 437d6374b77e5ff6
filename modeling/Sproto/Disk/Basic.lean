import Sproto.Disk.Path
import Sproto.Text.Lines
import Sproto.Order

/-! # Disks

A disk is what a complete listing shows: each place with what is there, directories included.  A place
is the list of names from the root down to it.  Relative paths start from the home directory. -/
namespace Sproto

open Text

namespace Disk

/-- What is at a place. -/
inductive Node where
  | file (octets : List UInt8)
  | directory
  deriving DecidableEq, Repr

/-- A place: the names from the root down. -/
abbrev Place := List Text

end Disk

/-- The contents of a disk, and the directory that relative paths start from. -/
structure Disk where
  nodes : List (Disk.Place × Disk.Node)
  home : Disk.Place
  deriving DecidableEq, Repr

namespace Disk

/-- What is at a place; the root is a directory. -/
def get? (d : Disk) (p : Place) : Option Node :=
  if p = [] then some .directory else d.nodes.lookup p

/-- Whether a directory is at a place. -/
def isDirectory (d : Disk) (p : Place) : Bool := d.get? p = some .directory

/-- The disk with a directory at a place, unless something is there. -/
def addDirectory (d : Disk) (p : Place) : Disk :=
  if (d.get? p).isSome then d else { d with nodes := d.nodes ++ [(p, .directory)] }

/-- The disk with the directories that lead to a place through the given names. -/
def addDirectories (d : Disk) (p : Place) : List Text → Disk
  | [] => d
  | n :: ns => (d.addDirectory (p ++ [n])).addDirectories (p ++ [n]) ns

/-- The disk with a node at a place, in the place of what was there, and the directories above it. -/
def put (d : Disk) (p : Place) (node : Node) : Disk :=
  let d := d.addDirectories [] p.dropLast
  match d.get? p, node with
  | some _, .directory => d
  | _, _ => { d with nodes := d.nodes.filter (·.1 ≠ p) ++ [(p, node)] }

/-- A disk on which the home directory is empty. -/
def empty (home : Place) : Disk := (⟨[], home⟩ : Disk).addDirectories [] home

/-- Goes through names from a place.  Every name but the last must lead to a directory, and `..` leads
back. -/
def walk (d : Disk) : Place → List Text → Option Place
  | p, [] => if (d.get? p).isSome then some p else none
  | p, n :: ns =>
      if d.isDirectory p then
        if n = ['.', '.'] then d.walk p.dropLast ns else d.walk (p ++ [n]) ns
      else none

/-- The place that a path leads to, if there is something. -/
def locate? (d : Disk) (p : Path) : Option Place :=
  d.walk (if p.isAbsolute then [] else d.home) p.parts

/-- The text of a file: strict UTF-8, with every line end made a line feed.  `none` for a directory
and for octets that are not UTF-8. -/
def readText? (d : Disk) (p : Path) : Option Text :=
  match (d.locate? p).bind d.get? with
  | some (.file octets) => (Utf8.decode? octets).map normalizeLineEnds
  | _ => none
where
  /-- Makes `\r\n` and a lone `\r` a line feed. -/
  normalizeLineEnds : Text → Text
    | [] => []
    | '\r' :: '\n' :: t => '\n' :: normalizeLineEnds t
    | '\r' :: t => '\n' :: normalizeLineEnds t
    | c :: t => c :: normalizeLineEnds t

/-- Whether a list of names comes before another: name by name, each in the order of its
characters. -/
def before (a b : Place) : Bool := decide (a < b)

/-- The places below a place, relative to it, in order. -/
def below (d : Disk) (p : Place) : List Place :=
  Order.sort before ((d.nodes.filterMap fun (q, _) => p.isPrefixOf? q).filter (· ≠ []))

/-- The schema files below a directory, and the directories with such a name, in order. -/
def schemaPaths (d : Disk) (root : Path) : List Path :=
  match d.locate? root with
  | none => []
  | some p =>
      if d.isDirectory p then
        ((d.below p).filter fun q => Path.isSchemaName (q.getLast?.getD [])).map root.append
      else []

end Disk
end Sproto
