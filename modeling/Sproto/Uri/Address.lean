import Sproto.Numeral

/-! # Network addresses

The addresses that may name a host.  One of version four is four numbers below 256 with full stops
between them.  One of version six is eight groups of hexadecimal digits with colons between them; a
double colon stands for one or more groups of zeros, the last two groups may be written as an address
of version four, and a zone may follow after a percent sign.  An address of a later version gives the
number of the version first. -/
namespace Sproto.Address

open Text

/-- Whether a character is a hexadecimal digit, in either case. -/
def isHexDigit (c : Char) : Bool :=
  ('0' ≤ c && c ≤ '9') || ('A' ≤ c && c ≤ 'F') || ('a' ≤ c && c ≤ 'f')

/-! ## Version four -/

/-- Whether a text is the decimal of a number below 256. -/
def isOctet (t : Text) : Bool := (List.range 256).any fun n => decimal n == t

/-- Whether a text is an address of version four. -/
def isFour (t : Text) : Bool :=
  let parts := t.splitOn '.'
  parts.length == 4 && parts.all isOctet

/-! ## Version six -/

/-- Whether a text is a group: one to four hexadecimal digits. -/
def isGroup (t : Text) : Bool := !t.isEmpty && t.length ≤ 4 && t.all isHexDigit

/-- The pieces between the colons of a text; an empty text has none. -/
def pieces (t : Text) : List Text := if t = [] then [] else t.splitOn ':'

/-- The pieces with an address of version four at their end made two groups. -/
def widen (ps : List Text) : List Text :=
  if (ps.getLast?.map isFour).getD false then ps.dropLast ++ [['0'], ['0']] else ps

/-- What stands before and after the first double colon. -/
def aroundGap? : Text → Option (Text × Text)
  | [] => none
  | c :: t =>
      match c, t with
      | ':', ':' :: rest => some ([], rest)
      | c, t => (aroundGap? t).map fun (before, after) => (c :: before, after)

/-- Whether a text spells the groups of an address of version six: all eight, or at most seven around
a double colon. -/
def spellsSix (t : Text) : Bool :=
  match aroundGap? t with
  | none =>
      let groups := widen (pieces t)
      groups.length == 8 && groups.all isGroup
  | some (before, after) =>
      let groups := pieces before ++ widen (pieces after)
      groups.length ≤ 7 && groups.all isGroup

/-- Whether what follows the groups is nothing, or a percent sign and the name of a zone. -/
def isZone : Text → Bool
  | [] => true
  | _ :: name => !name.isEmpty && !name.contains '%'

/-- Whether a text is an address of version six. -/
def isSix (t : Text) : Bool :=
  spellsSix (t.takeWhile (· != '%')) && isZone (t.dropWhile (· != '%'))

/-! ## Later versions -/

/-- Whether a text that follows the letter `v` is a version in hexadecimal digits, a full stop and an
address. -/
def isLater (t : Text) : Bool :=
  match readRun? isHexDigit t with
  | some (_, '.' :: _ :: _) => true
  | _ => false

end Sproto.Address
