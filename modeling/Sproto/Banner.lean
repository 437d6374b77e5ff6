import Sproto.Numeral

/-! # Banners

A module of a schema is announced by a banner, a line that begins and ends in at least four hash
signs.  Three things are read off lines of hash signs:

* the *label* of a header `#### Label`, under which validation files the protocols that follow;
* the *number range* of a banner `#### … Module 2500-2599 ####`;
* the *title*, what is left once the hash signs at both ends are taken off. -/
namespace Sproto.Banner

open Text

/-- Whether a character is a hash sign. -/
def isHash (c : Char) : Bool := c == '#'

/-- Whether a trimmed line is a banner: one line of at least eight characters whose first four and
last four are hash signs. -/
def isBanner (line : Text) : Bool :=
  8 ≤ line.length && (line.take 4).all isHash && (line.reverse.take 4).all isHash &&
    !line.contains '\n'

/-- Reads four or more hash signs, as many as there are. -/
def readHashes? (t : Text) : Option Text :=
  if 4 ≤ (t.takeWhile isHash).length then some (t.dropWhile isHash) else none

/-- The label of a module header: four or more hash signs in the first column, white space, and a
word. -/
def label? (line : Text) : Option Text := do
  let r ← readHashes? line
  let r ← readGap? r
  let (word, _) ← readWord? r
  return word

/-- What is left of a line once it is trimmed, its hash signs at both ends are dropped, and the
remainder is trimmed again. -/
def content (line : Text) : Text :=
  trim (dropEndWhile isHash ((trim line).dropWhile isHash))

/-- The title of a banner in the outline. -/
def title (line : Text) : Text :=
  match content line with
  | [] => "Module".toList
  | t => t

/-! ## The number range -/

/-- Reads `Module`, a number, a hyphen, a number and four hash signs, with white space allowed
between any two of them. -/
def rangeAt? (t : Text) : Option (Numeral × Numeral) := do
  let r ← "Module".toList.isPrefixOf? t
  let (low, r) ← Numeral.read? (trimLeft r)
  let r ← readChar? '-' (trimLeft r)
  let (high, r) ← Numeral.read? (trimLeft r)
  let _ ← readHashes? (trimLeft r)
  return (low, high)

/-- The first range in a text.  The search does not run on into a second line, save for a range that
the second line begins with. -/
def searchRange? : Text → Option (Numeral × Numeral)
  | [] => none
  | c :: t =>
      match rangeAt? (c :: t) with
      | some r => some r
      | none => if c = '\n' then rangeAt? (trimLeft t) else searchRange? t

/-- The number range that a line announces, as it is spelled. -/
def range? (line : Text) : Option (Numeral × Numeral) := do
  let r ← readHashes? (trim line)
  searchRange? (trimLeft r)

/-- The number range that a line announces, once both bounds are converted. -/
def rangeValue? (line : Text) : Except Fault (Option (Nat × Nat)) :=
  match range? line with
  | none => .ok none
  | some (low, high) =>
      match low.fault?, high.fault? with
      | some f, _ => .error f
      | none, some f => .error f
      | none, none => .ok (some (low.value, high.value))

end Sproto.Banner
