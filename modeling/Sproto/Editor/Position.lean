import Sproto.Fault

/-! # Positions and ranges

A position is a line and a character in it, both counted from zero.  The editor protocol gives each
coordinate the range `0` to `Fault.maxCoordinate`; a position is made by `Position.make?`, which looks
at the line before the character. -/
namespace Sproto

/-- A place in a document. -/
structure Position where
  line : Nat
  character : Nat
  deriving DecidableEq, Repr

/-- The part of a document from one place up to another. -/
structure Range where
  start : Position
  stop : Position
  deriving DecidableEq, Repr

namespace Position

/-- A coordinate within the protocol's range. -/
def coordinate? (which : Coordinate) (value : Int) : Except Fault Nat :=
  if 0 ≤ value ∧ value ≤ Fault.maxCoordinate then .ok value.toNat
  else .error (.positionOutOfRange which value)

/-- The position with the given coordinates. -/
def make? (line character : Int) : Except Fault Position := do
  let l ← coordinate? .line line
  let c ← coordinate? .character character
  return ⟨l, c⟩

/-- A coordinate is accepted exactly when it is in the protocol's range. -/
theorem coordinate?_eq_ok_iff {which : Coordinate} {value : Int} {n : Nat} :
    coordinate? which value = .ok n ↔ value = n ∧ n ≤ Fault.maxCoordinate := by
  unfold coordinate?
  split
  · next h =>
    simp only [Except.ok.injEq]
    omega
  · next h =>
    simp only [reduceCtorEq, false_iff]
    omega

end Position

namespace Range

/-- The range between two positions given by their coordinates. -/
def make? (startLine startCharacter stopLine stopCharacter : Int) : Except Fault Range := do
  let start ← Position.make? startLine startCharacter
  let stop ← Position.make? stopLine stopCharacter
  return ⟨start, stop⟩

end Range
end Sproto
