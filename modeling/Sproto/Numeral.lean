import Sproto.Fault
import Sproto.Text.Basic

/-! # Numerals

A numeral is a number as a line spells it: decimal digits of any scripts, leading zeros included.
Its value is read digit by digit.  A numeral of more than `Fault.maxDigits` digits is refused wherever
its value is needed, however small the value is. -/
namespace Sproto

/-- A number as it is spelled. -/
structure Numeral where
  digits : Text
  deriving DecidableEq, Repr

namespace Numeral

/-- The number that a numeral spells, most significant digit first. -/
def value (n : Numeral) : Nat :=
  n.digits.foldl (fun acc c => 10 * acc + (Text.digitValue? c).getD 0) 0

/-- The fault of a numeral with too many digits. -/
def fault? (n : Numeral) : Option Fault :=
  if Fault.maxDigits < n.digits.length then some (.numeralTooLong n.digits.length) else none

/-- Reads a numeral: one or more digits, as many as there are. -/
def read? (t : Text) : Option (Numeral × Text) :=
  (Text.readRun? Text.isDigit t).map fun (ds, rest) => (⟨ds⟩, rest)

/-- A numeral has no fault exactly when its digits are within the limit. -/
theorem fault?_eq_none_iff (n : Numeral) :
    n.fault? = none ↔ n.digits.length ≤ Fault.maxDigits := by
  unfold fault?
  split <;> simp <;> omega

end Numeral

/-- A number in ASCII digits without leading zeros. -/
def decimal (n : Nat) : Text := Nat.toDigits 10 n

end Sproto
