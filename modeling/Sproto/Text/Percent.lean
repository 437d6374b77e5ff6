import Sproto.Text.Utf8

/-! # Percent escapes

A path in a URI is written octet by octet: letters, digits and a few marks stand for themselves, every
other octet of the path's UTF-8 is a percent sign and two hexadecimal digits.  Reading is lenient: a
percent sign that no two hexadecimal digits follow stands for itself. -/
namespace Sproto.Text.Percent

/-- The percent sign. -/
def sign : UInt8 := 0x25

/-- Whether an octet stands for itself in the path of a URI. -/
def isPlain (b : UInt8) : Bool :=
  let n := b.toNat
  (48 ≤ n && n ≤ 57) || (65 ≤ n && n ≤ 90) || (97 ≤ n && n ≤ 122) || n == 0x5F || n == 0x2E ||
    n == 0x2D || n == 0x7E || n == 0x2F

/-- The upper-case hexadecimal digit of a number below sixteen. -/
def hexDigit (n : Nat) : Char := if n < 10 then Char.ofNat (48 + n) else Char.ofNat (55 + n)

/-- The value of a hexadecimal digit in either case. -/
def hexValue? (b : UInt8) : Option Nat :=
  let n := b.toNat
  if 48 ≤ n ∧ n ≤ 57 then some (n - 48)
  else if 65 ≤ n ∧ n ≤ 70 then some (n - 55)
  else if 97 ≤ n ∧ n ≤ 102 then some (n - 87)
  else none

/-- An octet as it is written. -/
def escape (b : UInt8) : Text :=
  if isPlain b then [Char.ofNat b.toNat]
  else ['%', hexDigit (b.toNat / 16), hexDigit (b.toNat % 16)]

/-- A text as it is written in the path of a URI. -/
def encode (t : Text) : Text := (Utf8.encode t).flatMap escape

/-- The octets that are meant, escapes resolved. -/
def unescape : List UInt8 → List UInt8
  | [] => []
  | b :: bs =>
      if b = sign then
        match bs with
        | x :: y :: rest =>
            match hexValue? x, hexValue? y with
            | some h, some l => UInt8.ofNat (16 * h + l) :: unescape rest
            | _, _ => b :: unescape (x :: y :: rest)
        | bs => b :: bs
      else b :: unescape bs

/-- The text that is meant, escapes resolved and their octets read as UTF-8. -/
def decode (t : Text) : Text := Utf8.decodeLenient (unescape (Utf8.encode t))

@[simp] theorem encode_nil : encode [] = [] := rfl

@[simp] theorem encode_append (s t : Text) : encode (s ++ t) = encode s ++ encode t := by
  simp [encode]

end Sproto.Text.Percent
