import Sproto.Text.Basic

/-! # UTF-8

Reading octets as UTF-8, one octet at a time.  Between octets the reader remembers the character it
has begun (`Pending`): how many octets are owed, the bits so far, and the least and the greatest octet
that may come next, which is how overlong forms, surrogates and values beyond U+10FFFF are kept out.

An octet that cannot continue the character begun ends it as an error and is then looked at afresh, so
each ill-formed piece is one error.  The strict reading refuses errors; the lenient one puts the
replacement character in their place. -/
namespace Sproto.Text.Utf8

/-- The octets of a text. -/
def encode (t : Text) : List UInt8 := t.flatMap String.utf8EncodeChar

/-- A character that has begun. -/
structure Pending where
  /-- How many octets are owed after the next one. -/
  owed : Nat
  /-- The bits read so far. -/
  bits : Nat
  /-- The least octet that may come next. -/
  low : Nat
  /-- The greatest octet that may come next. -/
  high : Nat
  deriving DecidableEq, Repr

/-- What the reader makes of one octet: the character begun after it, and what is complete with it, a
character or an error each. -/
abbrev Step := Option Pending × List (Option Char)

/-- An octet between characters. -/
def start (b : UInt8) : Step :=
  let n := b.toNat
  if n < 0x80 then (none, [some (Char.ofNat n)])
  else if 0xC2 ≤ n ∧ n ≤ 0xDF then (some ⟨0, n - 0xC0, 0x80, 0xBF⟩, [])
  else if n = 0xE0 then (some ⟨1, 0, 0xA0, 0xBF⟩, [])
  else if n = 0xED then (some ⟨1, 0xD, 0x80, 0x9F⟩, [])
  else if 0xE1 ≤ n ∧ n ≤ 0xEF then (some ⟨1, n - 0xE0, 0x80, 0xBF⟩, [])
  else if n = 0xF0 then (some ⟨2, 0, 0x90, 0xBF⟩, [])
  else if 0xF1 ≤ n ∧ n ≤ 0xF3 then (some ⟨2, n - 0xF0, 0x80, 0xBF⟩, [])
  else if n = 0xF4 then (some ⟨2, 4, 0x80, 0x8F⟩, [])
  else (none, [none])

/-- One octet. -/
def step (begun : Option Pending) (b : UInt8) : Step :=
  match begun with
  | none => start b
  | some p =>
      if p.low ≤ b.toNat ∧ b.toNat ≤ p.high then
        let bits := p.bits * 64 + (b.toNat - 0x80)
        match p.owed with
        | 0 => (none, [some (Char.ofNat bits)])
        | owed + 1 => (some ⟨owed, bits, 0x80, 0xBF⟩, [])
      else
        let (next, done) := start b
        (next, none :: done)

/-- The characters and errors of a list of octets, after a character that has begun. -/
def read : Option Pending → List UInt8 → List (Option Char)
  | none, [] => []
  | some _, [] => [none]
  | begun, b :: bs => (step begun b).2 ++ read (step begun b).1 bs

/-- The text that octets encode; `none` if they are not UTF-8. -/
def decode? (bs : List UInt8) : Option Text := (read none bs).mapM id

/-- The text that octets encode, with the replacement character for each ill-formed piece. -/
def decodeLenient (bs : List UInt8) : Text := (read none bs).map (·.getD '\uFFFD')

@[simp] theorem encode_nil : encode [] = [] := rfl

@[simp] theorem encode_append (s t : Text) : encode (s ++ t) = encode s ++ encode t := by
  simp [encode]

end Sproto.Text.Utf8
