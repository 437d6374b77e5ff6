/-! # White space

The white space of schema texts: the horizontal and vertical layout controls, the information
separators, and the Unicode spaces.  Lines are trimmed by it, and between the parts of a declaration
any run of it may stand.  A zero-width space, a byte order mark and a word joiner are not in it. -/
namespace Sproto.Text

/-- Whether a character is white space. -/
def isSpace (c : Char) : Bool :=
  let n := c.toNat
  (9 ≤ n && n ≤ 13) || (28 ≤ n && n ≤ 32) || n == 0x85 || n == 0xA0 || n == 0x1680 ||
    (0x2000 ≤ n && n ≤ 0x200A) || n == 0x2028 || n == 0x2029 || n == 0x202F || n == 0x205F ||
    n == 0x3000

@[simp] theorem isSpace_blank : isSpace ' ' = true := rfl

@[simp] theorem isSpace_lineFeed : isSpace '\n' = true := rfl

@[simp] theorem isSpace_carriageReturn : isSpace '\r' = true := rfl

end Sproto.Text
