import Sproto.Banner

/-! # Style

The measures of the canonical layout, and the two kinds of line that depend on all of them: banners
and fields.  A measure may be any integer; a width of zero or less is no width. -/
namespace Sproto

open Text

/-- The measures of a layout. -/
structure Style where
  /-- Blanks per level of indentation. -/
  indent : Int := 4
  /-- The column before which no comment behind a field starts. -/
  commentColumn : Int := 60
  /-- The least number of hash signs on either side of a banner. -/
  bannerHashes : Int := 40
  deriving DecidableEq, Repr

namespace Style

/-- `width` times the character `c`. -/
def fill (c : Char) (width : Int) : Text := List.replicate width.toNat c

/-- The indentation of a level. -/
def margin (s : Style) (level : Int) : Text := fill ' ' (s.indent * level)

/-- The banner with the content of the given line: hash signs on both sides, more of them the shorter
the content is. -/
def banner (s : Style) (line : Text) : Text :=
  let content := Banner.content line
  let side := fill '#' (max s.bannerHashes (50 - content.length))
  side ++ ' ' :: content ++ ' ' :: side

/-- The code of a field's content, and its comment if it has one, each trimmed. -/
def splitComment (content : Text) : Text × Option Text :=
  let c := trim content
  match c.dropWhile (· != '#') with
  | [] => (c, none)
  | comment => (trim (c.takeWhile (· != '#')), some (trim comment))

/-- The line of a field: its parts with one blank between them, and its comment from the comment
column on, with at least two blanks before it. -/
def fieldLine (s : Style) (level : Int) (name number content : Text) : Text :=
  let (code, comment) := splitComment content
  let line := trimRight (s.margin level ++ name ++ ' ' :: number ++ ':' :: ' ' :: code)
  match comment with
  | none => line
  | some comment => line ++ fill ' ' (max 1 (s.commentColumn - line.length)) ++ ' ' :: comment

/-- The line of a comment that stands alone: one blank behind the hash sign. -/
def commentLine (line : Text) : Text :=
  match trim line with
  | [] => []
  | _ :: rest => trimRight ('#' :: ' ' :: trimLeft rest)

@[simp] theorem fill_zero (c : Char) : fill c 0 = [] := rfl

@[simp] theorem fill_natCast (c : Char) (n : Nat) : fill c n = List.replicate n c := rfl

end Style
end Sproto
