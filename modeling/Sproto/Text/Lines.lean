import Sproto.Text.Basic

/-! # Lines

A text is cut into lines at its line feeds and nowhere else.  A carriage return at the end of a line
belongs to the line end and is dropped, one per line. -/
namespace Sproto.Text

/-- A line without the carriage return that ends it, if one does. -/
def dropReturn (line : Text) : Text :=
  if line.getLast? = some '\r' then line.dropLast else line

/-- The lines of a text.  There is always one; a text that ends in a line feed has an empty last
line. -/
def lines (t : Text) : List Text := (t.splitOn '\n').map dropReturn

/-- The text whose lines are the given ones, with a line feed between neighbours. -/
def unlines (ls : List Text) : Text := List.intercalate ['\n'] ls

@[simp] theorem dropReturn_nil : dropReturn [] = [] := rfl

@[simp] theorem lines_nil : lines [] = [[]] := rfl

@[simp] theorem unlines_nil : unlines [] = [] := rfl

end Sproto.Text
