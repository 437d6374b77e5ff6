import Sproto.Text.Basic

/-! # Comments and braces within a line

A hash sign starts a comment that runs to the end of the line.  Nesting is counted by the braces that
stand before it. -/
namespace Sproto

/-- The part of a line before its comment. -/
def beforeComment (t : Text) : Text := t.takeWhile (· != '#')

/-- How many more braces a line opens than it closes, comments aside. -/
def braceBalance (t : Text) : Int := ((beforeComment t).count '{' : Int) - (beforeComment t).count '}'

@[simp] theorem beforeComment_nil : beforeComment [] = [] := rfl

@[simp] theorem braceBalance_nil : braceBalance [] = 0 := rfl

end Sproto
