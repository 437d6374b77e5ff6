import Sproto.Fault
import Sproto.Json

/-! # Names of documents

Documents are named by texts.  A command may also be given a number, or the truth value true, which
counts as the number one.  No document has such a name, but it is a name: it can be tracked, and of two
that count as the same number the one that came first is kept.  Lists and records are no names.

The tracked names have no order of their own.  Whoever goes through them meets them in some order, and
which one is left open (`Walk`). -/
namespace Sproto

/-- A name that is no text. -/
inductive NumberName where
  | int (n : Int)
  | frac (q : Rat)
  | yes
  deriving DecidableEq, Repr

/-- What a command may name a document by. -/
inductive Name where
  | text (uri : String)
  | number (n : NumberName)
  deriving DecidableEq, Repr

/-- The number that a name counts as. -/
def NumberName.value : NumberName → Rat
  | int n => n
  | frac q => q
  | yes => 1

namespace Name

/-- The name that a command's argument gives. -/
def ofJson? : Json → Except Fault Name
  | .str s => .ok (.text s)
  | .int n => .ok (.number (.int n))
  | .frac q => .ok (.number (.frac q))
  | .bool true => .ok (.number .yes)
  | .arr _ => .error .listAsName
  | .obj _ => .error .recordAsName
  | _ => .error .notText

/-- The texts among names up to the first number: what is done for one name after another gets so far,
if it cannot be done for a number. -/
def leadingTexts : List Name → List String
  | text uri :: names => uri :: leadingTexts names
  | _ => []

end Name

/-- An order in which names are gone through. -/
structure Walk where
  order : List Name → List Name
  perm : ∀ names, (order names).Perm names

namespace Walk

/-- The order in which names are listed. -/
def asListed : Walk := ⟨id, .refl⟩

/-- The order from the last name that is listed to the first. -/
def backwards : Walk := ⟨List.reverse, List.reverse_perm⟩

end Walk
end Sproto
