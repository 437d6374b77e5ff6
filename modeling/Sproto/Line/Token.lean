import Sproto.Line.Shape
import Sproto.Text.Lines

/-! # Tokens

A token is a line of a document with its index and its shape.  A document is accepted when every
number that its declarations and fields spell can be converted; the first line with one that cannot
decides the fault. -/
namespace Sproto

open Text

/-- A line of a document, numbered from zero. -/
structure Token where
  index : Nat
  text : Text
  shape : Shape
  deriving DecidableEq, Repr

namespace Token

/-- The token of a line. -/
def read (index : Nat) (text : Text) : Token := ⟨index, text, Shape.read text⟩

/-- The fault of a line that spells too long a number. -/
def fault? (t : Token) : Option Fault := t.shape.numeral?.bind Numeral.fault?

/-- The column behind the part of the line that its shape was read from; zero for shapes without
parts. -/
def matchEnd (t : Token) : Nat :=
  match t.shape with
  | .block _ _ rest => t.text.length - rest.length
  | .protocol _ _ rest => t.text.length - rest.length
  | .field _ _ body => t.text.length - (fieldRest body).length
  | _ => 0

/-- The tokens of a list of lines. -/
def ofLines (ls : List Text) : List Token := ls.mapIdx read

/-- The tokens of a list of lines, if none of them has a fault. -/
def ofLines? (ls : List Text) : Except Fault (List Token) :=
  match (ofLines ls).findSome? fault? with
  | some f => .error f
  | none => .ok (ofLines ls)

/-- The tokens of a document. -/
def ofSource? (source : Text) : Except Fault (List Token) := ofLines? (lines source)

@[simp] theorem read_text (i : Nat) (t : Text) : (read i t).text = t := rfl

@[simp] theorem read_index (i : Nat) (t : Text) : (read i t).index = i := rfl

@[simp] theorem read_shape (i : Nat) (t : Text) : (read i t).shape = Shape.read t := rfl

/-- Lines are accepted exactly when no number among them is too long, and then their tokens are
`ofLines`. -/
theorem ofLines?_eq_ok_iff {ls : List Text} {ts : List Token} :
    ofLines? ls = .ok ts ↔ ts = ofLines ls ∧ ∀ t ∈ ofLines ls, t.fault? = none := by
  unfold ofLines?
  split
  · next f h =>
    constructor
    · intro h'; cases h'
    · rintro ⟨-, hall⟩
      obtain ⟨t, ht, hf⟩ := List.exists_of_findSome?_eq_some h
      rw [hall t ht] at hf
      cases hf
  · next h =>
    rw [List.findSome?_eq_none_iff] at h
    constructor
    · intro h'; cases h'; exact ⟨rfl, h⟩
    · rintro ⟨rfl, -⟩; rfl

/-- A line without a fault is accepted by itself. -/
theorem ofLines?_singleton {l : Text} (h : (read 0 l).fault? = none) :
    ofLines? [l] = .ok [read 0 l] := by
  refine ofLines?_eq_ok_iff.mpr ⟨rfl, fun t ht => ?_⟩
  obtain rfl : t = read 0 l := List.mem_singleton.mp ht
  exact h

end Token
end Sproto
