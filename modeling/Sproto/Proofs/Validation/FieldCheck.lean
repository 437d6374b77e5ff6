import Sproto.Proofs.Validation.Step

/-! # The check of a line inside a block

A line of a block carries nothing, or is a field line, or is malformed (`IsMalformed`).  What is found
on it and which number it takes is said here for each of the three, and `step_of_inside` puts it into
the step over the line. -/
namespace Sproto

open Text

/-- A line that is found fault with inside a block: it carries something and is no field line. -/
def IsMalformed (l : Text) : Prop :=
  isSkipped (Shape.read l) l = false ∧ ∀ name n, ¬ IsFieldLine l name n

namespace Validation

variable {k : BlockKind} {fields : List Entry} {i : Nat} {l : Text}

theorem checkField_of_isSkipped (h : isSkipped (Shape.read l) l = true) :
    checkField k fields (Token.read i l) = (fields, []) := by
  rw [checkField, Token.read_shape, Token.read_text, if_pos h]

/-- A field line takes its number if it is free. -/
theorem checkField_of_free (hl : '\n' ∉ l) {name : Text} {n : Numeral} (h : IsFieldLine l name n)
    (hfree : taken? fields n.value = none) :
    checkField k fields (Token.read i l) = (fields ++ [⟨name, n.value, i⟩], []) := by
  obtain ⟨body, hread, htype⟩ := (isFieldLine_iff hl).mp h
  have hskip : isSkipped (.field name n body) l = false :=
    hread ▸ isSkipped_field (Token.genuine_read hl i) hread
  simp only [checkField, Token.read_shape, Token.read_text, Token.read_index, hread, hskip,
    Bool.false_eq_true, if_false, htype, if_true, hfree]

/-- A field line whose number is taken is reported. -/
theorem checkField_of_taken (hl : '\n' ∉ l) {name : Text} {n : Numeral} (h : IsFieldLine l name n)
    {first : Entry} (htaken : taken? fields n.value = some first) :
    ∃ start stop, checkField k fields (Token.read i l) =
      (fields, [⟨i, start, stop, .repeatedField n.value k first⟩]) := by
  obtain ⟨body, hread, htype⟩ := (isFieldLine_iff hl).mp h
  have hskip : isSkipped (.field name n body) l = false :=
    hread ▸ isSkipped_field (Token.genuine_read hl i) hread
  refine ⟨l.length - (trimLeft l).length + name.length, l.length - body.length, ?_⟩
  simp only [checkField, Token.read_shape, Token.read_text, Token.read_index, hread, hskip,
    Bool.false_eq_true, if_false, htype, if_true, htaken]

/-- A malformed line is reported. -/
theorem checkField_of_isMalformed (hl : '\n' ∉ l) (h : IsMalformed l) :
    checkField k fields (Token.read i l) = (fields, [checkField.faultOf (Token.read i l)]) := by
  unfold checkField
  rw [Token.read_shape, Token.read_text, h.1]
  cases hread : Shape.read l with
  | field name n body =>
    have htype : startsType (fieldContent body) = false := by
      rw [Bool.eq_false_iff]
      exact fun htype => h.2 name n ((isFieldLine_iff hl).mpr ⟨body, hread, htype⟩)
    simp [htype]
  | _ => rfl

/-- The step over a line of a block that does not end it. -/
theorem step_of_inside {s : State} {t : Token} (hs : s.context = .block k fields)
    (hclose : t.shape ≠ .closeBrace) :
    s.step t = ({ s with context := .block k (checkField k fields t).1 },
      punctuationFindings t ++ (checkField k fields t).2) := by
  simp only [State.step, hs, if_neg hclose]

end Validation
end Sproto
