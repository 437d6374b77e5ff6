import Sproto.Text.Basic

/-! # Full-width punctuation

Punctuation that an input method for Chinese or Japanese produces looks like ASCII punctuation and
means nothing in a schema.  The table gives, for each such mark, the ASCII text that was meant. -/
namespace Sproto.Punctuation

/-- The marks and what they stand for.  Where several marks could be meant, the first one in the
table counts. -/
def table : List (Char × Text) :=
  [('，', [',']), ('。', ['.']), ('；', [';']), ('：', [':']), ('？', ['?']), ('！', ['!']),
   ('、', [',']), ('「', ['"']), ('」', ['"']), ('『', ['\x27']), ('』', ['\x27']), ('（', ['(']),
   ('）', [')']), ('【', ['[']), ('】', [']']), ('｛', ['{']), ('｝', ['}']), ('《', ['<']),
   ('》', ['>']), ('…', ['.', '.', '.']), ('—', ['-']), ('～', ['~'])]

/-- The ASCII text that a mark stands for; `none` for a character that is no mark. -/
def replacement? (c : Char) : Option Text := table.lookup c

/-- The marks in a text from column `start` on: each one's column, itself and its replacement. -/
def marksFrom (start : Nat) : Text → List (Nat × Char × Text)
  | [] => []
  | c :: t =>
      match replacement? c with
      | some r => (start, c, r) :: marksFrom (start + 1) t
      | none => marksFrom (start + 1) t

/-- The marks in a text, from left to right. -/
def marks (t : Text) : List (Nat × Char × Text) := marksFrom 0 t

/-- Whether a text holds a character between single quotes. -/
def quotes (c : Char) : Text → Bool
  | [] => false
  | d :: t => ['\x27', c, '\x27'].isPrefixOf (d :: t) || quotes c t

/-- The first mark of the table that a message quotes. -/
def quotedIn? (message : Text) : Option Char :=
  (table.find? fun (c, _) => quotes c message).map Prod.fst

@[simp] theorem marksFrom_nil (n : Nat) : marksFrom n [] = [] := rfl

@[simp] theorem marks_nil : marks [] = [] := rfl

end Sproto.Punctuation
