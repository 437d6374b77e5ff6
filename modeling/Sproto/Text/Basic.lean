import Sproto.Text.Letter
import Sproto.Text.Space

/-! # Texts

A text is the list of its characters; columns and lengths count characters.  This module holds
trimming and the small readers from which the shapes of lines are read.  A reader takes what it
recognises off the front and hands back the rest, so the position it has reached is the length of the
text less the length of the rest. -/
namespace Sproto

/-- A text, as the list of its characters. -/
abbrev Text := List Char

namespace Text

/-! ## Character classes

White space and word characters exclude each other, so where one of the two may be repeated and the
other comes next, there is only one place where the repetition can end. -/

/-- The code points of white space. -/
def spaceCodes : List Nat :=
  [9, 10, 11, 12, 13, 28, 29, 30, 31, 32, 0x85, 0xA0, 0x1680, 0x2000, 0x2001, 0x2002, 0x2003, 0x2004,
   0x2005, 0x2006, 0x2007, 0x2008, 0x2009, 0x200A, 0x2028, 0x2029, 0x202F, 0x205F, 0x3000]

theorem toNat_mem_spaceCodes {c : Char} (h : isSpace c = true) : c.toNat ∈ spaceCodes := by
  simp only [isSpace, Bool.or_eq_true, Bool.and_eq_true, decide_eq_true_eq, beq_iff_eq] at h
  simp only [spaceCodes, List.mem_cons, List.not_mem_nil, or_false]
  omega

/-- **No white space stands in a name.** -/
theorem isWord_eq_false_of_isSpace {c : Char} (h : isSpace c = true) : isWord c = false := by
  have all : ∀ n ∈ spaceCodes, isWord (Char.ofNat n) = false := by decide +kernel
  have hc := all _ (toNat_mem_spaceCodes h)
  rwa [Char.ofNat_toNat] at hc

/-! ## Trimming -/

/-- A text without its longest end on which `p` holds throughout. -/
def dropEndWhile (p : Char → Bool) (t : Text) : Text := (t.reverse.dropWhile p).reverse

/-- A text without its leading white space. -/
def trimLeft (t : Text) : Text := t.dropWhile isSpace

/-- A text without its trailing white space. -/
def trimRight (t : Text) : Text := dropEndWhile isSpace t

/-- A text without the white space at both ends. -/
def trim (t : Text) : Text := trimRight (trimLeft t)

/-- A text in which every run of white space is one blank. -/
def squeeze : Text → Text
  | [] => []
  | c :: t =>
      if isSpace c then
        match t with
        | d :: _ => if isSpace d then squeeze t else ' ' :: squeeze t
        | [] => [' ']
      else c :: squeeze t

@[simp] theorem dropEndWhile_nil (p : Char → Bool) : dropEndWhile p [] = [] := rfl

@[simp] theorem trimLeft_nil : trimLeft [] = [] := rfl

@[simp] theorem trimRight_nil : trimRight [] = [] := rfl

@[simp] theorem trim_nil : trim [] = [] := rfl

/-! ## Readers -/

/-- Reads the character `c`. -/
def readChar? (c : Char) : Text → Option Text
  | [] => none
  | d :: t => if d = c then some t else none

/-- Reads at least one white space character, and all that follow. -/
def readGap? : Text → Option Text
  | [] => none
  | c :: t => if isSpace c then some (trimLeft t) else none

/-- Reads the longest run of characters on which `p` holds, which must not be empty. -/
def readRun? (p : Char → Bool) (t : Text) : Option (Text × Text) :=
  match t.takeWhile p with
  | [] => none
  | c :: w => some (c :: w, t.dropWhile p)

/-- Reads a word: one or more word characters, as many as there are. -/
def readWord? (t : Text) : Option (Text × Text) := readRun? isWord t

/-- Whether a text has only white space. -/
def isBlank (t : Text) : Bool := t.all isSpace

@[simp] theorem readChar?_cons_self (c : Char) (t : Text) : readChar? c (c :: t) = some t := by
  simp [readChar?]

/-- What a run reader reads and what it leaves make up the text. -/
theorem readRun?_append {p : Char → Bool} {t w r : Text} (h : readRun? p t = some (w, r)) :
    w ++ r = t := by
  unfold readRun? at h
  split at h
  · cases h
  · next c u hw =>
    cases h
    rw [← hw, List.takeWhile_append_dropWhile]

end Text
end Sproto
