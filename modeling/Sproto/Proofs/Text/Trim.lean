import Mathlib.Data.List.DropRight
import Mathlib.Data.List.TakeWhile
import Sproto.Text.Basic

/-! # Trimming

How trimming and squeezing act on a text that is put together from parts, and what they leave alone:
the *solid* text, the characters that are not white space, in their order.  Layout may add and drop
white space freely; whatever depends on the solid text alone survives it. -/
namespace Sproto.Text

/-! ## Characters that shapes are read by -/

@[simp] theorem isSpace_hash : isSpace '#' = false := rfl

@[simp] theorem isSpace_openBrace : isSpace '{' = false := rfl

@[simp] theorem isSpace_closeBrace : isSpace '}' = false := rfl

@[simp] theorem isSpace_colon : isSpace ':' = false := rfl

@[simp] theorem isSpace_stop : isSpace '.' = false := rfl

@[simp] theorem isWord_blank : isWord ' ' = false := rfl

@[simp] theorem isWord_hash : isWord '#' = false := rfl

@[simp] theorem isWord_openBrace : isWord '{' = false := rfl

@[simp] theorem isWord_closeBrace : isWord '}' = false := rfl

@[simp] theorem isWord_colon : isWord ':' = false := rfl

@[simp] theorem isWord_stop : isWord '.' = false := rfl

theorem isSpace_eq_false_of_isWord {c : Char} (h : isWord c = true) : isSpace c = false := by
  cases hs : isSpace c with
  | false => rfl
  | true => rw [isWord_eq_false_of_isSpace hs] at h; cases h

theorem isSpace_eq_false_of_isDigit {c : Char} (h : isDigit c = true) : isSpace c = false :=
  isSpace_eq_false_of_isWord (isWord_of_isDigit h)

/-- A character that is no word character differs from every one that is. -/
theorem ne_of_isWord {c d : Char} (hc : isWord c = true) (hd : isWord d = false) : c ≠ d := by
  rintro rfl
  rw [hc] at hd
  cases hd

/-! ## Blank texts -/

@[simp] theorem isBlank_nil : isBlank [] = true := rfl

@[simp] theorem isBlank_append (a b : Text) : isBlank (a ++ b) = (isBlank a && isBlank b) := by
  simp [isBlank]

theorem isBlank_iff {t : Text} : isBlank t = true ↔ ∀ c ∈ t, isSpace c = true := by
  simp [isBlank]

@[simp] theorem isBlank_replicate (n : Nat) : isBlank (List.replicate n ' ') = true := by
  simp [isBlank]

/-! ## Leading white space -/

theorem trimLeft_append_of_isBlank {a : Text} (ha : isBlank a = true) (t : Text) :
    trimLeft (a ++ t) = trimLeft t :=
  List.dropWhile_append_of_pos (isBlank_iff.mp ha)

theorem trimLeft_of_isBlank {a : Text} (ha : isBlank a = true) : trimLeft a = [] :=
  List.dropWhile_eq_nil_iff.mpr (isBlank_iff.mp ha)

theorem trimLeft_cons_of_isSpace {c : Char} (hc : isSpace c = true) (t : Text) :
    trimLeft (c :: t) = trimLeft t := by
  simp [trimLeft, hc]

@[simp] theorem trimLeft_cons_of_not_isSpace {c : Char} (hc : isSpace c = false) (t : Text) :
    trimLeft (c :: t) = c :: t := by
  simp [trimLeft, hc]

/-- A text is its leading white space and the rest. -/
theorem exists_append_trimLeft (t : Text) : ∃ a, isBlank a = true ∧ t = a ++ trimLeft t :=
  ⟨t.takeWhile isSpace, by simp [isBlank], by simp [trimLeft]⟩

theorem isSpace_of_trimLeft_eq_cons {t u : Text} {c : Char} (h : trimLeft t = c :: u) :
    isSpace c = false := by
  have hd := List.head?_dropWhile_not isSpace t
  rw [show t.dropWhile isSpace = c :: u from h] at hd
  simpa using hd

@[simp] theorem trimLeft_trimLeft (t : Text) : trimLeft (trimLeft t) = trimLeft t :=
  List.dropWhile_idempotent isSpace t

theorem trimLeft_eq_nil_iff {t : Text} : trimLeft t = [] ↔ isBlank t = true := by
  rw [isBlank_iff]
  exact List.dropWhile_eq_nil_iff

/-! ## Trailing white space -/

theorem trimRight_eq_rdropWhile (t : Text) : trimRight t = t.rdropWhile isSpace := rfl

theorem trimRight_append_of_isBlank (a : Text) {b : Text} (hb : isBlank b = true) :
    trimRight (a ++ b) = trimRight a := by
  have h : ∀ c ∈ b.reverse, isSpace c = true := fun c hc => isBlank_iff.mp hb c (List.mem_reverse.mp hc)
  simp only [trimRight, dropEndWhile, List.reverse_append]
  rw [List.dropWhile_append_of_pos h]

theorem trimRight_eq_nil_iff {t : Text} : trimRight t = [] ↔ isBlank t = true := by
  rw [isBlank_iff, trimRight_eq_rdropWhile]
  exact List.rdropWhile_eq_nil_iff

/-- Trimming the end of a text stops at any character that is not white space. -/
theorem trimRight_append_cons (a : Text) {c : Char} (hc : isSpace c = false) (b : Text) :
    trimRight (a ++ c :: b) = a ++ c :: trimRight b := by
  simp only [trimRight, dropEndWhile, List.reverse_append, List.reverse_cons, List.append_assoc,
    List.dropWhile_append]
  split
  · next h =>
    have hb : b.reverse.dropWhile isSpace = [] := by simpa using h
    simp [hb, hc]
  · simp

theorem trimRight_cons_of_not_isSpace {c : Char} (hc : isSpace c = false) (t : Text) :
    trimRight (c :: t) = c :: trimRight t := trimRight_append_cons [] hc t

/-- How a text ends is decided by its last part. -/
theorem trimRight_append_of_ne_nil (a : Text) {b : Text} (hne : b ≠ []) (hb : trimRight b = b) :
    trimRight (a ++ b) = a ++ b := by
  rw [trimRight_eq_rdropWhile, List.rdropWhile_eq_self_iff] at hb ⊢
  intro hl
  rw [List.getLast_append_of_ne_nil hl hne]
  exact hb hne

@[simp] theorem trimRight_trimRight (t : Text) : trimRight (trimRight t) = trimRight t :=
  List.rdropWhile_idempotent _ _

/-- A text is its trimmed front and its trailing white space. -/
theorem exists_trimRight_append (t : Text) : ∃ b, isBlank b = true ∧ t = trimRight t ++ b := by
  refine ⟨t.rtakeWhile isSpace, isBlank_iff.mpr fun c hc => List.mem_rtakeWhile_imp hc, ?_⟩
  exact List.rdropWhile_append_rtakeWhile.symm

/-! ## Both ends -/

/-- **It does not matter which end is trimmed first.** -/
theorem trimLeft_trimRight (t : Text) : trimLeft (trimRight t) = trim t := by
  obtain ⟨a, ha, ht⟩ := exists_append_trimLeft t
  cases hu : trimLeft t with
  | nil =>
    have hb : isBlank t = true := trimLeft_eq_nil_iff.mp hu
    rw [trim, hu, trimRight_eq_nil_iff.mpr hb]
    rfl
  | cons c u =>
    have hc := isSpace_of_trimLeft_eq_cons hu
    rw [trim, hu, ht, hu, trimRight_append_cons a hc, trimLeft_append_of_isBlank ha,
      trimRight_cons_of_not_isSpace hc, trimLeft_cons_of_not_isSpace hc]

@[simp] theorem trim_trimLeft (t : Text) : trim (trimLeft t) = trim t := by
  simp [trim]

@[simp] theorem trim_trimRight (t : Text) : trim (trimRight t) = trim t := by
  rw [← trimLeft_trimRight, trimRight_trimRight, trimLeft_trimRight]

@[simp] theorem trimRight_trim (t : Text) : trimRight (trim t) = trim t := by
  rw [trim, trimRight_trimRight]

@[simp] theorem trimLeft_trim (t : Text) : trimLeft (trim t) = trim t := by
  rw [← trimLeft_trimRight, trimLeft_trimLeft]

@[simp] theorem trim_trim (t : Text) : trim (trim t) = trim t := by
  rw [trim, trimLeft_trim, trimRight_trim]

theorem trim_append_of_isBlank_left {a : Text} (ha : isBlank a = true) (t : Text) :
    trim (a ++ t) = trim t := by
  rw [trim, trimLeft_append_of_isBlank ha, trim]

theorem trim_append_of_isBlank_right (t : Text) {b : Text} (hb : isBlank b = true) :
    trim (t ++ b) = trim t := by
  rw [← trimLeft_trimRight, trimRight_append_of_isBlank t hb, trimLeft_trimRight]

theorem trim_eq_nil_iff {t : Text} : trim t = [] ↔ isBlank t = true := by
  rw [← trimLeft_trimRight, trimLeft_eq_nil_iff]
  obtain ⟨b, hb, ht⟩ := exists_trimRight_append t
  constructor
  · intro h
    rw [ht, isBlank_append, h, hb]
    rfl
  · intro h
    rw [trimRight_eq_nil_iff.mpr h]
    rfl

/-- A text without trailing white space is indentation and its trimmed form. -/
theorem exists_append_trim {t : Text} (ht : trimRight t = t) :
    ∃ a, isBlank a = true ∧ t = a ++ trim t := by
  obtain ⟨a, ha, h⟩ := exists_append_trimLeft t
  refine ⟨a, ha, ?_⟩
  rw [← trimLeft_trimRight, ht]
  exact h

theorem not_mem_trim {t : Text} {c : Char} (h : c ∉ t) : c ∉ trim t := by
  obtain ⟨a, -, ha⟩ := exists_append_trimLeft t
  obtain ⟨b, -, hb⟩ := exists_trimRight_append (trimLeft t)
  intro hmem
  refine h ?_
  rw [ha, hb]
  exact List.mem_append_right _ (List.mem_append_left _ hmem)

/-! ## The solid text -/

/-- The characters of a text that are not white space. -/
def solid (t : Text) : Text := t.filter fun c => !isSpace c

@[simp] theorem solid_nil : solid [] = [] := rfl

@[simp] theorem solid_append (a b : Text) : solid (a ++ b) = solid a ++ solid b :=
  List.filter_append ..

@[simp] theorem solid_cons_of_isSpace {c : Char} (hc : isSpace c = true) (t : Text) :
    solid (c :: t) = solid t := by
  simp [solid, hc]

@[simp] theorem solid_cons_of_not_isSpace {c : Char} (hc : isSpace c = false) (t : Text) :
    solid (c :: t) = c :: solid t := by
  simp [solid, hc]

theorem mem_of_mem_solid {c : Char} {t : Text} (h : c ∈ solid t) : c ∈ t := List.mem_of_mem_filter h

theorem solid_of_isBlank {t : Text} (ht : isBlank t = true) : solid t = [] := by
  simp only [solid, List.filter_eq_nil_iff]
  intro c hc
  simp [isBlank_iff.mp ht c hc]

theorem solid_eq_self {t : Text} (ht : ∀ c ∈ t, isSpace c = false) : solid t = t :=
  List.filter_eq_self.mpr fun c hc => by simp [ht c hc]

theorem solid_eq_self_of_isWord {t : Text} (ht : ∀ c ∈ t, isWord c = true) : solid t = t :=
  solid_eq_self fun c hc => isSpace_eq_false_of_isWord (ht c hc)

@[simp] theorem solid_trimLeft (t : Text) : solid (trimLeft t) = solid t := by
  obtain ⟨a, ha, h⟩ := exists_append_trimLeft t
  conv_rhs => rw [h, solid_append, solid_of_isBlank ha, List.nil_append]

@[simp] theorem solid_trimRight (t : Text) : solid (trimRight t) = solid t := by
  obtain ⟨b, hb, h⟩ := exists_trimRight_append t
  conv_rhs => rw [h, solid_append, solid_of_isBlank hb, List.append_nil]

@[simp] theorem solid_trim (t : Text) : solid (trim t) = solid t := by
  rw [trim, solid_trimRight, solid_trimLeft]

/-! ## Squeezing -/

theorem squeeze_cons_of_not_isSpace {c : Char} (hc : isSpace c = false) (t : Text) :
    squeeze (c :: t) = c :: squeeze t := by
  cases t <;> simp [squeeze, hc]

@[simp] theorem solid_squeeze (t : Text) : solid (squeeze t) = solid t := by
  fun_induction squeeze t with
  | case1 => rfl
  | case2 c hc d t hd ih => rw [ih, solid_cons_of_isSpace hc]
  | case3 c hc d t hd ih => rw [solid_cons_of_isSpace hc, solid_cons_of_isSpace rfl, ih]
  | case4 c hc => rw [solid_cons_of_isSpace hc]; rfl
  | case5 c t hc ih =>
    have hc' : isSpace c = false := by simpa using hc
    rw [solid_cons_of_not_isSpace hc', solid_cons_of_not_isSpace hc', ih]

/-- White space in front of a squeezed text is gone once both are trimmed. -/
theorem trimLeft_squeeze (t : Text) : trimLeft (squeeze t) = squeeze (trimLeft t) := by
  fun_induction squeeze t with
  | case1 => rfl
  | case2 c hc d t hd ih => rw [ih, trimLeft_cons_of_isSpace hc]
  | case3 c hc d t hd ih =>
    have hd' : isSpace d = false := by simpa using hd
    rw [trimLeft_cons_of_isSpace isSpace_blank, trimLeft_cons_of_isSpace hc, ih]
  | case4 c hc => simp [trimLeft, hc, squeeze]
  | case5 c t hc ih =>
    have hc' : isSpace c = false := by simpa using hc
    rw [trimLeft_cons_of_not_isSpace hc', trimLeft_cons_of_not_isSpace hc',
      squeeze_cons_of_not_isSpace hc']

/-- **Squeezing twice is squeezing once.** -/
@[simp] theorem squeeze_squeeze (t : Text) : squeeze (squeeze t) = squeeze t := by
  fun_induction squeeze t with
  | case1 => rfl
  | case2 c hc d t hd ih => exact ih
  | case3 c hc d t hd ih =>
    have hd' : isSpace d = false := by simpa using hd
    rw [squeeze_cons_of_not_isSpace hd'] at ih ⊢
    simp only [squeeze, isSpace_blank, hd', ite_true, Bool.false_eq_true, ite_false] at ih ⊢
    rw [ih]
  | case4 c hc => rfl
  | case5 c t hc ih =>
    have hc' : isSpace c = false := by simpa using hc
    rw [squeeze_cons_of_not_isSpace hc', ih]

/-- Past its first character a text ends as it does as a whole. -/
theorem trimRight_tail {c d : Char} {t : Text} (ht : trimRight (c :: d :: t) = c :: d :: t) :
    trimRight (d :: t) = d :: t := by
  rw [trimRight_eq_rdropWhile, List.rdropWhile_eq_self_iff] at ht ⊢
  intro hl
  have h := ht (List.cons_ne_nil _ _)
  rwa [List.getLast_cons hl] at h

/-- A text that does not end in white space does not do so squeezed. -/
theorem trimRight_squeeze {t : Text} (ht : trimRight t = t) : trimRight (squeeze t) = squeeze t := by
  fun_induction squeeze t with
  | case1 => rfl
  | case2 c hc d t hd ih => exact ih (trimRight_tail ht)
  | case3 c hc d t hd ih =>
    have hd' : isSpace d = false := by simpa using hd
    have h := ih (trimRight_tail ht)
    rw [squeeze_cons_of_not_isSpace hd'] at h ⊢
    have hcons := trimRight_append_cons [' '] hd' (squeeze t)
    rw [trimRight_cons_of_not_isSpace hd'] at h
    rw [h] at hcons
    exact hcons
  | case4 c hc =>
    have hnil : trimRight [c] = [] := trimRight_eq_nil_iff.mpr (by simp [isBlank, hc])
    rw [hnil] at ht
    cases ht
  | case5 c t hc ih =>
    have hc' : isSpace c = false := by simpa using hc
    rw [trimRight_cons_of_not_isSpace hc', List.cons.injEq] at ht ⊢
    exact ⟨rfl, ih ht.2⟩

end Sproto.Text
