import Sproto.Proofs.Text.Trim

/-! # What readers read

Each reader of `Sproto.Text` takes a part off the front of a text.  For each one this module says
exactly which texts it accepts and how it divides them: the text is the part followed by the rest, and
the rest does not go on with what was read (`Stops`). -/
namespace Sproto.Text

/-- A text does not begin with a character on which `p` holds. -/
def Stops (p : Char → Bool) (t : Text) : Prop := ∀ c, t.head? = some c → p c = false

@[simp] theorem stops_nil (p : Char → Bool) : Stops p [] := fun _ h => by cases h

@[simp] theorem stops_cons {p : Char → Bool} {c : Char} {t : Text} :
    Stops p (c :: t) ↔ p c = false := by
  simp [Stops]

/-- After white space comes something that is no word, be it more white space or the end. -/
theorem Stops.append_of_isBlank {p : Char → Bool} (hp : ∀ c, isSpace c = true → p c = false)
    {g t : Text} (hg : isBlank g = true) (ht : Stops p t) : Stops p (g ++ t) := by
  cases g with
  | nil => exact ht
  | cons c g => exact stops_cons.mpr (hp c (isBlank_iff.mp hg c List.mem_cons_self))

theorem isDigit_eq_false_of_isSpace {c : Char} (h : isSpace c = true) : isDigit c = false := by
  cases hd : isDigit c with
  | false => rfl
  | true => rw [isSpace_eq_false_of_isDigit hd] at h; cases h

/-- Where a character is not white space, reading white space stops. -/
theorem trimLeft_of_stops {t : Text} (ht : Stops isSpace t) : trimLeft t = t := by
  cases t with
  | nil => rfl
  | cons c t => exact trimLeft_cons_of_not_isSpace (stops_cons.mp ht) t

theorem stops_trimLeft (t : Text) : Stops isSpace (trimLeft t) := by
  cases h : trimLeft t with
  | nil => exact stops_nil _
  | cons c u => exact stops_cons.mpr (isSpace_of_trimLeft_eq_cons h)

/-- Trimming the front of a text divides it into white space and a rest without any in front. -/
theorem trimLeft_eq_iff {t r : Text} :
    trimLeft t = r ↔ Stops isSpace r ∧ ∃ a, isBlank a = true ∧ t = a ++ r := by
  constructor
  · rintro rfl
    exact ⟨stops_trimLeft t, exists_append_trimLeft t⟩
  · rintro ⟨hr, a, ha, rfl⟩
    rw [trimLeft_append_of_isBlank ha, trimLeft_of_stops hr]

theorem readChar?_eq_some_iff {c : Char} {t r : Text} : readChar? c t = some r ↔ t = c :: r := by
  cases t with
  | nil => simp [readChar?]
  | cons d t =>
    by_cases h : d = c
    · simp [readChar?, h]
    · simp [readChar?, h]

theorem readChar?_eq_none_iff {c : Char} {t : Text} :
    readChar? c t = none ↔ t.head? ≠ some c := by
  cases t with
  | nil => simp [readChar?]
  | cons d t => simp [readChar?]

/-- Reads a character behind white space. -/
theorem readChar?_trimLeft_eq_some_iff {c : Char} (hc : isSpace c = false) {t r : Text} :
    readChar? c (trimLeft t) = some r ↔ ∃ a, isBlank a = true ∧ t = a ++ c :: r := by
  rw [readChar?_eq_some_iff, trimLeft_eq_iff]
  exact ⟨fun h => h.2, fun h => ⟨stops_cons.mpr hc, h⟩⟩

theorem readGap?_eq_some_iff {t r : Text} :
    readGap? t = some r ↔
      Stops isSpace r ∧ ∃ g, g ≠ [] ∧ isBlank g = true ∧ t = g ++ r := by
  cases t with
  | nil => simp [readGap?]
  | cons c t =>
    by_cases hc : isSpace c = true
    · simp only [readGap?, hc, ite_true, Option.some.injEq, trimLeft_eq_iff]
      constructor
      · rintro ⟨hr, a, ha, rfl⟩
        exact ⟨hr, c :: a, List.cons_ne_nil _ _, by simp_all [isBlank], rfl⟩
      · rintro ⟨hr, g, hg, hb, h⟩
        obtain ⟨d, g, rfl⟩ := List.exists_cons_of_ne_nil hg
        cases h
        exact ⟨hr, g, by simp_all [isBlank], rfl⟩
    · simp only [readGap?, hc, Bool.false_eq_true, ite_false]
      constructor
      · intro h; cases h
      · rintro ⟨-, g, hg, hb, h⟩
        obtain ⟨d, g, rfl⟩ := List.exists_cons_of_ne_nil hg
        cases h
        exact absurd (isBlank_iff.mp hb c List.mem_cons_self) hc

theorem readRun?_eq_some_iff {p : Char → Bool} {t w r : Text} :
    readRun? p t = some (w, r) ↔
      w ≠ [] ∧ (∀ c ∈ w, p c = true) ∧ Stops p r ∧ t = w ++ r := by
  constructor
  · intro h
    have happ := readRun?_append h
    unfold readRun? at h
    split at h
    · cases h
    · next c u hw =>
      cases h
      refine ⟨List.cons_ne_nil _ _, ?_, ?_, happ.symm⟩
      · intro d hd
        rw [← hw] at hd
        exact List.mem_takeWhile_imp hd
      · intro d hd
        have hnot := List.head?_dropWhile_not p t
        rw [hd] at hnot
        simpa using hnot
  · rintro ⟨hw, hp, hr, rfl⟩
    have htake : (w ++ r).takeWhile p = w := by
      rw [List.takeWhile_append_of_pos hp]
      cases r with
      | nil => simp
      | cons c r => simp [stops_cons.mp hr]
    have hdrop : (w ++ r).dropWhile p = r := by
      rw [List.dropWhile_append_of_pos hp]
      cases r with
      | nil => rfl
      | cons c r => simp [stops_cons.mp hr]
    obtain ⟨c, w, rfl⟩ := List.exists_cons_of_ne_nil hw
    rw [readRun?, htake, hdrop]

/-- A word: one or more word characters. -/
def IsName (w : Text) : Prop := w ≠ [] ∧ ∀ c ∈ w, isWord c = true

instance (w : Text) : Decidable (IsName w) :=
  decidable_of_iff (w ≠ [] ∧ w.all isWord = true) (and_congr_right fun _ => List.all_eq_true)

theorem readWord?_eq_some_iff {t w r : Text} :
    readWord? t = some (w, r) ↔ IsName w ∧ Stops isWord r ∧ t = w ++ r := by
  rw [readWord?, readRun?_eq_some_iff, IsName, and_assoc]

theorem isPrefixOf?_eq_some_iff {w t r : Text} : w.isPrefixOf? t = some r ↔ t = w ++ r := by
  rw [List.isPrefixOf?_eq_some_iff_append_eq]
  exact eq_comm

end Sproto.Text
