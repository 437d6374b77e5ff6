import Sproto.Proofs.Layout.Alike
import Sproto.Validation.Field

/-! # Field lines

A field line is a name, a number, a colon and the beginning of a type, with white space between them
(`IsFieldLine`).  Validation recognises exactly these lines as fields (`isFieldLine_iff`), and the name
and the number are determined by the line (`IsFieldLine.unique`). -/
namespace Sproto

open Text

/-- What a type begins with: a word, an asterisk and a word, or something in parentheses. -/
inductive IsTypeStart : Text → Prop
  | word {w : Text} (hw : IsName w) : IsTypeStart w
  | array {g w : Text} (hg : isBlank g = true) (hw : IsName w) : IsTypeStart ('*' :: (g ++ w))
  | parentheses (u : Text) : IsTypeStart ('(' :: (u ++ [')']))

/-- A line that begins with a name, a number, a colon and a type. -/
def IsFieldLine (l name : Text) (n : Numeral) : Prop :=
  IsName name ∧ n.Spelled ∧
    ∃ a g b w type rest, isBlank a = true ∧ g ≠ [] ∧ isBlank g = true ∧ isBlank b = true ∧
      isBlank w = true ∧ IsTypeStart type ∧
      l = a ++ (name ++ (g ++ (n.digits ++ (b ++ ':' :: (w ++ (type ++ rest))))))

/-! ## Types -/

theorem startsWord_iff {t : Text} : startsWord t = true ↔ ∃ w r, IsName w ∧ t = w ++ r := by
  constructor
  · intro h
    cases t with
    | nil => cases h
    | cons c t => exact ⟨[c], t, ⟨List.cons_ne_nil _ _, by simpa [startsWord] using h⟩, rfl⟩
  · rintro ⟨w, r, hw, rfl⟩
    obtain ⟨c, w, rfl⟩ := List.exists_cons_of_ne_nil hw.1
    simpa [startsWord] using hw.2 c List.mem_cons_self

theorem startsType_of_isTypeStart {type : Text} (h : IsTypeStart type) (rest : Text) :
    startsType (type ++ rest) = true := by
  cases h with
  | word hw =>
    obtain ⟨c, w, rfl⟩ := List.exists_cons_of_ne_nil hw.1
    have hc := hw.2 c List.mem_cons_self
    have hopen : c ≠ '(' := ne_of_isWord hc rfl
    have hstar : c ≠ '*' := ne_of_isWord hc rfl
    rw [List.cons_append, startsType, if_neg hopen, if_neg hstar, hc]
  | @array g w hg hw =>
    have hword : startsWord (trimLeft (g ++ w ++ rest)) = true := by
      rw [List.append_assoc, trimLeft_append_of_isBlank hg,
        trimLeft_of_stops (Shape.stops_isSpace_of_isName hw)]
      exact startsWord_iff.mpr ⟨w, rest, hw, rfl⟩
    simpa [startsType] using hword
  | parentheses u => simp [startsType]

/-- **A text begins with a type exactly when it is read so.** -/
theorem startsType_iff {t : Text} :
    startsType t = true ↔ ∃ type rest, IsTypeStart type ∧ t = type ++ rest := by
  constructor
  · intro h
    cases t with
    | nil => cases h
    | cons c t =>
      rw [startsType] at h
      split at h
      · next hc =>
        -- everything up to the first closing parenthesis is the type
        obtain ⟨u, r, rfl⟩ := List.append_of_mem (List.contains_iff_mem.mp h)
        exact ⟨'(' :: (u ++ [')']), r, .parentheses u, by simp [hc]⟩
      · split at h
        · next hc =>
          obtain ⟨w, r, hw, ht⟩ := startsWord_iff.mp h
          obtain ⟨g, hg, hsplit⟩ := exists_append_trimLeft t
          exact ⟨'*' :: (g ++ w), r, .array hg hw, by rw [hc, hsplit, ht]; simp⟩
        · exact ⟨[c], t, .word ⟨List.cons_ne_nil _ _, by simpa using h⟩, rfl⟩
  · rintro ⟨type, rest, htype, rfl⟩
    exact startsType_of_isTypeStart htype rest

theorem stops_isSpace_of_isTypeStart {type : Text} (h : IsTypeStart type) (rest : Text) :
    Stops isSpace (type ++ rest) := by
  cases h with
  | word hw => exact Shape.stops_isSpace_of_isName hw
  | array hg hw => exact stops_cons.mpr rfl
  | parentheses u => exact stops_cons.mpr rfl

/-! ## Lines -/

/-- **Validation takes exactly the field lines for fields.** -/
theorem isFieldLine_iff {l name : Text} {n : Numeral} (hl : '\n' ∉ l) :
    IsFieldLine l name n ↔
      ∃ body, Shape.read l = .field name n body ∧ startsType (fieldContent body) = true := by
  constructor
  · rintro ⟨hname, hn, a, g, b, w, type, rest, ha, hne, hg, hb, hw, htype, rfl⟩
    have hfield : Shape.field? (a ++ (name ++ (g ++ (n.digits ++ (b ++ ':' :: (w ++ (type ++ rest))))))) =
        some (.field name n (w ++ (type ++ rest))) :=
      Shape.field?_eq_some_iff.mpr ⟨hname, hn, a, g, b, ha, hne, hg, hb, rfl⟩
    have hfeed : '\n' ∉ w ++ (type ++ rest) := fun h => hl (by simp [h])
    refine ⟨_, Shape.Reads.read_eq (.field hfield), ?_⟩
    rw [Shape.fieldContent_eq hfeed, trimLeft_append_of_isBlank hw,
      trimLeft_of_stops (stops_isSpace_of_isTypeStart htype rest)]
    exact startsType_of_isTypeStart htype rest
  · rintro ⟨body, hread, htype⟩
    cases Shape.read_eq_iff.mp hread with
    | field hf =>
      obtain ⟨hname, hn, a, g, b, ha, hne, hg, hb, rfl⟩ := Shape.field?_eq_some_iff.mp hf
      have hfeed : '\n' ∉ body := fun h => hl (by simp [h])
      obtain ⟨w, hw, hbody⟩ := exists_append_trimLeft body
      rw [Shape.fieldContent_eq hfeed] at htype
      obtain ⟨type, rest, hstart, ht⟩ := startsType_iff.mp htype
      rw [ht] at hbody
      exact ⟨hname, hn, a, g, b, w, type, rest, ha, hne, hg, hb, hw, hstart, by rw [hbody]⟩

/-- A field line stays one, whatever follows it. -/
theorem IsFieldLine.append {l name : Text} {n : Numeral} (h : IsFieldLine l name n) (t : Text) :
    IsFieldLine (l ++ t) name n := by
  obtain ⟨hname, hn, a, g, b, w, type, rest, ha, hne, hg, hb, hw, htype, rfl⟩ := h
  refine ⟨hname, hn, a, g, b, w, type, rest ++ t, ha, hne, hg, hb, hw, htype, ?_⟩
  simp only [List.append_assoc, List.cons_append]

/-- A line has one name and one number at most. -/
theorem IsFieldLine.unique {l name name' : Text} {n n' : Numeral} (hl : '\n' ∉ l)
    (h : IsFieldLine l name n) (h' : IsFieldLine l name' n') : name = name' ∧ n = n' := by
  obtain ⟨body, hread, -⟩ := (isFieldLine_iff hl).mp h
  obtain ⟨body', hread', -⟩ := (isFieldLine_iff hl).mp h'
  rw [hread] at hread'
  cases hread'
  exact ⟨rfl, rfl⟩

end Sproto
