import Sproto.Proofs.Validation.Filing

/-! # Module headers

A module header is a line of hash signs with a label (`IsHeading`).  It counts only where it is met
outside any block (`HeaderAt`).  A line stands under the label of the last header above it
(`labelAbove`), and this label is all that validation remembers of the headers it has met
(`label_before`). -/
namespace Sproto

open Text

/-- A line with a label: four or more hash signs in the first column, white space, and the label. -/
def IsHeading (l label : Text) : Prop :=
  ∃ n g r, 4 ≤ n ∧ g ≠ [] ∧ isBlank g = true ∧ IsName label ∧ Stops isWord r ∧
    l = List.replicate n '#' ++ (g ++ (label ++ r))

namespace Validation

/-- Line `i` is a module header with the given label and is met outside any block. -/
def HeaderAt (ls : List Text) (i : Nat) (label : Text) : Prop :=
  ¬ Inside ls i ∧ ∃ l, ls[i]? = some l ∧ IsHeading l label

/-- The label of the module header on line `i`, if there is one outside any block. -/
def headerAt? (ls : List Text) (i : Nat) : Option Text :=
  if Inside ls i then none else ls[i]?.bind Banner.label?

/-- The label of the last module header above line `i`. -/
def labelAbove (ls : List Text) : Nat → Option Text
  | 0 => none
  | i + 1 => (headerAt? ls i).or (labelAbove ls i)

/-- The header on line `j` is the last one above line `i`. -/
structure LastHeader (ls : List Text) (i j : Nat) (label : Text) : Prop where
  header : HeaderAt ls j label
  above : j < i
  last : ∀ j' label', HeaderAt ls j' label' → j' < i → j' ≤ j

variable {ls : List Text} {i : Nat} {l label : Text}

theorem headerAt?_eq_some_iff : headerAt? ls i = some label ↔ HeaderAt ls i label := by
  unfold headerAt? HeaderAt
  split
  · next hin =>
    refine iff_of_false ?_ fun h => h.1 hin
    intro h
    cases h
  · next hout =>
    rw [Option.bind_eq_some_iff]
    constructor
    · rintro ⟨l, hl, hlabel⟩
      exact ⟨hout, l, hl, Banner.label?_eq_some_iff.mp hlabel⟩
    · rintro ⟨-, l, hl, hheading⟩
      exact ⟨l, hl, Banner.label?_eq_some_iff.mpr hheading⟩

theorem headerAt?_eq_none_iff : headerAt? ls i = none ↔ ∀ label, ¬ HeaderAt ls i label := by
  rw [Option.eq_none_iff_forall_ne_some]
  exact forall_congr' fun label => not_congr headerAt?_eq_some_iff

/-- A line has one label at most. -/
theorem HeaderAt.unique {label' : Text} (h : HeaderAt ls i label) (h' : HeaderAt ls i label') :
    label = label' := by
  rw [← headerAt?_eq_some_iff] at h h'
  exact Option.some.inj (h.symm.trans h')

theorem HeaderAt.lt (h : HeaderAt ls i label) : i < ls.length := by
  obtain ⟨-, l, hl, -⟩ := h
  exact (List.getElem?_eq_some_iff.mp hl).1

/-! ## The last header -/

theorem labelAbove_eq_none_iff :
    labelAbove ls i = none ↔ ∀ j label, HeaderAt ls j label → i ≤ j := by
  induction i with
  | zero => exact ⟨fun _ j _ _ => Nat.zero_le j, fun _ => rfl⟩
  | succ i ih =>
    rw [labelAbove, Option.or_eq_none_iff, headerAt?_eq_none_iff, ih]
    constructor
    · rintro ⟨hhere, habove⟩ j label h
      have hle := habove j label h
      have hne : j ≠ i := by
        rintro rfl
        exact hhere label h
      omega
    · intro h
      refine ⟨fun label hhere => ?_, fun j label hj => ?_⟩
      · have hle := h i label hhere
        omega
      · have hle := h j label hj
        omega

/-- **The label above a line is that of the last header above it.** -/
theorem labelAbove_eq_some_iff : labelAbove ls i = some label ↔ ∃ j, LastHeader ls i j label := by
  induction i with
  | zero =>
    refine iff_of_false ?_ ?_
    · intro h
      cases h
    · rintro ⟨j, h⟩
      exact Nat.not_lt_zero j h.above
  | succ i ih =>
    rw [labelAbove, Option.or_eq_some_iff, headerAt?_eq_some_iff, headerAt?_eq_none_iff, ih]
    constructor
    · rintro (h | ⟨hnone, j, h⟩)
      · exact ⟨i, h, Nat.lt_succ_self i, fun j' _ _ hlt => by omega⟩
      · refine ⟨j, h.header, Nat.lt_succ_of_lt h.above, fun j' label' hj' hlt => ?_⟩
        have hne : j' ≠ i := by
          rintro rfl
          exact hnone label' hj'
        exact h.last j' label' hj' (by omega)
    · rintro ⟨j, h⟩
      have hlt := h.above
      by_cases hji : j = i
      · exact Or.inl (hji ▸ h.header)
      · -- a header on line `i` would be a later one
        refine Or.inr ⟨fun label' hi => ?_, j, h.header, by omega, fun j' label' hj' hlt' => ?_⟩
        · have hle := h.last i label' hi (Nat.lt_succ_self i)
          omega
        · exact h.last j' label' hj' (by omega)

/-! ## What validation remembers -/

theorem context_before_eq_top_iff (hls : ∀ l ∈ ls, '\n' ∉ l) (hi : i ≤ ls.length) :
    (State.before ls i).context = .top ↔ ¬ Inside ls i := by
  have hfits := fits_before hls hi
  generalize (State.before ls i).context = c at hfits
  cases hfits with
  | top h => exact iff_of_true rfl h
  | block h => exact iff_of_false (fun hc => by cases hc) fun hout => hout h.inside

theorem headerAt?_eq (hls : ∀ l ∈ ls, '\n' ∉ l) (hl : ls[i]? = some l) :
    headerAt? ls i =
      if (State.before ls i).context = .top then Banner.label? l else none := by
  obtain ⟨hi, -⟩ := List.getElem?_eq_some_iff.mp hl
  have htop := context_before_eq_top_iff hls (Nat.le_of_lt hi)
  unfold headerAt?
  rw [hl, Option.bind_some]
  by_cases hin : Inside ls i
  · rw [if_pos hin, if_neg fun h => htop.mp h hin]
  · rw [if_neg hin, if_pos (htop.mpr hin)]

/-- **Validation remembers the label of the last header above the line it is at.** -/
theorem label_before (hls : ∀ l ∈ ls, '\n' ∉ l) (hi : i ≤ ls.length) :
    (State.before ls i).label = labelAbove ls i := by
  induction i with
  | zero => rfl
  | succ i ih =>
    have hl : ls[i]? = some ls[i] := List.getElem?_eq_getElem hi
    have hgenuine := Token.genuine_read (hls _ (List.getElem_mem hi)) i
    rw [State.before_succ hl, label_step _ hgenuine, labelAbove, headerAt?_eq hls hl,
      ih (by omega), Token.read_text]
    split
    · rfl
    · rw [Option.none_or]

end Validation
end Sproto
