import Sproto.Validation.Scan

/-! # Registries of numbers

Validation keeps the entries that have taken a number in a list and looks a number up in it before it
adds the next one.  Which entries there are is said by a predicate `P`, on the lines of a document: a
*registry* up to line `i` holds, in their order, the entries of `P` above line `i` that are the first
ones with their number (`Registry`).  It stays one from line to line (`Registry.succ`, `Registry.add`),
and looking a number up in it finds the first entry with that number (`Registry.taken?_eq_some_iff`). -/
namespace Sproto.Validation

/-- An entry that is the first one with its number. -/
def Earliest (P : Entry → Prop) (e : Entry) : Prop :=
  P e ∧ ∀ e', P e' → e'.number = e.number → e.line ≤ e'.line

/-- An entry whose number `first` has taken on an earlier line. -/
structure Repeats (P : Entry → Prop) (e first : Entry) : Prop where
  entry : P e
  earliest : Earliest P first
  number : first.number = e.number
  lt : first.line < e.line

/-- No line has two entries. -/
def OnePerLine (P : Entry → Prop) : Prop := ∀ e e', P e → P e' → e.line = e'.line → e = e'

/-- The first entries of each number above line `i`, in their order. -/
structure Registry (P : Entry → Prop) (i : Nat) (es : List Entry) : Prop where
  mem_iff : ∀ e, e ∈ es ↔ Earliest P e ∧ e.line < i
  ordered : es.Pairwise fun e e' => e.line < e'.line

variable {P : Entry → Prop} {i : Nat} {es : List Entry} {e first : Entry}

/-- Every number that is used has a first entry. -/
theorem exists_earliest (he : P e) :
    ∃ first, Earliest P first ∧ first.number = e.number ∧ first.line ≤ e.line := by
  induction hn : e.line using Nat.strongRecOn generalizing e with
  | ind n ih =>
    by_cases h : ∃ e', P e' ∧ e'.number = e.number ∧ e'.line < e.line
    · obtain ⟨e', he', hnumber, hlt⟩ := h
      obtain ⟨first, hfirst, hsame, hle⟩ := ih e'.line (by omega) he' rfl
      exact ⟨first, hfirst, hsame.trans hnumber, by omega⟩
    · refine ⟨e, ⟨he, fun e' he' hnumber => ?_⟩, rfl, by omega⟩
      rcases Nat.lt_or_ge e'.line e.line with hlt | hge
      · exact absurd ⟨e', he', hnumber, hlt⟩ h
      · exact hge

theorem Earliest.unique (hP : OnePerLine P) {e' : Entry} (h : Earliest P e) (h' : Earliest P e')
    (hn : e.number = e'.number) : e = e' := by
  have hle := h.2 e' h'.1 hn.symm
  have hge := h'.2 e h.1 hn
  exact hP e e' h.1 h'.1 (by omega)

theorem Repeats.unique (hP : OnePerLine P) {e' first' : Entry} (h : Repeats P e first)
    (h' : Repeats P e' first') (hline : e.line = e'.line) : e = e' ∧ first = first' := by
  obtain rfl := hP e e' h.entry h'.entry hline
  exact ⟨rfl, h.earliest.unique hP h'.earliest (h.number.trans h'.number.symm)⟩

namespace Registry

theorem nil (h : ∀ e, P e → i ≤ e.line) : Registry P i [] := by
  refine ⟨fun e => ⟨fun he => (by cases he), fun he => ?_⟩, .nil⟩
  have hge := h e he.1.1
  omega

theorem nodup (h : Registry P i es) : es.Nodup := by
  refine h.ordered.imp fun {e e'} hlt heq => ?_
  rw [heq] at hlt
  exact Nat.lt_irrefl _ hlt

/-- **A number is looked up with its first entry.** -/
theorem taken?_eq_some_iff (h : Registry P i es) (hP : OnePerLine P) {n : Nat} :
    taken? es n = some first ↔ Earliest P first ∧ first.number = n ∧ first.line < i := by
  have hfound : ∀ {e}, taken? es n = some e → Earliest P e ∧ e.number = n ∧ e.line < i := by
    intro e he
    have hmem := (h.mem_iff e).mp (List.mem_of_find?_eq_some he)
    have hnumber := List.find?_some he
    exact ⟨hmem.1, by simpa using hnumber, hmem.2⟩
  constructor
  · exact hfound
  · rintro ⟨hearly, hnumber, hlt⟩
    have hsome : (taken? es n).isSome = true :=
      List.find?_isSome.mpr ⟨first, (h.mem_iff first).mpr ⟨hearly, hlt⟩, by simpa using hnumber⟩
    obtain ⟨e, he⟩ := Option.isSome_iff_exists.mp hsome
    obtain ⟨hearly', hnumber', -⟩ := hfound he
    rw [he, hearly'.unique hP hearly (hnumber'.trans hnumber.symm)]

/-- A number is free exactly when no entry above has it. -/
theorem taken?_eq_none_iff (h : Registry P i es) {n : Nat} :
    taken? es n = none ↔ ∀ e, P e → e.number = n → i ≤ e.line := by
  rw [taken?, List.find?_eq_none]
  constructor
  · intro hnone e he hnumber
    rcases Nat.lt_or_ge e.line i with hlt | hge
    · obtain ⟨first, hearly, hsame, hle⟩ := exists_earliest he
      have hmem : first ∈ es := (h.mem_iff first).mpr ⟨hearly, by omega⟩
      exact absurd (by simp [hsame, hnumber]) (hnone first hmem)
    · exact hge
  · intro hfree e he hnumber
    obtain ⟨hearly, hlt⟩ := (h.mem_iff e).mp he
    have hge := hfree e hearly.1 (by simpa using hnumber)
    omega

/-- **The number of an entry is taken exactly when the entry repeats it.** -/
theorem taken?_iff_repeats (h : Registry P i es) (hP : OnePerLine P) (he : P e) (hi : e.line = i) :
    taken? es e.number = some first ↔ Repeats P e first := by
  rw [h.taken?_eq_some_iff hP]
  constructor
  · rintro ⟨hearly, hnumber, hlt⟩
    exact ⟨he, hearly, hnumber, by omega⟩
  · intro hrep
    exact ⟨hrep.earliest, hrep.number, hi ▸ hrep.lt⟩

/-- A line without a new number leaves the registry as it is. -/
theorem succ (h : Registry P i es) (hnew : ∀ e, Earliest P e → e.line ≠ i) :
    Registry P (i + 1) es := by
  refine ⟨fun e => ?_, h.ordered⟩
  rw [h.mem_iff]
  constructor
  · rintro ⟨hearly, hlt⟩
    exact ⟨hearly, by omega⟩
  · rintro ⟨hearly, hlt⟩
    have hne := hnew e hearly
    exact ⟨hearly, by omega⟩

/-- A repeated number leaves the registry as it is. -/
theorem succ_of_repeats (h : Registry P i es) (hP : OnePerLine P) (hrep : Repeats P e first)
    (hi : e.line = i) : Registry P (i + 1) es := by
  refine h.succ fun e' hearly hline => ?_
  obtain rfl := hP e' e hearly.1 hrep.entry (by omega)
  exact absurd hrep.lt (Nat.not_lt.mpr (hearly.2 first hrep.earliest.1 hrep.number))

/-- **A new number is added at the end.** -/
theorem add (h : Registry P i es) (hP : OnePerLine P) (he : P e) (hi : e.line = i)
    (hfree : taken? es e.number = none) : Registry P (i + 1) (es ++ [e]) := by
  have hearly : Earliest P e :=
    ⟨he, fun e' he' hnumber => hi ▸ h.taken?_eq_none_iff.mp hfree e' he' hnumber⟩
  constructor
  · intro e'
    rw [List.mem_append, List.mem_singleton, h.mem_iff]
    constructor
    · rintro (⟨hearly', hlt⟩ | rfl)
      · exact ⟨hearly', by omega⟩
      · exact ⟨hearly, by omega⟩
    · rintro ⟨hearly', hlt⟩
      by_cases hline : e'.line = i
      · exact Or.inr (hP e' e hearly'.1 he (by omega))
      · exact Or.inl ⟨hearly', by omega⟩
  · refine List.pairwise_append.mpr ⟨h.ordered, List.pairwise_singleton _ _, ?_⟩
    intro a ha b hb
    rw [List.mem_singleton] at hb
    subst hb
    have hlt := ((h.mem_iff a).mp ha).2
    omega

end Registry
end Sproto.Validation
