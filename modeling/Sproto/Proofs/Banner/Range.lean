import Mathlib.Data.Nat.Find
import Sproto.Proofs.Banner
import Sproto.Proofs.Line.Decomposition

/-! # The range that a line announces

A trimmed line announces a range if it can be taken apart as one: hash signs, anything, the word
`Module`, two numbers with a hyphen between them, four hash signs and anything (`RangeParts`).  A line may
be taken apart in many ways, since the word may stand in it more than once and anything may stand before
it.  The ways are told apart by the column of the word; those with the word furthest to the left are first
(`RangeParts.IsFirst`).

The readers know nothing of such ways.  They take off all hash signs and the white space behind them, and
from there on try one column after the other.  No word begins in what was taken off, so the columns may as
well be tried from the start of the line (`range?_eq_some_iff`), and the first column where a range is read
is that of the first way (`range?_eq_of_isFirst`). -/
namespace Sproto.Banner

open Text

/-! ## The search -/

/-- The search finds what is read in the first column where something is read. -/
theorem searchRange?_eq_some_iff {t : Text} (feed : '\n' ∉ t) {r : Numeral × Numeral} :
    searchRange? t = some r ↔
      ∃ k, rangeAt? (t.drop k) = some r ∧ ∀ j < k, rangeAt? (t.drop j) = none := by
  induction t with
  | nil =>
    have hnone : rangeAt? [] = none := rfl
    simp [searchRange?, hnone]
  | cons c t ih =>
    rw [List.mem_cons, not_or] at feed
    specialize ih feed.2
    -- what is read in the first column counts; otherwise all columns are one further on
    cases hat : rangeAt? (c :: t) with
    | some r' =>
      rw [searchRange?_cons_of_some hat, ← hat]
      constructor
      · intro h
        exact ⟨0, h, fun j hj => absurd hj (Nat.not_lt_zero j)⟩
      · rintro ⟨k, hk, hbefore⟩
        cases k with
        | zero => exact hk
        | succ k =>
          have hfirst := hbefore 0 (Nat.succ_pos k)
          rw [List.drop_zero, hat] at hfirst
          cases hfirst
    | none =>
      rw [searchRange?, hat]
      simp only [if_neg (Ne.symm feed.1), ih]
      constructor
      · rintro ⟨k, hk, hbefore⟩
        refine ⟨k + 1, hk, fun j hj => ?_⟩
        cases j with
        | zero => exact hat
        | succ j => exact hbefore j (Nat.lt_of_succ_lt_succ hj)
      · rintro ⟨k, hk, hbefore⟩
        cases k with
        | zero =>
          rw [List.drop_zero, hat] at hk
          cases hk
        | succ k => exact ⟨k, hk, fun j hj => hbefore (j + 1) (Nat.succ_lt_succ hj)⟩

/-- The search passes over a front without the first letter of the word. -/
theorem searchRange?_append {a : Text} (ha : ∀ c ∈ a, c ≠ 'M' ∧ c ≠ '\n') (t : Text) :
    searchRange? (a ++ t) = searchRange? t := by
  induction a with
  | nil => rfl
  | cons c a ih =>
    obtain ⟨hc, hfeed⟩ := ha c List.mem_cons_self
    rw [List.cons_append, searchRange?_cons_of_ne hc hfeed,
      ih fun d hd => ha d (List.mem_cons_of_mem _ hd)]

/-- The hash signs in front of a text and the white space behind them may as well be searched. -/
theorem searchRange?_eq_of_readHashes? {t u : Text} (feed : '\n' ∉ t) (h : readHashes? t = some u) :
    searchRange? t = searchRange? (trimLeft u) := by
  obtain ⟨-, n, -, ht⟩ := readHashes?_eq_some_iff.mp h
  obtain ⟨g, hg, hgap⟩ := exists_append_trimLeft u
  rw [hgap, ← List.append_assoc] at ht
  rw [ht] at feed ⊢
  refine searchRange?_append (fun c hc => ⟨?_, ?_⟩) (trimLeft u)
  · rcases List.mem_append.mp hc with hhash | hspace
    · rw [List.eq_of_mem_replicate hhash]
      decide
    · rintro rfl
      cases isBlank_iff.mp hg _ hspace
  · rintro rfl
    exact feed (List.mem_append_left _ hc)

/-- **A range is searched for in the whole of a trimmed line that begins with four hash signs.** -/
theorem range?_eq_some_iff {line : Text} (feed : '\n' ∉ line) {r : Numeral × Numeral} :
    range? line = some r ↔
      (∃ u, trim line = List.replicate 4 '#' ++ u) ∧ searchRange? (trim line) = some r := by
  constructor
  · intro h
    obtain ⟨u, hu, hsearch⟩ := Option.bind_eq_some_iff.mp h
    obtain ⟨-, n, hn, ht⟩ := readHashes?_eq_some_iff.mp hu
    obtain ⟨m, rfl⟩ := Nat.exists_eq_add_of_le hn
    rw [List.replicate_add, List.append_assoc] at ht
    exact ⟨⟨_, ht⟩, (searchRange?_eq_of_readHashes? (not_mem_trim feed) hu).trans hsearch⟩
  · rintro ⟨⟨u, hu⟩, hsearch⟩
    have hread : readHashes? (trim line) = some ((trim line).dropWhile isHash) := by
      rw [readHashes?, if_pos]
      rw [hu]
      exact takeWhile_isHash_replicate 4 u
    rw [searchRange?_eq_of_readHashes? (not_mem_trim feed) hread] at hsearch
    exact Option.bind_eq_some_iff.mpr ⟨_, hread, hsearch⟩

/-! ## Taking a line apart -/

/-- A trimmed line taken apart as the announcement of a range: four or more hash signs, anything, the word
`Module`, a number, a hyphen, a number, four hash signs and anything, with white space or none between the
word, the numbers, the hyphen and the hash signs behind them. -/
structure RangeParts (t : Text) where
  hashes : Nat
  before : Text
  gap : Text
  low : Numeral
  beforeHyphen : Text
  afterHyphen : Text
  high : Numeral
  tail : Text
  rest : Text
  four_le_hashes : 4 ≤ hashes
  blank_gap : isBlank gap = true
  spelled_low : low.Spelled
  blank_beforeHyphen : isBlank beforeHyphen = true
  blank_afterHyphen : isBlank afterHyphen = true
  spelled_high : high.Spelled
  blank_tail : isBlank tail = true
  text_eq : t = List.replicate hashes '#' ++ (before ++ ("Module".toList ++ (gap ++ (low.digits ++
    (beforeHyphen ++ '-' :: (afterHyphen ++ (high.digits ++ (tail ++
      (List.replicate 4 '#' ++ rest)))))))))

namespace RangeParts

variable {t line : Text}

/-- The column of the word `Module`. -/
def column (p : RangeParts t) : Nat := p.hashes + p.before.length

/-- No way to take the line apart has its word further to the left. -/
def IsFirst (p : RangeParts t) : Prop := ∀ q : RangeParts t, p.column ≤ q.column

/-- Both numbers can be converted. -/
def Convertible (p : RangeParts t) : Prop :=
  p.low.digits.length ≤ Fault.maxDigits ∧ p.high.digits.length ≤ Fault.maxDigits

theorem exists_isFirst (h : Nonempty (RangeParts t)) : ∃ p : RangeParts t, p.IsFirst := by
  classical
  have hcolumn : ∃ k, ∃ p : RangeParts t, p.column = k := h.elim fun p => ⟨p.column, p, rfl⟩
  obtain ⟨p, hp⟩ := Nat.find_spec hcolumn
  refine ⟨p, fun q => ?_⟩
  rw [hp]
  exact Nat.find_min' hcolumn ⟨q, rfl⟩

/-- The range is read where the word begins. -/
theorem rangeAt?_drop_column (p : RangeParts t) : rangeAt? (t.drop p.column) = some (p.low, p.high) := by
  have hlength : (List.replicate p.hashes '#' ++ p.before).length = p.column := by
    rw [List.length_append, List.length_replicate, column]
  refine rangeAt?_eq_some_iff.mpr ⟨p.spelled_low, p.spelled_high, p.gap, p.beforeHyphen, p.afterHyphen,
    p.tail, p.rest, p.blank_gap, p.blank_beforeHyphen, p.blank_afterHyphen, p.blank_tail, ?_⟩
  have htext := p.text_eq
  rw [← List.append_assoc] at htext
  exact (congrArg (List.drop p.column) htext).trans (List.drop_left' hlength)

/-- Where a range is read behind four hash signs, the line can be taken apart. -/
theorem exists_of_rangeAt? {u : Text} (ht : t = List.replicate 4 '#' ++ u) {k : Nat}
    {low high : Numeral} (h : rangeAt? (t.drop k) = some (low, high)) :
    ∃ p : RangeParts t, p.column = k := by
  obtain ⟨hl, hh, g, a, b, e, r, hg, ha, hb, he, hdrop⟩ := rangeAt?_eq_some_iff.mp h
  -- the word does not begin with a hash sign
  have hk : 4 ≤ k := by
    by_contra hlt
    have hhead : (t.drop k).head? = some '#' := by
      rw [List.head?_drop, ht, List.getElem?_append_left (by simpa using hlt),
        List.getElem?_replicate_of_lt (by omega)]
    rw [hdrop, toList_module] at hhead
    exact absurd (Option.some.inj hhead) (by decide)
  have htake : t.take k = List.replicate 4 '#' ++ u.take (k - 4) := by
    rw [ht, List.take_append, List.length_replicate, List.take_of_length_le (by simpa using hk)]
  have htext := (List.take_append_drop k t).symm
  rw [htake, hdrop, List.append_assoc] at htext
  refine ⟨⟨4, u.take (k - 4), g, low, a, b, high, e, r, Nat.le_refl 4, hg, hl, ha, hb, hh, he, htext⟩,
    ?_⟩
  have hle : k < t.length := by
    by_contra hlt
    rw [List.drop_eq_nil_of_le (by omega), toList_module] at hdrop
    cases hdrop
  have hlength := congrArg List.length ht
  rw [List.length_append, List.length_replicate] at hlength
  show 4 + (u.take (k - 4)).length = k
  rw [List.length_take]
  omega

/-- **The first way to take a line apart decides the range that is read.** -/
theorem range?_eq_of_isFirst (feed : '\n' ∉ line) {p : RangeParts (trim line)} (hp : p.IsFirst) :
    range? line = some (p.low, p.high) := by
  obtain ⟨m, hm⟩ := Nat.exists_eq_add_of_le p.four_le_hashes
  have ht := p.text_eq
  rw [hm, List.replicate_add, List.append_assoc] at ht
  refine (range?_eq_some_iff feed).mpr ⟨⟨_, ht⟩, (searchRange?_eq_some_iff (not_mem_trim feed)).mpr
    ⟨p.column, p.rangeAt?_drop_column, fun j hj => ?_⟩⟩
  by_contra hsome
  obtain ⟨⟨low, high⟩, hread⟩ := Option.ne_none_iff_exists'.mp hsome
  obtain ⟨q, hq⟩ := exists_of_rangeAt? ht hread
  exact absurd (hp q) (by omega)

theorem nonempty_of_range? (feed : '\n' ∉ line) {r : Numeral × Numeral} (h : range? line = some r) :
    Nonempty (RangeParts (trim line)) := by
  obtain ⟨⟨u, hu⟩, hsearch⟩ := (range?_eq_some_iff feed).mp h
  obtain ⟨k, hread, -⟩ := (searchRange?_eq_some_iff (not_mem_trim feed)).mp hsearch
  obtain ⟨p, -⟩ := exists_of_rangeAt? hu hread
  exact ⟨p⟩

theorem isEmpty_iff (feed : '\n' ∉ line) : IsEmpty (RangeParts (trim line)) ↔ range? line = none :=
  isEmpty_iff_eq_none (fun _ => nonempty_of_range? feed) fun p => by
    obtain ⟨q, hq⟩ := exists_isFirst ⟨p⟩
    exact ⟨_, range?_eq_of_isFirst feed hq⟩

theorem length_digits_le (p : RangeParts t) :
    p.low.digits.length ≤ t.length ∧ p.high.digits.length ≤ t.length := by
  have hlength := congrArg List.length p.text_eq
  simp only [List.length_append, List.length_cons] at hlength
  omega

/-- The first way to take a line apart gives the values of its numbers. -/
theorem rangeValue?_eq_of_isFirst (feed : '\n' ∉ line) {p : RangeParts (trim line)} (hp : p.IsFirst)
    (h : p.Convertible) : rangeValue? line = .ok (some (p.low.value, p.high.value)) := by
  rw [rangeValue?, range?_eq_of_isFirst feed hp]
  simp only [(Numeral.fault?_eq_none_iff _).mpr h.1, (Numeral.fault?_eq_none_iff _).mpr h.2]

/-- A number of the first way that is too long is refused. -/
theorem exists_fault_of_isFirst (feed : '\n' ∉ line) {p : RangeParts (trim line)} (hp : p.IsFirst)
    (h : ¬ p.Convertible) :
    ∃ n, Fault.maxDigits < n ∧ rangeValue? line = .error (.numeralTooLong n) := by
  have hlong : ∀ {n : Numeral}, Fault.maxDigits < n.digits.length →
      n.fault? = some (.numeralTooLong n.digits.length) := fun hn => if_pos hn
  rw [rangeValue?, range?_eq_of_isFirst feed hp]
  by_cases hlow : p.low.digits.length ≤ Fault.maxDigits
  · have hhigh : Fault.maxDigits < p.high.digits.length := by
      by_contra hle
      exact h ⟨hlow, Nat.le_of_not_lt hle⟩
    refine ⟨_, hhigh, ?_⟩
    simp only [(Numeral.fault?_eq_none_iff _).mpr hlow, hlong hhigh]
  · refine ⟨_, Nat.lt_of_not_le hlow, ?_⟩
    simp only [hlong (Nat.lt_of_not_le hlow)]

end RangeParts

/-! ## The announced range -/

theorem rangeValue?_eq_none_iff {line : Text} : rangeValue? line = .ok none ↔ range? line = none := by
  constructor
  · intro h
    have hnone : (range? line).isSome = false := isSome_of_rangeValue? h
    simpa using hnone
  · intro h
    rw [rangeValue?, h]

/-- **Which range a line announces, by the ways to take it apart.** -/
structure AnnouncesFirst (line : Text) : Prop where
  /-- No range is announced exactly when the line cannot be taken apart. -/
  none_iff : rangeValue? line = .ok none ↔ IsEmpty (RangeParts (trim line))
  /-- A range is announced exactly when the line can be taken apart, unless its numbers are too long. -/
  some_iff : (∀ p : RangeParts (trim line), p.IsFirst → p.Convertible) →
    ((∃ a b, rangeValue? line = .ok (some (a, b))) ↔ Nonempty (RangeParts (trim line)))
  /-- A line that can be taken apart can be so with its word furthest to the left. -/
  exists_isFirst : Nonempty (RangeParts (trim line)) → ∃ p : RangeParts (trim line), p.IsFirst
  /-- The range is that of any way with the word furthest to the left. -/
  value : ∀ p : RangeParts (trim line), p.IsFirst → p.Convertible →
    rangeValue? line = .ok (some (p.low.value, p.high.value))
  /-- Numbers that are too long there are refused, even if another range follows. -/
  refused : ∀ p : RangeParts (trim line), p.IsFirst → ¬ p.Convertible →
    ∃ n, Fault.maxDigits < n ∧ rangeValue? line = .error (.numeralTooLong n)

/-- **A line announces the first range in it**, and announces one only if it can be taken apart as the
announcement of a range. -/
theorem range_announcesFirst {line : Text} (feed : '\n' ∉ line) : AnnouncesFirst line where
  none_iff := rangeValue?_eq_none_iff.trans (RangeParts.isEmpty_iff feed).symm
  some_iff convertible := by
    constructor
    · rintro ⟨a, b, h⟩
      obtain ⟨r, hr⟩ := Option.isSome_iff_exists.mp (isSome_of_rangeValue? h)
      exact RangeParts.nonempty_of_range? feed hr
    · intro h
      obtain ⟨p, hp⟩ := RangeParts.exists_isFirst h
      exact ⟨_, _, RangeParts.rangeValue?_eq_of_isFirst feed hp (convertible p hp)⟩
  exists_isFirst := RangeParts.exists_isFirst
  value _ hp := RangeParts.rangeValue?_eq_of_isFirst feed hp
  refused _ hp := RangeParts.exists_fault_of_isFirst feed hp

/-- A line with three ranges: behind the first one there are not enough hash signs, and the second one is
spelled with digits of two scripts. -/
def crowdedBanner : Text :=
  "\t##### Module 1-2 ### Module\u00a007 -  ٠4####### Module 5-6 ####  ".toList

/-- The second range of the line above is the first one that counts. -/
theorem range_crowdedBanner :
    '\n' ∉ crowdedBanner ∧ AnnouncesFirst crowdedBanner ∧
      rangeValue? crowdedBanner = .ok (some (7, 4)) ∧
      ∃ p : RangeParts (trim crowdedBanner), p.IsFirst ∧ p.low.value = 7 ∧ p.high.value = 4 := by
  have hfeed : '\n' ∉ crowdedBanner := by decide +kernel
  have hvalue : rangeValue? crowdedBanner = .ok (some (7, 4)) := by decide +kernel
  have hmax : (trim crowdedBanner).length ≤ Fault.maxDigits := by decide +kernel
  have hfirst := range_announcesFirst hfeed
  have hconvertible : ∀ p : RangeParts (trim crowdedBanner), p.Convertible := fun p =>
    ⟨p.length_digits_le.1.trans hmax, p.length_digits_le.2.trans hmax⟩
  obtain ⟨p, hp⟩ :=
    hfirst.exists_isFirst ((hfirst.some_iff fun p _ => hconvertible p).mp ⟨7, 4, hvalue⟩)
  have hpair := hfirst.value p hp (hconvertible p)
  rw [hvalue] at hpair
  injection hpair with hpair
  obtain ⟨hlow, hhigh⟩ := Prod.mk.inj (Option.some.inj hpair)
  exact ⟨hfeed, hfirst, hvalue, p, hp, hlow.symm, hhigh.symm⟩

end Sproto.Banner
