import Sproto.Layout.Style
import Sproto.Proofs.Line.Shape

/-! # Banners as they are read and written

Which texts the readers of labels and number ranges accept is said by `label?_eq_some_iff` and
`rangeAt?_eq_some_iff`, as decompositions of the text.

A banner that layout writes is a title between two runs of hash signs (`Banner.framed`).  It is read as
a banner, its title is found again, and so is a number range at the end of the title. -/
namespace Sproto.Banner

open Text

theorem content_trim (line : Text) : content (trim line) = content line := by
  rw [content, trim_trim, content]

theorem title_trim (line : Text) : title (trim line) = title line := by
  rw [title, content_trim, title]

theorem rangeValue?_trim (line : Text) : rangeValue? (trim line) = rangeValue? line := by
  rw [rangeValue?, rangeValue?, range?, trim_trim, range?]

/-- The bounds of a range are converted, or there is a fault. -/
theorem isSome_of_rangeValue? {line : Text} {r : Option (Nat × Nat)} (h : rangeValue? line = .ok r) :
    (range? line).isSome = r.isSome := by
  unfold rangeValue? at h
  split at h
  · next hr =>
    cases h
    rw [hr]
    rfl
  · next low high hr =>
    rw [hr]
    split at h
    · cases h
    · cases h
    · cases h
      rfl

/-- A title between two runs of hash signs. -/
def framed (n : Nat) (c : Text) : Text :=
  List.replicate n '#' ++ ' ' :: c ++ ' ' :: List.replicate n '#'

/-- A text that can be found again between hash signs. -/
structure IsTitle (c : Text) : Prop where
  trimmed : trim c = c
  ne_nil : c ≠ []
  head : c.head? ≠ some '#'
  last : c.getLast? ≠ some '#'
  feed : '\n' ∉ c

theorem isHash_iff {c : Char} : isHash c = true ↔ c = '#' := by
  simp [isHash]

theorem dropWhile_isHash_replicate (n : Nat) {r : Text} (hr : r.head? ≠ some '#') :
    (List.replicate n '#' ++ r).dropWhile isHash = r := by
  rw [List.dropWhile_append_of_pos fun c hc => isHash_iff.mpr (List.eq_of_mem_replicate hc)]
  cases r with
  | nil => rfl
  | cons c r =>
    have hc : isHash c = false := by
      cases h : isHash c with
      | false => rfl
      | true => exact absurd (congrArg some (isHash_iff.mp h)) hr
    simp [hc]

theorem takeWhile_isHash_replicate (n : Nat) (r : Text) :
    n ≤ ((List.replicate n '#' ++ r).takeWhile isHash).length := by
  rw [List.takeWhile_append_of_pos fun c hc => isHash_iff.mpr (List.eq_of_mem_replicate hc)]
  simp

theorem readHashes?_replicate {n : Nat} (hn : 4 ≤ n) {r : Text} (hr : r.head? ≠ some '#') :
    readHashes? (List.replicate n '#' ++ r) = some r := by
  rw [readHashes?, if_pos (Nat.le_trans hn (takeWhile_isHash_replicate n r)),
    dropWhile_isHash_replicate n hr]

/-- Reading hash signs divides a text into four or more of them and a rest without any in front. -/
theorem readHashes?_eq_some_iff {t r : Text} :
    readHashes? t = some r ↔
      r.head? ≠ some '#' ∧ ∃ n, 4 ≤ n ∧ t = List.replicate n '#' ++ r := by
  constructor
  · intro h
    obtain ⟨hn, hr⟩ := Option.ite_none_right_eq_some.mp h
    obtain rfl := Option.some.inj hr
    refine ⟨fun hhead => ?_, _, hn, ?_⟩
    · have hnot := List.head?_dropWhile_not isHash t
      rw [hhead] at hnot
      cases hnot
    · have hrep : t.takeWhile isHash = List.replicate (t.takeWhile isHash).length '#' :=
        List.eq_replicate_iff.mpr ⟨rfl, fun c hc => isHash_iff.mp (List.mem_takeWhile_imp hc)⟩
      rw [← hrep, List.takeWhile_append_dropWhile]
  · rintro ⟨hr, n, hn, rfl⟩
    exact readHashes?_replicate hn hr

/-! ## Labels -/

/-- A line with a label: four or more hash signs, white space, and the label. -/
theorem label?_eq_some_iff {line w : Text} :
    label? line = some w ↔
      ∃ n g r, 4 ≤ n ∧ g ≠ [] ∧ isBlank g = true ∧ IsName w ∧ Stops isWord r ∧
        line = List.replicate n '#' ++ (g ++ (w ++ r)) := by
  constructor
  · intro h
    obtain ⟨u, hhash, h₁⟩ := Option.bind_eq_some_iff.mp h
    obtain ⟨v, hgap, h₂⟩ := Option.bind_eq_some_iff.mp h₁
    obtain ⟨⟨w', r⟩, hword, h₃⟩ := Option.bind_eq_some_iff.mp h₂
    cases h₃
    clear h h₁ h₂
    obtain ⟨-, g, hne, hg, rfl⟩ := readGap?_eq_some_iff.mp hgap
    obtain ⟨hw, hr, rfl⟩ := readWord?_eq_some_iff.mp hword
    obtain ⟨-, n, hn, rfl⟩ := readHashes?_eq_some_iff.mp hhash
    exact ⟨n, g, r, hn, hne, hg, hw, hr, rfl⟩
  · rintro ⟨n, g, r, hn, hne, hg, hw, hr, rfl⟩
    have hhead : (g ++ (w ++ r)).head? ≠ some '#' := by
      obtain ⟨c, g, rfl⟩ := List.exists_cons_of_ne_nil hne
      intro h
      cases h
      cases isBlank_iff.mp hg _ List.mem_cons_self
    have hstop : Stops isSpace (w ++ r) := by
      obtain ⟨c, w, rfl⟩ := List.exists_cons_of_ne_nil hw.1
      exact stops_cons.mpr (isSpace_eq_false_of_isWord (hw.2 c List.mem_cons_self))
    unfold label?
    simp only [readHashes?_replicate hn hhead, readGap?_eq_some_iff.mpr ⟨hstop, g, hne, hg, rfl⟩,
      readWord?_eq_some_iff.mpr ⟨hw, hr, rfl⟩, Option.bind_eq_bind, Option.bind_some]
    rfl

/-- **White space at the end of a line does not change its label.** -/
theorem label?_trimRight (line : Text) : label? (trimRight line) = label? line := by
  obtain ⟨e, he, hline⟩ := exists_trimRight_append line
  refine Option.ext fun w => ?_
  constructor
  · intro h
    obtain ⟨n, g, r, hn, hne, hg, hw, hr, htrim⟩ := label?_eq_some_iff.mp h
    refine label?_eq_some_iff.mpr ⟨n, g, r ++ e, hn, hne, hg, hw, ?_, ?_⟩
    · cases r with
      | nil =>
        have hstop :=
          Stops.append_of_isBlank (fun _ => isWord_eq_false_of_isSpace) he (stops_nil isWord)
        rwa [List.append_nil] at hstop
      | cons c r => exact stops_cons.mpr (stops_cons.mp hr)
    · rw [hline, htrim]
      simp only [List.append_assoc]
  · intro h
    obtain ⟨n, g, r, hn, hne, hg, hw, hr, rfl⟩ := label?_eq_some_iff.mp h
    refine label?_eq_some_iff.mpr ⟨n, g, trimRight r, hn, hne, hg, hw, ?_, ?_⟩
    · obtain ⟨b, -, hb⟩ := exists_trimRight_append r
      cases hcons : trimRight r with
      | nil => exact stops_nil _
      | cons c u =>
        rw [hb, hcons, List.cons_append] at hr
        exact stops_cons.mpr (stops_cons.mp hr)
    · obtain ⟨v, d, hd⟩ : ∃ v d, w = v ++ [d] := ⟨_, _, (List.dropLast_append_getLast hw.1).symm⟩
      have hspace := isSpace_eq_false_of_isWord (hw.2 d (by rw [hd]; simp))
      have htrim := trimRight_append_cons (List.replicate n '#' ++ (g ++ v)) hspace r
      rw [hd]
      simpa using htrim

/-- A line that does not begin with a hash sign has no label. -/
theorem label?_eq_none_of_head? {line : Text} (h : line.head? ≠ some '#') : label? line = none := by
  cases hl : label? line with
  | none => rfl
  | some w =>
    obtain ⟨n, g, r, hn, -, -, -, -, rfl⟩ := label?_eq_some_iff.mp hl
    obtain ⟨m, rfl⟩ := Nat.exists_eq_add_of_le' hn
    exact absurd rfl h

/-- Whether a trimmed line begins with four hash signs. -/
def startsHeader (line : Text) : Bool := ['#', '#', '#', '#'].isPrefixOf (trim line)

/-- A line that does not begin with four hash signs has no label. -/
theorem label?_eq_none_of_not_startsHeader {line : Text} (h : startsHeader line = false) :
    label? line = none := by
  cases hl : label? line with
  | none => rfl
  | some w =>
    obtain ⟨n, g, r, hn, -, -, -, -, hline⟩ := label?_eq_some_iff.mp hl
    obtain ⟨m, rfl⟩ : ∃ m, n = m + 4 := ⟨n - 4, by omega⟩
    have htrim : trim line = ['#', '#', '#', '#'] ++
        trimRight (List.replicate m '#' ++ (g ++ (w ++ r))) := by
      have hhash : ∀ u : Text, trimRight ('#' :: u) = '#' :: trimRight u :=
        fun u => trimRight_cons_of_not_isSpace isSpace_hash u
      rw [hline, Nat.add_comm, List.replicate_add, List.append_assoc, trim]
      show trimRight (trimLeft ('#' :: '#' :: '#' :: '#' :: _)) = _
      rw [trimLeft_cons_of_not_isSpace isSpace_hash, hhash, hhash, hhash, hhash]
      rfl
    rw [startsHeader, htrim] at h
    simp at h

section

variable {n : Nat} {c : Text}

theorem trim_framed (hn : 0 < n) : trim (framed n c) = framed n c := by
  obtain ⟨m, rfl⟩ := Nat.exists_eq_add_of_le' hn
  have hleft : trimLeft (framed (m + 1) c) = framed (m + 1) c := by
    rw [framed, List.replicate_succ]
    exact trimLeft_cons_of_not_isSpace isSpace_hash _
  rw [trim, hleft, framed, List.replicate_succ', ← List.cons_append, ← List.append_assoc]
  exact trimRight_append_cons _ isSpace_hash []

theorem isBanner_framed (hn : 4 ≤ n) (hc : '\n' ∉ c) : isBanner (framed n c) = true := by
  have hfront : ((framed n c).take 4).all isHash = true := by
    rw [framed, List.append_assoc, List.take_append_of_le_length (by simpa using hn),
      List.take_replicate]
    simp [isHash]
  have hback : ((framed n c).reverse.take 4).all isHash = true := by
    rw [framed, List.reverse_append, List.reverse_cons, List.reverse_replicate, List.append_assoc,
      List.take_append_of_le_length (by simpa using hn), List.take_replicate]
    simp [isHash]
  have hlen : 8 ≤ (framed n c).length := by
    simp only [framed, List.length_append, List.length_cons, List.length_replicate]
    omega
  have hfeed : (framed n c).contains '\n' = false := by
    simp [framed, hc]
  rw [isBanner, hfront, hback, hfeed]
  simpa using hlen

theorem read_framed (hn : 4 ≤ n) (hc : '\n' ∉ c) : Shape.read (framed n c) = .banner := by
  refine Shape.Reads.read_eq (.banner ?_)
  rw [trim_framed (by omega)]
  exact isBanner_framed hn hc

theorem not_mem_framed (hc : '\n' ∉ c) : '\n' ∉ framed n c := by
  simp [framed, hc]

/-- The banner of a line is the line's content in a frame, no narrower than the style asks for. -/
theorem exists_banner_eq_framed (s : Style) (line : Text) :
    ∃ n : Nat, s.bannerHashes ≤ n ∧ s.banner line = framed n (content line) :=
  ⟨(max s.bannerHashes (50 - ((content line).length : Int))).toNat, by omega, rfl⟩

/-- **The content of a banner is found again**, whatever it begins and ends with: the blanks beside it
keep its hash signs apart from those of the frame. -/
theorem content_framed (hn : 0 < n) (c : Text) : content (framed n c) = trim c := by
  have hdrop : (framed n c).dropWhile isHash = ' ' :: c ++ ' ' :: List.replicate n '#' := by
    rw [framed, List.append_assoc, dropWhile_isHash_replicate n (by simp)]
  have hend : dropEndWhile isHash (' ' :: c ++ ' ' :: List.replicate n '#') = ' ' :: c ++ [' '] := by
    rw [dropEndWhile, List.reverse_append, List.reverse_cons, List.reverse_replicate,
      List.append_assoc, dropWhile_isHash_replicate n (by simp)]
    simp
  rw [content, trim_framed hn, hdrop, hend,
    trim_append_of_isBlank_right _ (show isBlank [' '] = true from rfl)]
  exact trim_append_of_isBlank_left (show isBlank [' '] = true from rfl) c

theorem title_framed (hn : 0 < n) (hc : IsTitle c) : title (framed n c) = c := by
  have hne := hc.ne_nil
  rw [title, content_framed hn, hc.trimmed]
  cases c with
  | nil => exact absurd rfl hne
  | cons a c => rfl

/-- What follows the hash signs of a banner. -/
theorem readHashes?_framed (hn : 4 ≤ n) :
    readHashes? (framed n c) = some (' ' :: (c ++ ' ' :: List.replicate n '#')) := by
  rw [framed, List.append_assoc, readHashes?_replicate hn (by simp)]
  rfl

theorem content_of_isTitle (hc : IsTitle c) : content c = c := by
  have hdrop : c.dropWhile isHash = c := dropWhile_isHash_replicate 0 hc.head
  have hend : dropEndWhile isHash c = c := by
    have hlast : c.reverse.head? ≠ some '#' := by
      rw [List.head?_reverse]
      exact hc.last
    have hrev : c.reverse.dropWhile isHash = c.reverse := dropWhile_isHash_replicate 0 hlast
    rw [dropEndWhile, hrev, List.reverse_reverse]
  rw [content, hc.trimmed, hdrop, hend, hc.trimmed]

end

/-! ## Number ranges -/

theorem toList_module : "Module".toList = ['M', 'o', 'd', 'u', 'l', 'e'] := by decide

/-- Four hash signs stand behind white space. -/
theorem isSome_readHashes?_trimLeft_iff {t : Text} :
    (readHashes? (trimLeft t)).isSome = true ↔
      ∃ e r, isBlank e = true ∧ t = e ++ (List.replicate 4 '#' ++ r) := by
  constructor
  · intro h
    obtain ⟨u, hu⟩ := Option.isSome_iff_exists.mp h
    obtain ⟨-, n, hn, ht⟩ := readHashes?_eq_some_iff.mp hu
    obtain ⟨-, e, he, rfl⟩ := trimLeft_eq_iff.mp ht
    obtain ⟨m, rfl⟩ := Nat.exists_eq_add_of_le hn
    exact ⟨e, List.replicate m '#' ++ u, he, by rw [List.replicate_add, List.append_assoc]⟩
  · rintro ⟨e, r, he, rfl⟩
    have htrim : trimLeft (e ++ (List.replicate 4 '#' ++ r)) = List.replicate 4 '#' ++ r := by
      rw [trimLeft_append_of_isBlank he]
      exact trimLeft_cons_of_not_isSpace isSpace_hash _
    rw [htrim, readHashes?, if_pos (takeWhile_isHash_replicate 4 r)]
    rfl

/-- A number is read behind white space. -/
theorem read?_trimLeft {g r : Text} {n : Numeral} (hg : isBlank g = true) (hn : n.Spelled)
    (hr : Stops isDigit r) : Numeral.read? (trimLeft (g ++ (n.digits ++ r))) = some (n, r) := by
  rw [trimLeft_append_of_isBlank hg, trimLeft_of_stops (Shape.stops_isSpace_of_isName hn.isName)]
  exact Numeral.read?_eq_some_iff.mpr ⟨hn, hr, rfl⟩

/-- A range, by the parts that it is read from. -/
theorem rangeAt?_eq_some_iff {t : Text} {low high : Numeral} :
    rangeAt? t = some (low, high) ↔ low.Spelled ∧ high.Spelled ∧
      ∃ g a b e r, isBlank g = true ∧ isBlank a = true ∧ isBlank b = true ∧ isBlank e = true ∧
        t = "Module".toList ++ (g ++ (low.digits ++ (a ++ '-' :: (b ++ (high.digits ++
          (e ++ (List.replicate 4 '#' ++ r))))))) := by
  constructor
  · intro h
    obtain ⟨t₁, hword, h₁⟩ := Option.bind_eq_some_iff.mp h
    obtain ⟨⟨low', t₂⟩, hlow, h₂⟩ := Option.bind_eq_some_iff.mp h₁
    obtain ⟨t₃, hhyphen, h₃⟩ := Option.bind_eq_some_iff.mp h₂
    obtain ⟨⟨high', t₄⟩, hhigh, h₄⟩ := Option.bind_eq_some_iff.mp h₃
    obtain ⟨t₅, hhashes, h₅⟩ := Option.bind_eq_some_iff.mp h₄
    cases h₅
    clear h h₁ h₂ h₃ h₄
    obtain rfl := isPrefixOf?_eq_some_iff.mp hword
    obtain ⟨hl, -, ht₁⟩ := Numeral.read?_eq_some_iff.mp hlow
    obtain ⟨-, g, hg, rfl⟩ := trimLeft_eq_iff.mp ht₁
    obtain ⟨a, ha, rfl⟩ := (readChar?_trimLeft_eq_some_iff (by rfl)).mp hhyphen
    obtain ⟨hh, -, ht₃⟩ := Numeral.read?_eq_some_iff.mp hhigh
    obtain ⟨-, b, hb, rfl⟩ := trimLeft_eq_iff.mp ht₃
    obtain ⟨e, r, he, rfl⟩ :=
      isSome_readHashes?_trimLeft_iff.mp (Option.isSome_iff_exists.mpr ⟨t₅, hhashes⟩)
    exact ⟨hl, hh, g, a, b, e, r, hg, ha, hb, he, rfl⟩
  · rintro ⟨hl, hh, g, a, b, e, r, hg, ha, hb, he, rfl⟩
    obtain ⟨u, hhashes⟩ := Option.isSome_iff_exists.mp
      (isSome_readHashes?_trimLeft_iff.mpr ⟨e, r, he, rfl⟩)
    have hhyphen : ∀ v, readChar? '-' (trimLeft (a ++ '-' :: v)) = some v := fun v =>
      (readChar?_trimLeft_eq_some_iff (by rfl)).mpr ⟨a, ha, rfl⟩
    have hmiddle : ∀ v, Stops isDigit (a ++ '-' :: v) := fun v =>
      Shape.stops_isDigit_of_isBlank ha (stops_cons.mpr rfl)
    have hend : Stops isDigit (e ++ (List.replicate 4 '#' ++ r)) :=
      Shape.stops_isDigit_of_isBlank he (stops_cons.mpr rfl)
    unfold rangeAt?
    simp only [isPrefixOf?_eq_some_iff.mpr rfl, read?_trimLeft hg hl (hmiddle _), hhyphen,
      read?_trimLeft hb hh hend, hhashes, Option.bind_eq_bind, Option.bind_some]
    rfl

/-! ## The banner in front of a document -/

/-- The title of a module with a number range. -/
def rangeTitle (a b : Nat) : Text := "Protocol Module ".toList ++ (decimal a ++ '-' :: decimal b)

/-- The range part of such a title, and what follows it. -/
def rangePart (a b : Nat) (r : Text) : Text := decimal a ++ '-' :: (decimal b ++ r)

theorem toList_protocolModule : "Protocol Module ".toList =
    ['P', 'r', 'o', 't', 'o', 'c', 'o', 'l', ' ', 'M', 'o', 'd', 'u', 'l', 'e', ' '] := by decide

theorem rangeTitle_append (a b : Nat) (r : Text) :
    rangeTitle a b ++ r = 'P' :: 'r' :: 'o' :: 't' :: 'o' :: 'c' :: 'o' :: 'l' :: ' ' ::
      'M' :: 'o' :: 'd' :: 'u' :: 'l' :: 'e' :: ' ' :: rangePart a b r := by
  unfold rangeTitle rangePart
  rw [toList_protocolModule]
  simp only [List.cons_append, List.append_assoc, List.nil_append]

/-- A decimal number is made of word characters. -/
theorem isWord_of_mem_decimal {n : Nat} {c : Char} (hc : c ∈ decimal n) : isWord c = true :=
  (Numeral.spelled_decimal n).isWord c hc

/-- Such a title is made of words, blanks and a hyphen. -/
theorem not_mem_rangeTitle (a b : Nat) {c : Char} (hw : isWord c = false) (hs : c ≠ ' ')
    (hm : c ≠ '-') : c ∉ rangeTitle a b := by
  have hdigits : ∀ n, c ∉ decimal n := fun n h => by
    rw [isWord_of_mem_decimal h] at hw
    cases hw
  have hall : ("Protocol Module ".toList.all fun d => d == ' ' || isWord d) = true := by decide
  have hword : ∀ d ∈ "Protocol Module ".toList, d = ' ' ∨ isWord d = true := by
    simpa only [List.all_eq_true, Bool.or_eq_true, beq_iff_eq] using hall
  unfold rangeTitle
  simp only [List.mem_append, List.mem_cons, not_or]
  refine ⟨fun h => ?_, hdigits a, hm, hdigits b⟩
  rcases hword c h with h | h
  · exact hs h
  · rw [hw] at h
    cases h

theorem isTitle_rangeTitle (a b : Nat) : IsTitle (rangeTitle a b) := by
  obtain ⟨u, d, hd⟩ : ∃ u d, decimal b = u ++ [d] :=
    ⟨_, _, (List.dropLast_append_getLast (Numeral.spelled_decimal b).1).symm⟩
  have hword : isWord d = true := isWord_of_mem_decimal (n := b) (by rw [hd]; simp)
  have hfront : ∃ v, rangeTitle a b = 'P' :: (v ++ [d]) := by
    have h := rangeTitle_append a b []
    rw [List.append_nil, rangePart, List.append_nil, hd] at h
    refine ⟨'r' :: 'o' :: 't' :: 'o' :: 'c' :: 'o' :: 'l' :: ' ' ::
      'M' :: 'o' :: 'd' :: 'u' :: 'l' :: 'e' :: ' ' :: (decimal a ++ '-' :: u), ?_⟩
    rw [h]
    simp only [List.cons_append, List.append_assoc]
  have hfeed : '\n' ∉ rangeTitle a b := not_mem_rangeTitle a b rfl (by decide) (by decide)
  obtain ⟨v, hv⟩ := hfront
  rw [hv] at hfeed ⊢
  refine ⟨?_, List.cons_ne_nil _ _, ?_, ?_, hfeed⟩
  · rw [trim, trimLeft_cons_of_not_isSpace (by rfl), ← List.cons_append]
    exact trimRight_append_cons _ (isSpace_eq_false_of_isWord hword) []
  · exact fun h => absurd (Option.some.inj h) (by decide)
  · rw [← List.cons_append, List.getLast?_concat]
    exact fun h => ne_of_isWord hword isWord_hash (Option.some.inj h)

theorem label?_rangeTitle {n : Nat} (hn : 4 ≤ n) (a b : Nat) :
    label? (framed n (rangeTitle a b)) = some ['P', 'r', 'o', 't', 'o', 'c', 'o', 'l'] := by
  rw [label?, readHashes?_framed hn, rangeTitle_append]
  rfl

/-- A range is read where it begins. -/
theorem rangeAt?_rangePart {n : Nat} (hn : 4 ≤ n) (a b : Nat) :
    rangeAt? ('M' :: 'o' :: 'd' :: 'u' :: 'l' :: 'e' :: ' ' ::
        rangePart a b (' ' :: List.replicate n '#')) =
      some (⟨decimal a⟩, ⟨decimal b⟩) := by
  obtain ⟨m, rfl⟩ := Nat.exists_eq_add_of_le hn
  refine rangeAt?_eq_some_iff.mpr ⟨Numeral.spelled_decimal a, Numeral.spelled_decimal b, [' '], [], [],
    [' '], List.replicate m '#', rfl, rfl, rfl, rfl, ?_⟩
  rw [toList_module, ← List.replicate_add, rangePart]
  rfl

theorem searchRange?_cons_of_some {c : Char} {t : Text} {r : Numeral × Numeral}
    (h : rangeAt? (c :: t) = some r) : searchRange? (c :: t) = some r := by
  rw [searchRange?, h]

/-- The search passes over a character that no range begins with. -/
theorem searchRange?_cons_of_ne {c : Char} (hc : c ≠ 'M') (hfeed : c ≠ '\n') (t : Text) :
    searchRange? (c :: t) = searchRange? t := by
  have hnone : rangeAt? (c :: t) = none := by
    have hpre : "Module".toList.isPrefixOf? (c :: t) = none := by
      rw [toList_module, List.isPrefixOf?, if_neg (by simpa using Ne.symm hc)]
    rw [rangeAt?, hpre]
    rfl
  rw [searchRange?, hnone, if_neg hfeed]

/-- **A number range at the end of a title is read back.** -/
theorem range?_rangeTitle {n : Nat} (hn : 4 ≤ n) (a b : Nat) :
    range? (framed n (rangeTitle a b)) = some (⟨decimal a⟩, ⟨decimal b⟩) := by
  have hat := rangeAt?_rangePart hn a b
  rw [range?, trim_framed (by omega), readHashes?_framed hn, rangeTitle_append]
  simp only [Option.bind_eq_bind, Option.bind_some, trimLeft_cons_of_isSpace isSpace_blank]
  rw [trimLeft_cons_of_not_isSpace (by rfl)]
  iterate 9 rw [searchRange?_cons_of_ne (by decide) (by decide)]
  exact searchRange?_cons_of_some hat

end Sproto.Banner
