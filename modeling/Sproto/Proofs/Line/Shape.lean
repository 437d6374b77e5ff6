import Sproto.Proofs.Line.Grammar

/-! # The shape of a line

`Reads t sh` says, without the order of trials, when a line `t` has the shape `sh`; `read_eq_iff` says
that every line has exactly the shape it is read as.  Two facts about all lines follow: white space at
the end of a line matters to no part but the last (`read_trimRight`), and a line that is no declaration
may be indented at will (`read_indent`). -/
namespace Sproto

open Text

namespace Shape

/-- When a line has a shape. -/
inductive Reads (t : Text) : Shape → Prop
  | blank (h : trim t = []) : Reads t blank
  | banner (h : Banner.isBanner (trim t) = true) : Reads t banner
  | comment (h : (trim t).head? = some '#') (hb : Banner.isBanner (trim t) = false) :
      Reads t comment
  | closeBrace (h : trim t = ['}']) : Reads t closeBrace
  | openBrace (h : trim t = ['{']) : Reads t openBrace
  | block {k : BlockKind} {closed : Bool} {rest : Text} (h : block? t = some (block k closed rest)) :
      Reads t (block k closed rest)
  | protocol {name rest : Text} {number : Option Numeral} (hb : block? t = none)
      (h : protocol? t = some (protocol name number rest)) : Reads t (protocol name number rest)
  | field {name body : Text} {n : Numeral} (h : field? t = some (field name n body)) :
      Reads t (field name n body)
  | other (hne : trim t ≠ []) (hh : (trim t).head? ≠ some '#') (hc : trim t ≠ ['}'])
      (ho : trim t ≠ ['{']) (hb : block? t = none) (hp : protocol? t = none)
      (hf : field? t = none) : Reads t other

theorem head?_of_isBanner {s : Text} (h : Banner.isBanner s = true) : s.head? = some '#' := by
  cases s with
  | nil => cases h
  | cons c s =>
    simp only [Banner.isBanner, Bool.and_eq_true, List.take_succ_cons, List.all_cons,
      Banner.isHash, beq_iff_eq] at h
    rw [h.1.1.2.1]
    rfl

/-- Every line has the shape it is read as. -/
theorem reads_read (t : Text) : Reads t (read t) := by
  unfold read
  by_cases hnil : trim t = []
  · rw [if_pos hnil]; exact .blank hnil
  rw [if_neg hnil]
  by_cases hban : Banner.isBanner (trim t) = true
  · rw [if_pos hban]; exact .banner hban
  rw [if_neg hban]
  by_cases hhash : (trim t).head? = some '#'
  · rw [if_pos hhash]; exact .comment hhash (by simpa using hban)
  rw [if_neg hhash]
  by_cases hclose : trim t = ['}']
  · rw [if_pos hclose]; exact .closeBrace hclose
  rw [if_neg hclose]
  by_cases hopen : trim t = ['{']
  · rw [if_pos hopen]; exact .openBrace hopen
  rw [if_neg hopen]
  cases hb : block? t with
  | some sh =>
    obtain ⟨k, closed, rest, rfl⟩ := exists_of_block?_eq_some hb
    exact .block hb
  | none =>
    cases hp : protocol? t with
    | some sh =>
      obtain ⟨name, number, rest, rfl⟩ := exists_of_protocol?_eq_some hp
      exact .protocol hb hp
    | none =>
      cases hf : field? t with
      | some sh =>
        obtain ⟨name, n, body, rfl⟩ := exists_of_field?_eq_some hf
        exact .field hf
      | none => exact .other hnil hhash hclose hopen hb hp hf

/-- A line that begins with none of `#`, `{` and `}` is what the readers make of it. -/
theorem read_of_head {t u : Text} {c : Char} (h : trimLeft t = c :: u) (hh : c ≠ '#') (ho : c ≠ '{')
    (hc : c ≠ '}') : read t = (block? t <|> protocol? t <|> field? t).getD other := by
  have htrim : trim t = c :: trimRight u := by
    rw [trim, h, trimRight_cons_of_not_isSpace (isSpace_of_trimLeft_eq_cons h)]
  have hban : ¬ Banner.isBanner (trim t) = true := by
    intro hb
    rw [htrim] at hb
    exact hh (Option.some.inj (head?_of_isBanner hb))
  unfold read
  rw [if_neg (by rw [htrim]; exact List.cons_ne_nil _ _), if_neg hban,
    if_neg (by rw [htrim]; simpa using hh), if_neg (by rw [htrim]; simp [hc]),
    if_neg (by rw [htrim]; simp [ho])]

theorem ne_marks_of_isWord {c : Char} (hc : isWord c = true) : c ≠ '#' ∧ c ≠ '{' ∧ c ≠ '}' :=
  ⟨ne_of_isWord hc isWord_hash, ne_of_isWord hc isWord_openBrace, ne_of_isWord hc isWord_closeBrace⟩

/-- The word of a block start is followed by a brace, that of a field by a number. -/
theorem block?_eq_none_of_field? {t name body : Text} {n : Numeral}
    (h : field? t = some (field name n body)) : block? t = none := by
  cases hb : block? t with
  | none => rfl
  | some sh =>
    exfalso
    obtain ⟨k, closed, rest, rfl⟩ := exists_of_block?_eq_some hb
    obtain ⟨hname, hn, a, g, b, ha, hne, hg, -, rfl⟩ := field?_eq_some_iff.mp h
    obtain ⟨a', b', r, ha', hb', -, ht⟩ := block?_eq_some_iff.mp hb
    have hleft := congrArg trimLeft ht
    rw [trimLeft_append_of_isBlank ha, trimLeft_append_of_isBlank ha',
      trimLeft_of_stops (stops_isSpace_of_isName hname),
      trimLeft_of_stops (stops_isSpace_of_isName k.isName_word)] at hleft
    have hword := readWord?_eq_some_iff.mpr ⟨hname, stops_isWord_gap hne hg _, hleft.symm⟩
    rw [readWord?_eq_some_iff.mpr ⟨k.isName_word,
      stops_isWord_of_isBlank hb' (stops_cons.mpr isWord_openBrace), rfl⟩] at hword
    obtain ⟨-, hrest⟩ := Prod.mk.inj (Option.some.inj hword)
    have hrest := congrArg trimLeft hrest
    rw [trimLeft_append_of_isBlank hg, trimLeft_append_of_isBlank hb',
      trimLeft_of_stops (stops_isSpace_of_isName hn.isName),
      trimLeft_cons_of_not_isSpace isSpace_openBrace] at hrest
    obtain ⟨c, w, hcw⟩ := List.exists_cons_of_ne_nil hn.1
    rw [hcw, List.cons_append, List.cons.injEq] at hrest
    exact ne_of_isWord (hn.isWord c (by rw [hcw]; exact List.mem_cons_self)) isWord_openBrace
      hrest.1.symm

theorem nameAndNumber?_of_field? {t name body : Text} {n : Numeral}
    (h : field? t = some (field name n body)) :
    ∃ b, isBlank b = true ∧ nameAndNumber? t = some (name, n, b ++ ':' :: body) := by
  obtain ⟨hname, hn, a, g, b, ha, hne, hg, hb, rfl⟩ := field?_eq_some_iff.mp h
  refine ⟨b, hb, nameAndNumber?_eq_some_iff.mpr ⟨hname, hn, ?_, a, g, ha, hne, hg, rfl⟩⟩
  exact stops_isDigit_of_isBlank hb (stops_cons.mpr rfl)

/-- A declaration reads as a name and a number, with the brace behind them, or as neither. -/
theorem nameAndNumber?_declaration {name m : Text} {number : Option Numeral}
    (hname : IsProtocolName name) (hm : NumberPart number m) (rest : Text) :
    nameAndNumber? (name ++ (m ++ '{' :: rest)) = none ∨
      ∃ n b, isBlank b = true ∧
        nameAndNumber? (name ++ (m ++ '{' :: rest)) = some (name, n, b ++ '{' :: rest) := by
  rcases hname with hname | ⟨w, -, rfl⟩
  · cases number with
    | none =>
      have hword : readWord? (trimLeft (name ++ (m ++ '{' :: rest))) =
          some (name, m ++ '{' :: rest) := by
        rw [trimLeft_of_stops (stops_isSpace_of_isName hname)]
        exact readWord?_eq_some_iff.mpr ⟨hname, NumberPart.stops hm rest, rfl⟩
      left
      unfold nameAndNumber?
      simp only [hword, Option.bind_eq_bind, Option.bind_some]
      cases hgap : readGap? (m ++ '{' :: rest) with
      | none => rfl
      | some r =>
        obtain ⟨hr, g, -, hg, hmr⟩ := readGap?_eq_some_iff.mp hgap
        have hr' := congrArg trimLeft hmr
        rw [trimLeft_append_of_isBlank hm, trimLeft_append_of_isBlank hg,
          trimLeft_cons_of_not_isSpace isSpace_openBrace, trimLeft_of_stops hr] at hr'
        rw [← hr']
        rfl
    | some n =>
      obtain ⟨hn, g, b, hne, hg, hb, rfl⟩ := hm
      refine Or.inr ⟨n, b, hb, nameAndNumber?_eq_some_iff.mpr ⟨hname, hn, ?_, [], g, rfl, hne, hg, ?_⟩⟩
      · exact stops_isDigit_of_isBlank hb (stops_cons.mpr rfl)
      · simp only [List.append_assoc, List.nil_append]
  · left
    have hword : readWord? (trimLeft ('.' :: w ++ (m ++ '{' :: rest))) = none := by
      rw [List.cons_append, trimLeft_cons_of_not_isSpace isSpace_stop]
      rfl
    unfold nameAndNumber?
    rw [hword]
    rfl

/-- The number of a declaration is followed by a brace, that of a field by a colon. -/
theorem protocol?_eq_none_of_field? {t name body : Text} {n : Numeral}
    (h : field? t = some (field name n body)) : protocol? t = none := by
  cases hp : protocol? t with
  | none => rfl
  | some sh =>
    exfalso
    obtain ⟨b, hb, hnn⟩ := nameAndNumber?_of_field? h
    obtain ⟨name', number, rest, rfl⟩ := exists_of_protocol?_eq_some hp
    obtain ⟨hname', m, hm, rfl⟩ := protocol?_eq_some_iff.mp hp
    rcases nameAndNumber?_declaration hname' hm rest with hnone | ⟨n', b', hb', hsome⟩
    · rw [hnone] at hnn
      cases hnn
    · rw [hsome] at hnn
      obtain ⟨-, -, hrest⟩ := Prod.mk.injEq .. ▸ Prod.mk.injEq .. ▸ Option.some.inj hnn
      have hrest := congrArg trimLeft hrest
      rw [trimLeft_append_of_isBlank hb', trimLeft_append_of_isBlank hb,
        trimLeft_cons_of_not_isSpace isSpace_openBrace,
        trimLeft_cons_of_not_isSpace isSpace_colon] at hrest
      exact absurd (List.cons.inj hrest).1 (by decide)

/-- No line has any shape but the one it is read as. -/
theorem Reads.read_eq {t : Text} {sh : Shape} (h : Reads t sh) : read t = sh := by
  cases h with
  | blank h => rw [read, if_pos h]
  | banner h =>
    have hne : trim t ≠ [] := by rintro hnil; rw [hnil] at h; cases h
    rw [read, if_neg hne, if_pos h]
  | comment h hb =>
    have hne : trim t ≠ [] := by rintro hnil; rw [hnil] at h; cases h
    rw [read, if_neg hne, if_neg (by rw [hb]; exact Bool.false_ne_true), if_pos h]
  | closeBrace h => simp only [read, h]; rfl
  | openBrace h => simp only [read, h]; rfl
  | block h =>
    obtain ⟨a, b, r, ha, hb, -, ht⟩ := block?_eq_some_iff.mp h
    rename_i k closed rest
    obtain ⟨c, w, hcw⟩ := List.exists_cons_of_ne_nil k.isName_word.1
    have hleft : trimLeft t = c :: (w ++ (b ++ '{' :: r)) := by
      rw [ht, trimLeft_append_of_isBlank ha,
        trimLeft_of_stops (stops_isSpace_of_isName k.isName_word), hcw, List.cons_append]
    have hc := k.isName_word.2 c (by rw [hcw]; exact List.mem_cons_self)
    obtain ⟨h₁, h₂, h₃⟩ := ne_marks_of_isWord hc
    rw [read_of_head hleft h₁ h₂ h₃, h]
    rfl
  | protocol hb h =>
    obtain ⟨hname, m, -, ht⟩ := protocol?_eq_some_iff.mp h
    obtain ⟨c, w, rfl, hc⟩ := hname.head
    have hmarks : isSpace c = false ∧ c ≠ '#' ∧ c ≠ '{' ∧ c ≠ '}' := by
      rcases hc with hc | rfl
      · exact ⟨isSpace_eq_false_of_isWord hc, ne_marks_of_isWord hc⟩
      · decide
    have hleft : trimLeft t = t := by
      rw [ht, List.cons_append, trimLeft_cons_of_not_isSpace hmarks.1]
    rw [ht, List.cons_append] at hleft
    rw [ht, List.cons_append] at hb h ⊢
    rw [read_of_head hleft hmarks.2.1 hmarks.2.2.1 hmarks.2.2.2, hb, h]
    rfl
  | field h =>
    obtain ⟨hname, -, a, g, b, ha, -, -, -, ht⟩ := field?_eq_some_iff.mp h
    rename_i name body n
    obtain ⟨c, w, rfl⟩ := List.exists_cons_of_ne_nil hname.1
    have hleft : trimLeft t = c :: (w ++ (g ++ (n.digits ++ (b ++ ':' :: body)))) := by
      rw [ht, trimLeft_append_of_isBlank ha, trimLeft_of_stops (stops_isSpace_of_isName hname),
        List.cons_append]
    -- the readers that are tried before find nothing
    obtain ⟨h₁, h₂, h₃⟩ := ne_marks_of_isWord (hname.2 c List.mem_cons_self)
    rw [read_of_head hleft h₁ h₂ h₃, block?_eq_none_of_field? h, protocol?_eq_none_of_field? h, h]
    rfl
  | other hne hh hc ho hb hp hf =>
    have hban : ¬ Banner.isBanner (trim t) = true := fun hb => hh (head?_of_isBanner hb)
    rw [read, if_neg hne, if_neg hban, if_neg hh, if_neg hc, if_neg ho, hb, hp, hf]
    rfl

/-- **A line has exactly the shape it is read as.** -/
theorem read_eq_iff {t : Text} {sh : Shape} : read t = sh ↔ Reads t sh :=
  ⟨fun h => h ▸ reads_read t, Reads.read_eq⟩

/-! ## White space at the end of a line -/

/-- A shape whose last part has no white space at its end. -/
def trimRest : Shape → Shape
  | block k closed rest => block k closed (trimRight rest)
  | protocol name number rest => protocol name number (trimRight rest)
  | field name n body => field name n (trimRight body)
  | sh => sh

theorem head?_trim (t : Text) : (trim t).head? = (trimLeft t).head? := by
  cases h : trimLeft t with
  | nil => rw [trim, h]; rfl
  | cons c u =>
    rw [trim, h, trimRight_cons_of_not_isSpace (isSpace_of_trimLeft_eq_cons h)]
    rfl

theorem BlockRest.trimRight {closed : Bool} {r rest : Text} (h : BlockRest closed r rest) :
    BlockRest closed (trimRight r) (trimRight rest) := by
  cases closed with
  | true =>
    obtain ⟨c, hc, rfl⟩ := h
    exact ⟨c, hc, trimRight_append_cons c isSpace_closeBrace rest⟩
  | false =>
    obtain ⟨rfl, hne⟩ := h
    refine ⟨rfl, ?_⟩
    rwa [trimLeft_trimRight, head?_trim]

theorem BlockRest.append {closed : Bool} {r rest b : Text} (h : BlockRest closed r rest)
    (hb : isBlank b = true) : BlockRest closed (r ++ b) (rest ++ b) := by
  cases closed with
  | true =>
    obtain ⟨c, hc, rfl⟩ := h
    exact ⟨c, hc, by rw [List.append_assoc, List.cons_append]⟩
  | false =>
    obtain ⟨rfl, hne⟩ := h
    refine ⟨rfl, ?_⟩
    rwa [← head?_trim, trim_append_of_isBlank_right r hb, head?_trim]

theorem block?_trimRight (t : Text) : block? (trimRight t) = (block? t).map trimRest := by
  cases h : block? t with
  | some sh =>
    obtain ⟨k, closed, rest, rfl⟩ := exists_of_block?_eq_some h
    obtain ⟨a, b, r, ha, hb, hr, rfl⟩ := block?_eq_some_iff.mp h
    refine block?_eq_some_iff.mpr ⟨a, b, _, ha, hb, hr.trimRight, ?_⟩
    have htrim := trimRight_append_cons (a ++ (k.word ++ b)) isSpace_openBrace r
    simpa only [List.append_assoc] using htrim
  | none =>
    cases h' : block? (trimRight t) with
    | none => rfl
    | some sh =>
      obtain ⟨k, closed, rest, rfl⟩ := exists_of_block?_eq_some h'
      obtain ⟨a, b, r, ha, hb, hr, htrim⟩ := block?_eq_some_iff.mp h'
      obtain ⟨e, he, ht⟩ := exists_trimRight_append t
      have hsome : block? t = some (block k closed (rest ++ e)) := by
        refine block?_eq_some_iff.mpr ⟨a, b, r ++ e, ha, hb, hr.append he, ?_⟩
        rw [ht, htrim]
        simp only [List.append_assoc, List.cons_append]
      rw [hsome] at h
      cases h

theorem protocol?_trimRight (t : Text) : protocol? (trimRight t) = (protocol? t).map trimRest := by
  cases h : protocol? t with
  | some sh =>
    obtain ⟨name, number, rest, rfl⟩ := exists_of_protocol?_eq_some h
    obtain ⟨hname, m, hm, rfl⟩ := protocol?_eq_some_iff.mp h
    refine protocol?_eq_some_iff.mpr ⟨hname, m, hm, ?_⟩
    have htrim := trimRight_append_cons (name ++ m) isSpace_openBrace rest
    simpa only [List.append_assoc] using htrim
  | none =>
    cases h' : protocol? (trimRight t) with
    | none => rfl
    | some sh =>
      obtain ⟨name, number, rest, rfl⟩ := exists_of_protocol?_eq_some h'
      obtain ⟨hname, m, hm, htrim⟩ := protocol?_eq_some_iff.mp h'
      obtain ⟨e, -, ht⟩ := exists_trimRight_append t
      have hsome : protocol? t = some (protocol name number (rest ++ e)) := by
        refine protocol?_eq_some_iff.mpr ⟨hname, m, hm, ?_⟩
        rw [ht, htrim]
        simp only [List.append_assoc, List.cons_append]
      rw [hsome] at h
      cases h

theorem field?_trimRight (t : Text) : field? (trimRight t) = (field? t).map trimRest := by
  cases h : field? t with
  | some sh =>
    obtain ⟨name, n, body, rfl⟩ := exists_of_field?_eq_some h
    obtain ⟨hname, hn, a, g, b, ha, hne, hg, hb, rfl⟩ := field?_eq_some_iff.mp h
    refine field?_eq_some_iff.mpr ⟨hname, hn, a, g, b, ha, hne, hg, hb, ?_⟩
    have htrim := trimRight_append_cons (a ++ (name ++ (g ++ (n.digits ++ b)))) isSpace_colon body
    simpa only [List.append_assoc] using htrim
  | none =>
    cases h' : field? (trimRight t) with
    | none => rfl
    | some sh =>
      obtain ⟨name, n, body, rfl⟩ := exists_of_field?_eq_some h'
      obtain ⟨hname, hn, a, g, b, ha, hne, hg, hb, htrim⟩ := field?_eq_some_iff.mp h'
      obtain ⟨e, -, ht⟩ := exists_trimRight_append t
      have hsome : field? t = some (field name n (body ++ e)) := by
        refine field?_eq_some_iff.mpr ⟨hname, hn, a, g, b, ha, hne, hg, hb, ?_⟩
        rw [ht, htrim]
        simp only [List.append_assoc, List.cons_append]
      rw [hsome] at h
      cases h

/-- **White space at the end of a line reaches only the last part of its shape.** -/
theorem read_trimRight (t : Text) : read (trimRight t) = (read t).trimRest := by
  refine Reads.read_eq ?_
  have ht := reads_read t
  revert ht
  generalize read t = sh
  intro ht
  cases ht with
  | blank h => exact .blank (by rw [trim_trimRight, h])
  | banner h => exact .banner (by rw [trim_trimRight, h])
  | comment h hb => exact .comment (by rw [trim_trimRight, h]) (by rw [trim_trimRight, hb])
  | closeBrace h => exact .closeBrace (by rw [trim_trimRight, h])
  | openBrace h => exact .openBrace (by rw [trim_trimRight, h])
  | block h => exact .block (by rw [block?_trimRight, h]; rfl)
  | protocol hb h =>
    exact .protocol (by rw [block?_trimRight, hb]; rfl) (by rw [protocol?_trimRight, h]; rfl)
  | field h => exact .field (by rw [field?_trimRight, h]; rfl)
  | other hne hh hc ho hb hp hf =>
    refine .other ?_ ?_ ?_ ?_ (by rw [block?_trimRight, hb]; rfl)
      (by rw [protocol?_trimRight, hp]; rfl) (by rw [field?_trimRight, hf]; rfl)
    all_goals rwa [trim_trimRight]

/-! ## Indentation -/

/-- Whether a shape is decided by the trimmed line once the line is known to be no declaration: it has
no parts. -/
def isPlain : Shape → Bool
  | block _ _ _ => false
  | protocol _ _ _ => false
  | field _ _ _ => false
  | _ => true

/-- **A line without parts keeps its shape at another indentation**, unless that could turn it into a
declaration. -/
theorem read_indent {t a : Text} (ht : trimRight t = t) (ha : isBlank a = true)
    (hcol : a ≠ [] ∨ (trim t).head? = some '}') (hp : (read t).isPlain = true) :
    read (a ++ trim t) = read t := by
  refine Reads.read_eq ?_
  have htrim : trim (a ++ trim t) = trim t := by rw [trim_append_of_isBlank_left ha, trim_trim]
  have hread := reads_read t
  revert hread hp
  generalize read t = sh
  intro hp hread
  cases hread with
  | blank h => exact .blank (by rw [htrim, h])
  | banner h => exact .banner (by rw [htrim, h])
  | comment h hb => exact .comment (by rw [htrim, h]) (by rw [htrim, hb])
  | closeBrace h => exact .closeBrace (by rw [htrim, h])
  | openBrace h => exact .openBrace (by rw [htrim, h])
  | block h => cases hp
  | protocol hb h => cases hp
  | field h => cases hp
  | other hne hh hc ho hb hp hf =>
    obtain ⟨e, he, hte⟩ := exists_append_trim ht
    refine .other ?_ ?_ ?_ ?_ ?_ ?_ ?_
    · rwa [htrim]
    · rwa [htrim]
    · rwa [htrim]
    · rwa [htrim]
    · rw [block?_append_of_isBlank ha, ← block?_append_of_isBlank he, ← hte, hb]
    · cases a with
      | nil =>
        have hhead := hcol.resolve_left (fun h => h rfl)
        obtain ⟨u, hu⟩ : ∃ u, trim t = '}' :: u := by
          cases hs : trim t with
          | nil => rw [hs] at hhead; cases hhead
          | cons c u => rw [hs] at hhead; cases hhead; exact ⟨u, rfl⟩
        rw [hu]
        exact protocol?_cons_eq_none isWord_closeBrace (by decide) u
      | cons c a =>
        have hc := isBlank_iff.mp ha c List.mem_cons_self
        refine protocol?_cons_eq_none (isWord_eq_false_of_isSpace hc) ?_ _
        rintro rfl
        cases hc
    · rw [field?_append_of_isBlank ha, ← field?_append_of_isBlank he, ← hte, hf]

/-- In a line without line feeds the content of a field goes to the end of the line. -/
theorem fieldContent_eq {body : Text} (h : '\n' ∉ body) : fieldContent body = trimLeft body := by
  obtain ⟨a, -, hb⟩ := exists_append_trimLeft body
  have hfeed : ∀ c ∈ trimLeft body, (c != '\n') = true := by
    intro c hc
    have hne : c ≠ '\n' := by
      rintro rfl
      exact h (by rw [hb]; exact List.mem_append_right _ hc)
    simpa using hne
  exact List.takeWhile_eq_self_iff.mpr hfeed

theorem read_eq_blank_iff {t : Text} : read t = .blank ↔ isBlank t = true := by
  rw [← trim_eq_nil_iff]
  constructor
  · intro h
    cases read_eq_iff.mp h with
    | blank htrim => exact htrim
  · exact fun h => Reads.read_eq (.blank h)

/-- Whether a shape is the declaration of a protocol, which stands in the first column. -/
def isDeclaration : Shape → Bool
  | protocol _ _ _ => true
  | _ => false

/-- **Lines that differ in their indentation have the same shape**, if neither is a declaration. -/
theorem read_eq_of_trimLeft_eq {t t' : Text} (h : trimLeft t = trimLeft t')
    (ht : (read t).isDeclaration = false) (ht' : (read t').isDeclaration = false) :
    read t' = read t := by
  have htrim : trim t' = trim t := by rw [trim, trim, h]
  have hblock : block? t' = block? t := by rw [block?, block?, h]
  have hfield : field? t' = field? t := by rw [field?, field?, nameAndNumber?, nameAndNumber?, h]
  refine Reads.read_eq ?_
  have hread := reads_read t
  revert hread ht
  generalize read t = sh
  intro ht hread
  cases hread with
  | blank h => exact .blank (htrim.trans h)
  | banner h => exact .banner (by rwa [htrim])
  | comment h hb => exact .comment (by rwa [htrim]) (by rwa [htrim])
  | closeBrace h => exact .closeBrace (htrim.trans h)
  | openBrace h => exact .openBrace (htrim.trans h)
  | block h => exact .block (hblock.trans h)
  | protocol hb h => cases ht
  | field h => exact .field (hfield.trans h)
  | other hne hh hc ho hb hp hf =>
    refine .other (by rwa [htrim]) (by rwa [htrim]) (by rwa [htrim]) (by rwa [htrim])
      (hblock.trans hb) ?_ (hfield.trans hf)
    by_contra hsome
    obtain ⟨sh, hsh⟩ := Option.ne_none_iff_exists'.mp hsome
    obtain ⟨name, number, rest, rfl⟩ := exists_of_protocol?_eq_some hsh
    rw [Reads.read_eq (.protocol (hblock.trans hb) hsh)] at ht'
    cases ht'

end Shape
end Sproto
