import Mathlib.Data.List.Nodup
import Sproto.Proofs.Layout.Emission

/-! # What formatting does not look at

Formatting reads the lines of a document that are not blank, without the white space at their ends
(`Style.format_eq_formatTokens`), and of most of these lines it does not see the indentation either.  Both
are said by one law: a change of the lines that keeps their shapes and their trimmed texts, and keeps the
lines outside protocols that are neither comments nor banners as they are, changes nothing
(`Style.formatTokens_map`).  One item is laid out as before (`Section.step_map`), and so is the whole run
(`Section.run_map`). -/
namespace Sproto

open Text

/-! ## Formatting a list of lines -/

namespace Style

/-- Formats the lines of a document that are not blank. -/
def formatTokens (s : Style) (ts : List Token) : Except Fault Text :=
  match ts.findSome? Token.fault? with
  | some f => .error f
  | none => (hasRange ts).map fun ranged => unlines (Section.layOut s
      ((if ranged then [] else [frontBanner s ts]) ++ Section.gather none ts))

/-- **Formatting sees the lines that are not blank**, without the white space at their ends. -/
theorem format_eq_formatTokens (s : Style) (source : Text) :
    s.format source = s.formatTokens (layoutTokens source) := by
  have hfault : (layoutTokens source).findSome? Token.fault? =
      (Token.ofLines ((lines source).map trimRight)).findSome? Token.fault? :=
    Token.findSome?_filter (fun t hb => by rw [Token.fault?, hb]; rfl) _
  have hrange : hasRange (layoutTokens source) =
      hasRange (Token.ofLines ((lines source).map trimRight)) := hasRange_filter _
  unfold format formatTokens Token.ofLines?
  rw [hfault, hrange]
  rcases (Token.ofLines ((lines source).map trimRight)).findSome? Token.fault? with _ | f
  · simp only [bind, Except.bind, sections_eq]
    rcases hasRange (Token.ofLines ((lines source).map trimRight)) with f | ranged <;> rfl
  · rfl

end Style

/-! ## Changes that are not seen -/

/-- Two lines that layout does not tell apart where they are met, inside a protocol or outside any. -/
structure Token.Passes (inside : Bool) (t t' : Token) : Prop where
  shape : t'.shape = t.shape
  trim : trim t'.text = trim t.text
  text : inside = false → t.shape ≠ .comment → t.shape ≠ .banner → t'.text = t.text

namespace Token.Passes

variable {inside : Bool} {t t' : Token}

theorem braceBalance_eq (h : Passes inside t t') : braceBalance t'.text = braceBalance t.text := by
  refine braceBalance_congr (.of_eq ?_)
  rw [← solid_trim, h.trim, solid_trim]

theorem rowOf_eq (h : Passes inside t t') (d e : Int) : Body.rowOf t' d e = Body.rowOf t d e := by
  unfold Body.rowOf
  rw [h.shape, h.trim]

theorem outside_eq (h : Passes false t t') (hb : t.shape ≠ .banner) :
    Section.outside t' = Section.outside t := by
  unfold Section.outside
  rw [h.shape]
  by_cases hc : t.shape = .comment
  · rw [if_pos hc, if_pos hc, Style.commentLine, Style.commentLine, h.trim]
  · rw [if_neg hc, if_neg hc, h.text rfl hc hb]

end Token.Passes

namespace Item

/-- The item with its lines changed. -/
def map (f : Token → Token) : Item → Item
  | line t => line (f t)
  | emptyBlock k ts => emptyBlock k (ts.map f)

/-- A change that keeps the shapes of lines changes items line by line. -/
theorem ofTokens_map {f : Token → Token} (hf : ∀ t, (f t).shape = t.shape) (ts : List Token) :
    ofTokens (ts.map f) = (ofTokens ts).map (map f) := by
  fun_induction ofTokens ts with
  | case1 => rfl
  | case2 t ts k rest hs ih =>
    rw [List.map_cons, Section.ofTokens_closed ((hf t).trans hs), ih]
    rfl
  | case3 t k rest hs =>
    rw [List.map_cons, Section.ofTokens_line (by simp [Token.opensEmpty, hf, hs])]
    rfl
  | case4 t k rest hs u us hu ih =>
    rw [List.map_cons, List.map_cons, Section.ofTokens_pair ((hf t).trans hs) ((hf u).trans hu), ih]
    rfl
  | case5 t k rest hs u us hu ih =>
    rw [List.map_cons, Section.ofTokens_line (by simp [Token.opensEmpty, hf, hs, hu]), ih]
    rfl
  | case6 t ts hclosed hopen ih =>
    rw [List.map_cons, Section.ofTokens_line, ih]
    · rfl
    · unfold Token.opensEmpty
      rw [hf]
      split <;> simp_all

end Item

namespace Section

/-- The lines that a run meets, each with whether a protocol is open where it is met. -/
def met : Option Body → List Item → List (Token × Bool)
  | _, [] => []
  | current, i :: is => i.tokens.map (·, current.isSome) ++ met (step current i).2 is

theorem map_fst_met (current : Option Body) (is : List Item) :
    (met current is).map Prod.fst = is.flatMap Item.tokens := by
  induction is generalizing current with
  | nil => rfl
  | cons i is ih =>
    rw [met, List.map_append, ih, List.flatMap_cons, List.map_map]
    exact congrArg (· ++ _) (List.map_id _)

theorem map_fst_met_ofTokens (ts : List Token) :
    (met none (Item.ofTokens ts)).map Prod.fst = ts := by
  rw [map_fst_met, Item.flatMap_tokens_ofTokens]

/-- **One item is laid out as before** when its lines pass for what they were. -/
theorem step_map {f : Token → Token} {current : Option Body} {i : Item}
    (h : ∀ t ∈ i.tokens, t.Passes current.isSome (f t))
    (hi : ∀ k ts, i = .emptyBlock k ts → ∀ t ∈ ts, t.shape ≠ .banner) :
    step current (i.map f) = step current i := by
  rcases i with t | ⟨k, ts⟩
  · have ht := h t (List.mem_singleton.mpr rfl)
    rcases t.cut_cases with hbanner | ⟨name, number, rest, hproto⟩ | hcut
    · simp only [Item.map, step, ht.shape, hbanner, ht.trim]
    · simp only [Item.map, step, ht.shape, hproto, Body.declare, ht.braceBalance_eq]
    · have hcut' : (f t).isCut = false := by rw [Token.isCut, ht.shape, ← Token.isCut, hcut]
      rcases current with _ | b
      · rw [Item.map, step_none_of_not_isCut hcut, step_none_of_not_isCut hcut',
          ht.outside_eq (Token.isCut_eq_false_iff.mp hcut).1]
      · have hadd : b.add (f t) = b.add t := by
          rw [Body.add, Body.add, ht.braceBalance_eq, ht.rowOf_eq]
        rw [Item.map, step_some_of_not_isCut hcut, step_some_of_not_isCut hcut', hadd]
  · rcases current with _ | b
    · simp only [Item.map, step, List.map_map]
      exact congrArg (·, none) (List.map_congr_left fun t ht => (h t ht).outside_eq (hi k ts rfl t ht))
    · rfl

/-- **A run over lines that pass for what they were gathers the same sections.** -/
theorem run_map {f : Token → Token} {current : Option Body} {is : List Item}
    (h : ∀ p ∈ met current is, p.1.Passes p.2 (f p.1))
    (his : ∀ i ∈ is, ∀ k ts, i = .emptyBlock k ts → ∀ t ∈ ts, t.shape ≠ .banner) :
    run current (is.map (Item.map f)) = run current is := by
  induction is generalizing current with
  | nil => rfl
  | cons i is ih =>
    obtain ⟨hi, htail⟩ := List.forall_mem_cons.mp his
    rw [met, List.forall_mem_append] at h
    have hstep : step current (i.map f) = step current i :=
      step_map (fun t ht => h.1 _ (List.mem_map_of_mem ht)) hi
    rw [List.map_cons, run, run, hstep, ih h.2 htail]

theorem gather_map {f : Token → Token} (hf : ∀ t, (f t).shape = t.shape) {ts : List Token}
    (h : ∀ p ∈ met none (Item.ofTokens ts), p.1.Passes p.2 (f p.1)) :
    gather none (ts.map f) = gather none ts := by
  rw [gather, Item.ofTokens_map hf, run_map h, gather]
  rintro i hi k us rfl t ht
  rcases Item.cases_of_mem_ofTokens hi with ⟨u, -, -, hu⟩ | ⟨u, -, k', rest, hs, hu⟩ |
    ⟨u, -, v, -, k', rest, hs, hv, hu⟩
  · cases hu
  · cases hu
    rw [List.mem_singleton.mp ht, hs]
    exact fun hb => by cases hb
  · cases hu
    rcases List.mem_pair.mp ht with rfl | rfl
    · rw [hs]
      exact fun hb => by cases hb
    · rw [hv]
      exact fun hb => by cases hb

end Section

/-- **A change that layout does not see changes nothing**, faults included. -/
theorem Style.formatTokens_map (s : Style) {f : Token → Token} (hf : ∀ t, (f t).shape = t.shape)
    {ts : List Token}
    (h : ∀ p ∈ Section.met none (Item.ofTokens ts), p.1.Passes p.2 (f p.1)) :
    s.formatTokens (ts.map f) = s.formatTokens ts := by
  have hfault : (ts.map f).findSome? Token.fault? = ts.findSome? Token.fault? := by
    rw [List.findSome?_map]
    congr 1
    funext t
    rw [Function.comp, Token.fault?, Token.fault?, hf]
  have hrange : hasRange (ts.map f) = hasRange ts := by
    refine hasRange_congr ?_
    rw [List.filterMap_map]
    refine List.filterMap_congr fun t ht => ?_
    rw [← Section.map_fst_met_ofTokens ts] at ht
    obtain ⟨p, hp, rfl⟩ := List.mem_map.mp ht
    rw [Function.comp, Token.bannerText?, Token.bannerText?, hf, (h p hp).trim]
  have hfront : frontBanner s (ts.map f) = frontBanner s ts := by
    have hnumber : frontRange.protocolNumber? ∘ f = frontRange.protocolNumber? := by
      funext t
      rw [Function.comp, frontRange.protocolNumber?, frontRange.protocolNumber?, hf]
    rw [frontBanner, frontBanner, frontRange, frontRange, List.findSome?_map, hnumber]
  rw [formatTokens, formatTokens, hfault, hrange, hfront, Section.gather_map hf h]

/-! ## Documents -/

/-- The lines of a document that are not blank, without the white space at their ends. -/
def keptLines (source : Text) : List Text := ((lines source).map trimRight).filter (· ≠ [])

theorem map_text_layoutTokens_eq_keptLines (source : Text) :
    (layoutTokens source).map Token.text = keptLines source := by
  rw [map_text_layoutTokens, keptLines]
  refine List.filter_congr fun l hl => ?_
  obtain ⟨u, -, rfl⟩ := List.mem_map.mp hl
  have hblank : Shape.read (trimRight u) = .blank ↔ trimRight u = [] := by
    rw [Shape.read_eq_blank_iff, ← trimRight_eq_nil_iff, trimRight_trimRight]
  simp only [ne_eq, hblank]

/-- A line without its place in the document. -/
def Token.unplaced (t : Token) : Token := { t with index := 0 }

/-- **Documents with the same lines that are not blank are formatted the same.** -/
theorem Style.format_eq_of_keptLines (s : Style) {source source' : Text}
    (h : keptLines source = keptLines source') : s.format source = s.format source' := by
  have hread : ∀ t : Text, s.formatTokens (layoutTokens t) =
      s.formatTokens ((keptLines t).map (Token.read 0)) := by
    intro t
    have hmap : (layoutTokens t).map Token.unplaced = (keptLines t).map (Token.read 0) := by
      rw [← map_text_layoutTokens_eq_keptLines, List.map_map]
      refine List.map_congr_left fun u hu => ?_
      rw [Function.comp, Token.read, ← (proper_of_mem_layoutTokens hu).shape_eq, Token.unplaced]
    have hunplaced : s.formatTokens ((layoutTokens t).map Token.unplaced) =
        s.formatTokens (layoutTokens t) :=
      s.formatTokens_map (f := Token.unplaced) (fun _ => rfl) fun p _ => ⟨rfl, rfl, fun _ _ _ => rfl⟩
    rw [← hunplaced, hmap]
  rw [s.format_eq_formatTokens, s.format_eq_formatTokens, hread, hread, h]

/-! ## Indentation -/

/-- The lines of a document that are met while a protocol is open. -/
def openLines (source : Text) : List Nat :=
  (Section.met none (Item.ofTokens (layoutTokens source))).filterMap fun p =>
    if p.2 then some p.1.index else none

/-- The line at a place with another text. -/
def Token.reset (i : Nat) (l : Text) (t : Token) : Token :=
  if t.index = i then { t with text := l } else t

theorem Token.shape_reset (i : Nat) (l : Text) (t : Token) : (t.reset i l).shape = t.shape := by
  unfold reset
  split <;> rfl

theorem Token.passes_reset {i : Nat} {l : Text} {t : Token} {inside : Bool}
    (h : t.index = i → trim l = trim t.text ∧
      (inside = true ∨ t.shape = .comment ∨ t.shape = .banner)) : t.Passes inside (t.reset i l) := by
  refine ⟨shape_reset i l t, ?_, fun hinside hc hb => ?_⟩ <;> unfold reset <;> split
  · next hindex => exact (h hindex).1
  · rfl
  · next hindex =>
    have hseen := (h hindex).2
    simp_all
  · rfl

/-- A line that stands at a place. -/
theorem Token.eq_read_of_getElem? {ls : List Text} {t : Token} (ht : t ∈ ofLines ls) {i : Nat}
    (hi : t.index = i) {l : Text} (hl : ls[i]? = some l) : t = read i l := by
  obtain ⟨k, hk, rfl⟩ := List.mem_mapIdx.mp ht
  rw [read_index] at hi
  subst hi
  rw [List.getElem?_eq_getElem hk] at hl
  rw [Option.some.inj hl]

/-- A line that is exchanged for one of the same shape. -/
theorem Token.ofLines_set {ls : List Text} {i : Nat} {l : Text}
    (h : ∀ l₀, ls[i]? = some l₀ → Shape.read l = Shape.read l₀) :
    ofLines (ls.set i l) = (ofLines ls).map (reset i l) := by
  refine List.ext_getElem (by simp [ofLines]) fun k hk hk' => ?_
  simp only [ofLines, List.getElem_mapIdx, List.getElem_map, reset, read_index, List.getElem_set]
  by_cases hki : k = i
  · subst hki
    have hshape := h _ (List.getElem?_eq_getElem (by simpa [ofLines] using hk))
    rw [if_pos rfl, if_pos rfl, read, hshape]
    rfl
  · rw [if_neg (Ne.symm hki), if_neg hki]

/-- The lines that layout reads stand at different places. -/
theorem nodup_index_layoutTokens (source : Text) : ((layoutTokens source).map Token.index).Nodup := by
  have hindex : ∀ ls : List Text, (Token.ofLines ls).map Token.index = List.range ls.length := by
    intro ls
    exact List.ext_getElem (by simp [Token.ofLines]) fun k hk hk' => by simp [Token.ofLines]
  have hall : ((Token.ofLines ((lines source).map trimRight)).map Token.index).Nodup := by
    rw [hindex]
    exact List.nodup_range
  exact hall.sublist (List.filter_sublist.map _)

/-- A place where a line is met inside a protocol is one where none is met outside. -/
theorem inside_of_mem_openLines {source : Text} {p : Token × Bool}
    (hp : p ∈ Section.met none (Item.ofTokens (layoutTokens source)))
    (h : p.1.index ∈ openLines source) : p.2 = true := by
  obtain ⟨q, hq, hsome⟩ := List.mem_filterMap.mp h
  obtain ⟨hinside, hindex⟩ := Option.ite_none_right_eq_some.mp hsome
  have hnodup := nodup_index_layoutTokens source
  rw [← Section.map_fst_met_ofTokens (layoutTokens source), List.map_map] at hnodup
  rw [← List.inj_on_of_nodup_map hnodup hq hp (Option.some.inj hindex), hinside]

/-- **Where a line is met inside a protocol its indentation is not seen**, nor is that of a comment or of a
banner anywhere. -/
theorem Style.format_eq_of_indent (s : Style) {source source' : Text} {pre post : List Text} {l l' : Text}
    (h : lines source = pre ++ l :: post) (h' : lines source' = pre ++ l' :: post)
    (htrim : trimLeft l = trimLeft l') (hl : (Shape.read l).isDeclaration = false)
    (hl' : (Shape.read l').isDeclaration = false)
    (hmet : pre.length ∈ openLines source ∨ Shape.read l = .comment ∨ Shape.read l = .banner) :
    s.format source = s.format source' := by
  have hshape : Shape.read (trimRight l') = Shape.read (trimRight l) := by
    rw [Shape.read_trimRight, Shape.read_trimRight, Shape.read_eq_of_trimLeft_eq htrim hl hl']
  have hset : (lines source').map trimRight =
      ((lines source).map trimRight).set pre.length (trimRight l') := by
    rw [h, h']
    simp
  have hget : ((lines source).map trimRight)[pre.length]? = some (trimRight l) := by
    rw [h]
    simp
  have htokens : layoutTokens source' =
      (layoutTokens source).map (Token.reset pre.length (trimRight l')) := by
    rw [layoutTokens, layoutTokens, hset, Token.ofLines_set, List.filter_map]
    · congr 1
      refine List.filter_congr fun t _ => ?_
      rw [Function.comp, Token.shape_reset]
    · intro l₀ hl₀
      rw [hshape, Option.some.inj (hget.symm.trans hl₀)]
  rw [s.format_eq_formatTokens, s.format_eq_formatTokens, htokens, s.formatTokens_map]
  · exact Token.shape_reset _ _
  · intro p hp
    refine Token.passes_reset fun hindex => ?_
    have hmem : p.1 ∈ layoutTokens source := by
      rw [← Section.map_fst_met_ofTokens (layoutTokens source)]
      exact List.mem_map_of_mem hp
    have hread : p.1 = Token.read pre.length (trimRight l) :=
      Token.eq_read_of_getElem? (List.mem_filter.mp hmem).1 hindex hget
    refine ⟨?_, ?_⟩
    · rw [hread, Token.read_text, trim_trimRight, trim_trimRight, trim, trim, htrim]
    · rcases hmet with hopen | hcomment | hbanner
      · exact Or.inl (inside_of_mem_openLines hp (by rwa [hindex]))
      · refine Or.inr (Or.inl ?_)
        rw [hread, Token.read_shape, Shape.read_trimRight, hcomment]
        rfl
      · refine Or.inr (Or.inr ?_)
        rw [hread, Token.read_shape, Shape.read_trimRight, hbanner]
        rfl

/-! ## Line ends and blank lines -/

/-- The document with a carriage return before every line feed. -/
def withReturns (source : Text) : Text :=
  source.flatMap fun c => if c = '\n' then ['\r', '\n'] else [c]

theorem trimRight_cons_congr {t t' : Text} (h : trimRight t = trimRight t') (c : Char) :
    trimRight (c :: t) = trimRight (c :: t') := by
  obtain ⟨b, hb, ht⟩ := exists_trimRight_append t
  obtain ⟨b', hb', ht'⟩ := exists_trimRight_append t'
  rw [ht, ht', ← h, ← List.cons_append, ← List.cons_append, trimRight_append_of_isBlank _ hb,
    trimRight_append_of_isBlank _ hb']

theorem map_trimRight_lines (t : Text) :
    (lines t).map trimRight = (t.splitOn '\n').map trimRight := by
  rw [lines, List.map_map]
  exact List.map_congr_left fun l _ => trimRight_dropReturn l

/-- Carriage returns at the ends of lines are white space there. -/
theorem map_trimRight_lines_withReturns (source : Text) :
    (lines (withReturns source)).map trimRight = (lines source).map trimRight := by
  rw [map_trimRight_lines, map_trimRight_lines]
  induction source with
  | nil => rfl
  | cons c t ih =>
    rw [withReturns, List.flatMap_cons, ← withReturns]
    by_cases hc : c = '\n'
    · rw [if_pos hc, hc, List.cons_append, List.singleton_append, List.splitOn_cons_eq_if_modifyHead,
        if_neg (by decide), List.splitOn_cons_eq_if_modifyHead, if_pos (beq_self_eq_true _),
        List.splitOn_cons_eq_if_modifyHead, if_pos (beq_self_eq_true _)]
      have hreturn : trimRight ['\r'] = [] := by decide
      simpa [hreturn] using ih
    · rw [if_neg hc, List.singleton_append, List.splitOn_cons_eq_if_modifyHead,
        if_neg (by simpa using hc), List.splitOn_cons_eq_if_modifyHead, if_neg (by simpa using hc)]
      obtain ⟨l, ls, hl⟩ := List.exists_cons_of_ne_nil (List.splitOn_ne_nil '\n' t)
      obtain ⟨l', ls', hl'⟩ := List.exists_cons_of_ne_nil (List.splitOn_ne_nil '\n' (withReturns t))
      rw [hl, hl', List.map_cons, List.map_cons, List.cons.injEq] at ih
      rw [hl, hl', List.modifyHead_cons, List.modifyHead_cons, List.map_cons, List.map_cons, ih.2,
        trimRight_cons_congr ih.1]

theorem keptLines_of_blank {source source' : Text} {pre mid post : List Text}
    (h : lines source = pre ++ post) (h' : lines source' = pre ++ (mid ++ post))
    (hmid : ∀ l ∈ mid, isBlank l = true) : keptLines source = keptLines source' := by
  have hnone : (mid.map trimRight).filter (· ≠ []) = [] := by
    refine List.filter_eq_nil_iff.mpr fun l hl => ?_
    obtain ⟨u, hu, rfl⟩ := List.mem_map.mp hl
    simp [trimRight_eq_nil_iff.mpr (hmid u hu)]
  rw [keptLines, keptLines, h, h', List.map_append, List.map_append, List.map_append,
    List.filter_append, List.filter_append, List.filter_append, hnone, List.nil_append]

/-- **What formatting depends on**, in any style: the lines of the document that are not blank, without the
white space at their ends, and of those that are met inside a protocol, of comments and of banners not the
indentation either, as long as no declaration in the first column is made or unmade.  So neither carriage
returns at the ends of lines nor blank lines matter. -/
theorem format_depends (s : Style) :
    (∀ source source', keptLines source = keptLines source' → s.format source = s.format source') ∧
      (∀ source source' pre l l' post, lines source = pre ++ l :: post →
        lines source' = pre ++ l' :: post → trimLeft l = trimLeft l' →
        (Shape.read l).isDeclaration = false → (Shape.read l').isDeclaration = false →
        (pre.length ∈ openLines source ∨ Shape.read l = .comment ∨ Shape.read l = .banner) →
        s.format source = s.format source') ∧
      (∀ source, s.format (withReturns source) = s.format source) ∧
      ∀ source source' pre mid post, lines source = pre ++ post →
        lines source' = pre ++ (mid ++ post) → (∀ l ∈ mid, isBlank l = true) →
        s.format source = s.format source' := by
  refine ⟨fun source source' => s.format_eq_of_keptLines, ?_, ?_, ?_⟩
  · intro source source' pre l l' post h h' htrim hl hl' hmet
    exact s.format_eq_of_indent h h' htrim hl hl' hmet
  · intro source
    refine s.format_eq_of_keptLines ?_
    rw [keptLines, keptLines, map_trimRight_lines_withReturns]
  · intro source source' pre mid post h h' hmid
    exact s.format_eq_of_keptLines (keptLines_of_blank h h' hmid)

/-- A protocol with a block that is empty but for a blank line. -/
def levelSource : Text := "foo 1 \x7b\nrequest \x7b\n \n\x7d\n\x7d".toList

/-- The same document with the block further to the right. -/
def slantedSource : Text := "foo 1 \x7b\n\t\t request \x7b\n \n\x7d\n\x7d".toList

/-- The same document without the blank line. -/
def denseSource : Text := "foo 1 \x7b\nrequest \x7b\n\x7d\n\x7d".toList

theorem format_levelSource :
    1 ∈ openLines levelSource ∧ ({} : Style).format levelSource = ({} : Style).format slantedSource ∧
      ({} : Style).format (withReturns levelSource) = ({} : Style).format levelSource ∧
      keptLines denseSource = keptLines levelSource ∧
      ({} : Style).format denseSource = ({} : Style).format levelSource := by
  obtain ⟨hkept, hindent, hreturns, -⟩ := format_depends {}
  have hopen : 1 ∈ openLines levelSource := by decide +kernel
  have hdense : keptLines denseSource = keptLines levelSource := by decide +kernel
  refine ⟨hopen, ?_, hreturns levelSource, hdense, hkept _ _ hdense⟩
  exact hindent levelSource slantedSource ["foo 1 \x7b".toList] "request \x7b".toList
    "\t\t request \x7b".toList [[' '], ['\x7d'], ['\x7d']] (by decide +kernel) (by decide +kernel)
    (by decide +kernel) (by decide +kernel) (by decide +kernel) (Or.inl hopen)

end Sproto
