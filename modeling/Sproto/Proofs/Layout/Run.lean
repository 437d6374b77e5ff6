import Sproto.Proofs.Layout.Line

/-! # The lines that a run writes

Laying out a document writes it line by line, but for two things: an empty block inside a protocol becomes
one line, and a protocol that is cut off is given a closing brace.  The items of a document are taken apart
into its lines here, and what a run does is said line by line: the sections that it gathers
(`Section.gather`), the depth behind a line (`nest`), and the lines that it writes
(`Section.writtenLines`).

`Section.flatMap_lines_run`: the lines of all sections are the lines that are written item by item. -/
namespace Sproto

open Text

/-! ## Sections token by token -/

namespace Token

/-- Whether a line ends the protocol in which it is met: it is a banner or a declaration. -/
def isCut (t : Token) : Bool :=
  match t.shape with
  | .banner => true
  | .protocol _ _ _ => true
  | _ => false

theorem isCut_eq_false_iff {t : Token} :
    t.isCut = false ↔
      t.shape ≠ .banner ∧ ∀ name number rest, t.shape ≠ .protocol name number rest := by
  unfold isCut
  cases t.shape <;> simp

/-- A line is a banner, a declaration, or a line that ends no protocol. -/
theorem cut_cases (t : Token) :
    t.shape = .banner ∨ (∃ name number rest, t.shape = .protocol name number rest) ∨
      t.isCut = false := by
  unfold isCut
  cases t.shape <;> simp

theorem Alike.isCut_eq {t t' : Token} (h : t.Alike t') : t'.isCut = t.isCut := by
  have hshape := h.shape
  unfold isCut
  generalize t.shape = sh at hshape
  generalize t'.shape = sh' at hshape
  cases hshape <;> rfl

/-- Whether a line and those behind it begin with an empty block. -/
def opensEmpty (t : Token) (ts : List Token) : Bool :=
  match t.shape with
  | .block _ true _ => true
  | .block _ false _ => ts.head?.any (·.shape = .closeBrace)
  | _ => false

end Token

/-- How many braces are open, if any are. -/
def keepOpen (d : Int) : Option Int := if d ≤ 0 then none else some d

/-- The depth behind a line that is met at a depth and is no empty block. -/
def nest (depth : Option Int) (t : Token) : Option Int :=
  match t.shape with
  | .banner => none
  | .protocol _ _ _ => keepOpen (braceBalance t.text)
  | _ => depth.bind fun d => keepOpen (d + braceBalance t.text)

theorem pos_of_keepOpen {d e : Int} (h : keepOpen d = some e) : 0 < e := by
  unfold keepOpen at h
  split at h
  · cases h
  · cases h
    omega

/-- An open protocol has an open brace. -/
theorem pos_of_nest {depth : Option Int} {t : Token} {e : Int} (h : nest depth t = some e) :
    0 < e := by
  unfold nest at h
  split at h
  · cases h
  · exact pos_of_keepOpen h
  · obtain ⟨d, -, hd⟩ := Option.bind_eq_some_iff.mp h
    exact pos_of_keepOpen hd

theorem Body.map_depth_goesOn (b : Body) : b.goesOn.map Body.depth = keepOpen b.depth := by
  unfold Body.goesOn keepOpen
  split <;> rfl

namespace Section

/-- The depth behind a line is that of the protocol that is open behind it. -/
theorem map_depth_step_line (current : Option Body) (t : Token) :
    (step current (.line t)).2.map Body.depth = nest (current.map Body.depth) t := by
  cases h : t.shape with
  | banner => simp only [step, nest, h, Option.map_none]
  | protocol name number rest =>
    simp only [step, nest, h, Body.map_depth_goesOn]
    rfl
  | _ =>
    cases current with
    | none => simp only [step, nest, h, Option.map_none, Option.bind_none]
    | some b =>
      simp only [step, nest, h, Body.map_depth_goesOn, Option.map_some, Option.bind_some]
      rfl

theorem step_none_of_not_isCut {t : Token} (h : t.isCut = false) :
    step none (.line t) = ([outside t], none) := by
  obtain ⟨hb, hp⟩ := Token.isCut_eq_false_iff.mp h
  cases hs : t.shape with
  | banner => exact absurd hs hb
  | protocol name number rest => exact absurd hs (hp name number rest)
  | _ => simp only [step, hs]

theorem step_some_of_not_isCut {t : Token} (h : t.isCut = false) (b : Body) :
    step (some b) (.line t) = ((b.add t).ended, (b.add t).goesOn) := by
  obtain ⟨hb, hp⟩ := Token.isCut_eq_false_iff.mp h
  cases hs : t.shape with
  | banner => exact absurd hs hb
  | protocol name number rest => exact absurd hs (hp name number rest)
  | _ => simp only [step, hs]

theorem lineOf_none_of_not_isCut (s : Style) {t : Token} (h : t.isCut = false) :
    s.lineOf none t = Style.outsideLine t := by
  obtain ⟨hb, hp⟩ := Token.isCut_eq_false_iff.mp h
  exact Style.lineOf_none s hb hp

theorem line_rowOf (s : Style) {t : Token} (h : t.isCut = false) (d : Int) :
    (Body.rowOf t d (d + braceBalance t.text)).line s = s.lineOf (some d) t := by
  obtain ⟨hb, hp⟩ := Token.isCut_eq_false_iff.mp h
  cases hs : t.shape with
  | banner => exact absurd hs hb
  | protocol name number rest => exact absurd hs (hp name number rest)
  | _ => simp only [Style.lineOf, hs]

/-- The sections that are gathered from a list of tokens. -/
def gather (current : Option Body) (ts : List Token) : List Section :=
  run current (Item.ofTokens ts)

theorem ofTokens_line {t : Token} {ts : List Token} (h : t.opensEmpty ts = false) :
    Item.ofTokens (t :: ts) = .line t :: Item.ofTokens ts := by
  unfold Token.opensEmpty at h
  cases hs : t.shape with
  | block k closed rest =>
    cases closed with
    | true => rw [hs] at h; cases h
    | false =>
      rw [hs] at h
      cases ts with
      | nil => simp [Item.ofTokens, hs]
      | cons u us =>
        have hu : u.shape ≠ .closeBrace := by simpa using h
        rw [Item.ofTokens]
        simp only [hs, if_neg hu]
  | _ =>
    rw [Item.ofTokens.eq_def]
    simp only [hs]

theorem ofTokens_closed {t : Token} {k : BlockKind} {rest : Text} (h : t.shape = .block k true rest)
    (ts : List Token) : Item.ofTokens (t :: ts) = .emptyBlock k [t] :: Item.ofTokens ts := by
  rw [Item.ofTokens.eq_def]
  simp only [h]

theorem ofTokens_pair {t u : Token} {k : BlockKind} {rest : Text}
    (h : t.shape = .block k false rest) (hu : u.shape = .closeBrace) (us : List Token) :
    Item.ofTokens (t :: u :: us) = .emptyBlock k [t, u] :: Item.ofTokens us := by
  rw [Item.ofTokens.eq_def]
  simp only [h, if_pos hu]

theorem gather_line (current : Option Body) {t : Token} {ts : List Token}
    (h : t.opensEmpty ts = false) :
    gather current (t :: ts) =
      (step current (.line t)).1 ++ gather (step current (.line t)).2 ts := by
  rw [gather, ofTokens_line h, run, gather]

theorem gather_closed {t : Token} {k : BlockKind} {rest : Text} (h : t.shape = .block k true rest)
    (b : Body) (ts : List Token) :
    gather (some b) (t :: ts) = gather (some (b.addEmptyBlock k)) ts := by
  rw [gather, ofTokens_closed h]
  rfl

theorem gather_pair {t u : Token} {k : BlockKind} {rest : Text} (h : t.shape = .block k false rest)
    (hu : u.shape = .closeBrace) (b : Body) (us : List Token) :
    gather (some b) (t :: u :: us) = gather (some (b.addEmptyBlock k)) us := by
  rw [gather, ofTokens_pair h hu]
  rfl

/-- A line that begins an empty block is one, or is followed by its closing brace. -/
theorem cases_of_opensEmpty {t : Token} {ts : List Token} (h : t.opensEmpty ts = true) :
    (∃ k rest, t.shape = .block k true rest) ∨
      ∃ k rest u us, t.shape = .block k false rest ∧ u.shape = .closeBrace ∧ ts = u :: us := by
  unfold Token.opensEmpty at h
  split at h
  · next k rest hs => exact Or.inl ⟨k, rest, hs⟩
  · next k rest hs =>
    cases ts with
    | nil => cases h
    | cons u us => exact Or.inr ⟨k, rest, u, us, hs, by simpa using h, rfl⟩
  · cases h

theorem opensEmpty_closeBrace {u : Token} (hu : u.shape = .closeBrace) (us : List Token) :
    u.opensEmpty us = false := by
  simp only [Token.opensEmpty, hu]

/-- Outside any protocol an empty block is nothing special. -/
theorem gather_none (t : Token) (ts : List Token) :
    gather none (t :: ts) = (step none (.line t)).1 ++ gather (step none (.line t)).2 ts := by
  cases h : t.opensEmpty ts with
  | false => exact gather_line none h
  | true =>
    rcases cases_of_opensEmpty h with ⟨k, rest, hs⟩ | ⟨k, rest, u, us, hs, hu, rfl⟩
    · rw [gather, ofTokens_closed hs, run]
      simp only [step, hs]
      rfl
    · rw [gather, ofTokens_pair hs hu, run]
      simp only [step, hs]
      rw [gather_line none (opensEmpty_closeBrace hu us)]
      simp only [step, hu, gather]
      rfl

end Section

/-! ## The lines of a run -/

namespace Item

/-- The lines of an item. -/
def tokens : Item → List Token
  | line t => [t]
  | emptyBlock _ ts => ts

/-- The items of a list of lines hold these lines. -/
theorem flatMap_tokens_ofTokens (ts : List Token) : (ofTokens ts).flatMap tokens = ts := by
  fun_induction ofTokens ts with
  | case1 => rfl
  | case2 t ts k rest hs ih => simp [tokens, ih]
  | case3 t k rest hs => rfl
  | case4 t k rest hs u us hu ih => simp [tokens, ih]
  | case5 t k rest hs u us hu ih => simp [tokens, ih]
  | case6 t ts hclosed hopen ih => simp [tokens, ih]

/-- What the items of a list of lines are: lines by themselves, and empty blocks on one line or two. -/
theorem cases_of_mem_ofTokens {ts : List Token} {i : Item} (h : i ∈ ofTokens ts) :
    (∃ t ∈ ts, (∀ k rest, t.shape ≠ .block k true rest) ∧ i = .line t) ∨
      (∃ t ∈ ts, ∃ k rest, t.shape = .block k true rest ∧ i = .emptyBlock k [t]) ∨
      ∃ t ∈ ts, ∃ u ∈ ts, ∃ k rest, t.shape = .block k false rest ∧ u.shape = .closeBrace ∧
        i = .emptyBlock k [t, u] := by
  fun_induction ofTokens ts with
  | case1 => simp at h
  | case2 t ts k rest hs ih => grind
  | case3 t k rest hs => grind
  | case4 t k rest hs u us hu ih => grind
  | case5 t k rest hs u us hu ih => grind
  | case6 t ts hclosed hopen ih => grind

/-- Whether an item cuts an open protocol off. -/
def isCut : Item → Bool
  | line t => t.isCut
  | emptyBlock _ _ => false

/-- The lines that are written for an item met at a depth. -/
def written (s : Style) (depth : Option Int) : Item → List Text
  | line t => [s.lineOf depth t]
  | emptyBlock kind ts =>
      match depth with
      | none => ts.map Style.outsideLine
      | some _ => [(Row.emptyBlock kind).line s]

end Item

namespace Section

/-- The lines of the protocol that is open. -/
def pending (s : Style) : Option Body → List Text
  | none => []
  | some b => b.rows.map (Row.line s)

/-- The lines that are added to a protocol that is cut off. -/
def closing : Option Body → List Text
  | none => []
  | some b => if b.rows.getLast?.any Row.isClosing then [] else [['}']]

/-- The lines that a run writes. -/
def writtenLines (s : Style) : Option Body → List Item → List Text
  | current, [] => closing current
  | current, i :: is =>
      (if i.isCut then closing current else []) ++ i.written s (current.map Body.depth) ++
        writtenLines s (step current i).2 is

theorem lines_outside (s : Style) (t : Token) : (outside t).lines s = [Style.outsideLine t] := by
  unfold outside Style.outsideLine
  split <;> rfl

theorem flatMap_lines_cutOff (s : Style) (current : Option Body) :
    (cutOff current).flatMap (lines s) = pending s current ++ closing current := by
  cases current with
  | none => rfl
  | some b =>
    simp only [cutOff, lines, pending, closing, Body.cutOff, List.flatMap_cons, List.flatMap_nil,
      List.append_nil]
    split
    · simp
    · simp [Row.closing, Row.line, Style.margin]

/-- A body is written whole, or stays pending. -/
theorem flatMap_lines_ended (s : Style) (b : Body) :
    b.ended.flatMap (lines s) ++ pending s b.goesOn = b.rows.map (Row.line s) := by
  unfold Body.ended Body.goesOn
  split <;> simp [lines, pending]

/-- **One item writes its own lines**, behind the closing brace of a protocol that it cuts off. -/
theorem flatMap_lines_step (s : Style) (current : Option Body) (i : Item) :
    (step current i).1.flatMap (lines s) ++ pending s (step current i).2 =
      pending s current ++ ((if i.isCut then closing current else []) ++
        i.written s (current.map Body.depth)) := by
  cases i with
  | emptyBlock kind ts =>
    cases current with
    | none =>
      simp only [step, Item.isCut, Item.written, pending, Option.map_none, List.append_nil,
        Bool.false_eq_true, if_false, List.nil_append]
      induction ts with
      | nil => rfl
      | cons t ts ih => simp [lines_outside, ih]
    | some b => simp [step, Item.isCut, Item.written, pending, Body.addEmptyBlock]
  | line t =>
    cases h : t.shape with
    | banner =>
      simp [step, h, Item.isCut, Token.isCut, Item.written, flatMap_lines_cutOff, pending, lines,
        Style.lineOf]
    | protocol name number rest =>
      simp only [step, h, Item.isCut, Token.isCut, Item.written, Style.lineOf, if_true,
        List.flatMap_append, flatMap_lines_cutOff, List.append_assoc]
      rw [flatMap_lines_ended]
      rfl
    | _ =>
      cases current with
      | none =>
        simp [step, h, Item.isCut, Token.isCut, Item.written, pending, Style.lineOf, lines_outside]
      | some b =>
        simp only [step, h, Item.isCut, Token.isCut, Item.written, Style.lineOf, Option.map_some,
          Bool.false_eq_true, if_false, List.nil_append]
        rw [flatMap_lines_ended]
        simp [Body.add, pending]

/-- **The lines of the sections of a run are the lines that it writes.** -/
theorem flatMap_lines_run (s : Style) (current : Option Body) (is : List Item) :
    (run current is).flatMap (lines s) = pending s current ++ writtenLines s current is := by
  induction is generalizing current with
  | nil => exact flatMap_lines_cutOff s current
  | cons i is ih =>
    rw [run, List.flatMap_append, ih, ← List.append_assoc, flatMap_lines_step, writtenLines]
    simp only [List.append_assoc]

/-! ## The lines of a run one by one -/

theorem writtenLines_none (s : Style) (t : Token) (ts : List Token) :
    writtenLines s none (Item.ofTokens (t :: ts)) =
      s.lineOf none t :: writtenLines s (step none (.line t)).2 (Item.ofTokens ts) := by
  cases h : t.opensEmpty ts with
  | false =>
    rw [ofTokens_line h, writtenLines]
    simp [closing, Item.written]
  | true =>
    rcases cases_of_opensEmpty h with ⟨k, rest, hs⟩ | ⟨k, rest, u, us, hs, hu, rfl⟩
    · rw [ofTokens_closed hs, writtenLines]
      simp [closing, Item.written, step, hs, Style.lineOf]
    · rw [ofTokens_pair hs hu, writtenLines, ofTokens_line (opensEmpty_closeBrace hu us)]
      simp [closing, Item.written, step, hs, hu, Style.lineOf, writtenLines]

/-- A line of an open protocol that is no empty block is written by itself. -/
theorem writtenLines_line (s : Style) (b : Body) {t : Token} {ts : List Token}
    (hempty : t.opensEmpty ts = false) (hcut : t.isCut = false) :
    writtenLines s (some b) (Item.ofTokens (t :: ts)) =
      s.lineOf (some b.depth) t :: writtenLines s (step (some b) (.line t)).2 (Item.ofTokens ts) := by
  rw [ofTokens_line hempty, writtenLines]
  simp only [Item.isCut, hcut, Bool.false_eq_true, if_false, List.nil_append, Item.written,
    Option.map_some, List.cons_append]

/-- An empty block of an open protocol is written on one line, whether it was read from one or two. -/
theorem writtenLines_closed (s : Style) (b : Body) {t : Token} {k : BlockKind} {rest : Text}
    (h : t.shape = .block k true rest) (ts : List Token) :
    writtenLines s (some b) (Item.ofTokens (t :: ts)) =
      (Row.emptyBlock k).line s :: writtenLines s (some (b.addEmptyBlock k)) (Item.ofTokens ts) := by
  rw [ofTokens_closed h]
  rfl

theorem writtenLines_pair (s : Style) (b : Body) {t u : Token} {k : BlockKind} {rest : Text}
    (h : t.shape = .block k false rest) (hu : u.shape = .closeBrace) (us : List Token) :
    writtenLines s (some b) (Item.ofTokens (t :: u :: us)) =
      (Row.emptyBlock k).line s :: writtenLines s (some (b.addEmptyBlock k)) (Item.ofTokens us) := by
  rw [ofTokens_pair h hu]
  rfl

end Section
end Sproto
