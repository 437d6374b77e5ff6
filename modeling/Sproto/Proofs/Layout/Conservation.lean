import Sproto.Proofs.Layout.Document
import Sproto.Proofs.Layout.Pieces

/-! # What formatting keeps of a text

Formatting adds and drops white space, adds a banner and closing braces, and writes numbers anew.  Of
the solid text it drops one thing: what follows the braces of an empty block inside a protocol
(`droppedText`).  `solid_sublist_format` says exactly when the solid text of a document survives: when
nothing is dropped, or nothing but closing braces that are made up for at once by the ones that are
added to a protocol that is cut off.  In a balanced document none are added. -/
namespace Sproto

open Text

/-! ## The pieces of a document -/

/-- The pieces of a line of an empty block inside a protocol: what follows its braces is dropped. -/
def Token.emptiedPieces (t : Token) : List Piece :=
  match t.shape with
  | .block k closed rest =>
      [.kept (k.word ++ '{' :: if closed then ['}'] else []), .dropped (solid rest)]
  | _ => [.kept (solid t.text)]

namespace Item

/-- The pieces of an item. -/
def pieces (current : Option Body) : Item → List Piece
  | line t => [.kept (solid t.text)]
  | emptyBlock _ ts =>
      match current with
      | none => ts.map fun t => .kept (solid t.text)
      | some _ => ts.flatMap Token.emptiedPieces

end Item

namespace Section

/-- The pieces of the closing brace that is added to a protocol that is cut off. -/
def closingPieces (current : Option Body) : List Piece := (closing current).map fun _ => .closing

/-- The pieces of a run. -/
def pieces : Option Body → List Item → List Piece
  | current, [] => closingPieces current
  | current, i :: is =>
      (if i.isCut then closingPieces current else []) ++ i.pieces current ++
        pieces (step current i).2 is

end Section

/-- The pieces of the solid text of a document. -/
def solidPieces (source : Text) : List Piece :=
  Section.pieces none (Item.ofTokens (layoutTokens source))

/-- The solid text of a document that formatting drops. -/
def droppedText (source : Text) : Text := (solidPieces source).flatMap Piece.lost

/-- What formatting drops of a document is made up for. -/
def Survives (source : Text) : Prop := Piece.survives 0 (solidPieces source) = true

instance (source : Text) : Decidable (Survives source) := inferInstanceAs (Decidable (_ = true))

/-- All numbers of protocols and fields are written in ASCII digits without leading zeros. -/
def HasPlainNumbers (source : Text) : Prop :=
  ∀ t ∈ layoutTokens source, ∀ n ∈ t.shape.numeral?, Numeral.IsPlain n

instance (source : Text) : Decidable (HasPlainNumbers source) :=
  inferInstanceAs (Decidable (∀ t ∈ layoutTokens source, ∀ n ∈ t.shape.numeral?, Numeral.IsPlain n))

/-! ## Every line -/

/-- A declaration with a plain number, or none, keeps its solid text. -/
theorem solid_header_of_isPlain (s : Style) {t : Token} (ht : t.Genuine) {name rest : Text}
    {number : Option Numeral} (h : t.shape = .protocol name number rest)
    (hn : ∀ n ∈ t.shape.numeral?, Numeral.IsPlain n) :
    solid ((Row.header name (number.map Numeral.value) (trim rest)).line s) = solid t.text := by
  rw [Row.solid_header, Token.solid_protocol ht h, solid_trim]
  cases number with
  | none => rfl
  | some n =>
    obtain ⟨-, -, m, hm, -⟩ := ht.protocol h
    have hplain : n.IsPlain := hn n (by rw [h]; rfl)
    simp only [Option.map_some, Option.getD_some, hplain.decimal_value hm.1]

theorem solid_outsideLine {t : Token} (ht : t.Genuine) :
    solid (Style.outsideLine t) = solid t.text := by
  unfold Style.outsideLine
  split
  · next h =>
    obtain ⟨rest, hrest⟩ := ht.trim_comment h
    exact Style.solid_commentLine hrest
  · rfl

/-- **A line that is written by itself keeps its solid text**, if its number is plain. -/
theorem solid_lineOf (s : Style) {t : Token} (ht : t.Proper)
    (hn : ∀ n ∈ t.shape.numeral?, Numeral.IsPlain n) (depth : Option Int)
    (hb : depth = none ∨ ∀ k rest, t.shape ≠ .block k true rest) :
    solid (s.lineOf depth t) = solid t.text := by
  by_cases hkeep : t.shape = .banner ∨ ∃ name number rest, t.shape = .protocol name number rest
  · rcases hkeep with h | ⟨name, number, rest, h⟩
    · rw [Style.lineOf_banner s depth h, solid_trim]
    · rw [Style.lineOf_protocol s depth h, solid_header_of_isPlain s ht.toGenuine h hn]
  · have hbanner : t.shape ≠ .banner := fun h => hkeep (Or.inl h)
    cases depth with
    | none =>
      rw [Style.lineOf_none s hbanner fun name number rest h => hkeep (Or.inr ⟨name, number, rest, h⟩),
        solid_outsideLine ht.toGenuine]
    | some d =>
      cases h : t.shape with
      | banner => exact absurd h hbanner
      | protocol name number rest => exact absurd (Or.inr ⟨name, number, rest, h⟩) hkeep
      | block k closed rest =>
        cases closed with
        | true => exact absurd h (hb.resolve_left (fun h => by cases h) k rest)
        | false => rw [Style.lineOf_block s d h, Row.solid_block, Token.solid_block ht.toGenuine h]
      | field name n body =>
        obtain ⟨hname, hspelled, -⟩ := ht.field h
        have hplain : n.IsPlain := hn n (by rw [h]; rfl)
        rw [Style.lineOf_field s d h, Row.solid_field s _ hname, Token.solid_field ht.toGenuine h,
          hplain.decimal_value hspelled, Shape.fieldContent_eq (ht.feed_field h), solid_trimLeft]
      | _ =>
        rw [Style.lineOf_plain s d (by rw [h]; rfl) hbanner, Row.line, solid_append,
          solid_of_isBlank (s.isBlank_margin _), solid_trim]
        rfl

/-! ## Every item -/

namespace Item

/-- What the items of a document are: lines by themselves, and empty blocks on one line or two. -/
inductive Formed : Item → Prop
  | line {t : Token} (ht : t.Proper) (hn : ∀ n ∈ t.shape.numeral?, Numeral.IsPlain n)
      (hb : ∀ k rest, t.shape ≠ .block k true rest) : Formed (.line t)
  | closed {t : Token} {k : BlockKind} {rest : Text} (ht : t.Proper)
      (hs : t.shape = .block k true rest) : Formed (.emptyBlock k [t])
  | pair {t u : Token} {k : BlockKind} {rest : Text} (ht : t.Proper) (hu : u.Proper)
      (hs : t.shape = .block k false rest) (hc : u.shape = .closeBrace) :
      Formed (.emptyBlock k [t, u])

theorem formed_of_mem_ofTokens {ts : List Token}
    (hts : ∀ t ∈ ts, t.Proper ∧ ∀ n ∈ t.shape.numeral?, Numeral.IsPlain n) :
    ∀ i ∈ ofTokens ts, i.Formed := by
  intro i hi
  rcases cases_of_mem_ofTokens hi with ⟨t, ht, hb, rfl⟩ | ⟨t, ht, k, rest, hs, rfl⟩ |
    ⟨t, ht, u, hu, k, rest, hs, hc, rfl⟩
  · exact .line (hts t ht).1 (hts t ht).2 hb
  · exact .closed (hts t ht).1 hs
  · exact .pair (hts t ht).1 (hts u hu).1 hs hc

variable {i : Item}

/-- The pieces of an item make up its solid text. -/
theorem flatMap_source_pieces (h : i.Formed) (current : Option Body) :
    (i.pieces current).flatMap Piece.source = i.tokens.flatMap fun t => solid t.text := by
  cases h with
  | line ht hn hb => rfl
  | closed ht hs =>
    cases current with
    | none => rfl
    | some b =>
      simp [pieces, tokens, Token.emptiedPieces, hs, Piece.source,
        Token.solid_closedBlock ht.toGenuine hs]
  | pair ht hu hs hc =>
    cases current with
    | none => rfl
    | some b =>
      simp [pieces, tokens, Token.emptiedPieces, hs, hc, Piece.source,
        Token.solid_block ht.toGenuine hs]

/-- The pieces of an item make up what is written for it. -/
theorem flatMap_written_pieces (s : Style) (h : i.Formed) (current : Option Body) :
    (i.pieces current).flatMap Piece.written =
      (i.written s (current.map Body.depth)).flatMap solid := by
  cases h with
  | line ht hn hb =>
    simp [pieces, written, Piece.written, solid_lineOf s ht hn (current.map Body.depth) (Or.inr hb)]
  | closed ht hs =>
    cases current with
    | none => simp [pieces, written, Piece.written, solid_outsideLine ht.toGenuine]
    | some b =>
      simp [pieces, written, Token.emptiedPieces, hs, Piece.written, Row.solid_emptyBlock]
  | pair ht hu hs hc =>
    cases current with
    | none =>
      simp [pieces, written, Piece.written, solid_outsideLine ht.toGenuine,
        solid_outsideLine hu.toGenuine]
    | some b =>
      simp [pieces, written, Token.emptiedPieces, hs, hc, Piece.written, Row.solid_emptyBlock,
        Token.solid_closeBrace hu.toGenuine hc]

end Item

/-! ## Every run -/

namespace Section

theorem flatMap_source_closingPieces (current : Option Body) :
    (closingPieces current).flatMap Piece.source = [] := by
  rw [closingPieces, List.flatMap_map]
  exact List.flatMap_eq_nil_iff.mpr fun _ _ => rfl

theorem flatMap_written_closingPieces (current : Option Body) :
    (closingPieces current).flatMap Piece.written = (closing current).flatMap solid := by
  cases current with
  | none => rfl
  | some b =>
    rw [closingPieces, closing]
    split <;> rfl

/-- **The pieces of a run make up the solid text of its lines, and of what is written for them.** -/
theorem flatMap_pieces (s : Style) {is : List Item} (h : ∀ i ∈ is, i.Formed) (current : Option Body) :
    (pieces current is).flatMap Piece.source =
        (is.flatMap Item.tokens).flatMap (fun t => solid t.text) ∧
      (pieces current is).flatMap Piece.written = (writtenLines s current is).flatMap solid := by
  induction is generalizing current with
  | nil => exact ⟨flatMap_source_closingPieces current, flatMap_written_closingPieces current⟩
  | cons i is ih =>
    obtain ⟨hi, htail⟩ := List.forall_mem_cons.mp h
    obtain ⟨hsource, hwritten⟩ := ih htail (step current i).2
    have hclose : (if i.isCut then closingPieces current else []).flatMap Piece.source = [] := by
      split
      · exact flatMap_source_closingPieces current
      · rfl
    have hclose' : (if i.isCut then closingPieces current else []).flatMap Piece.written =
        (if i.isCut then closing current else []).flatMap solid := by
      split
      · exact flatMap_written_closingPieces current
      · rfl
    constructor
    · rw [pieces, List.flatMap_append, List.flatMap_append, hclose, hsource,
        Item.flatMap_source_pieces hi, List.flatMap_cons, List.flatMap_append, List.nil_append]
    · rw [pieces, List.flatMap_append, List.flatMap_append, hclose', hwritten,
        Item.flatMap_written_pieces s hi, writtenLines, List.flatMap_append, List.flatMap_append]

/-- Nothing is dropped before the first protocol. -/
theorem opensKept_pieces {is : List Item} (h : ∀ i ∈ is, i.Formed) :
    Piece.OpensKept (pieces none is) := by
  induction is with
  | nil => trivial
  | cons i is ih =>
    obtain ⟨hi, htail⟩ := List.forall_mem_cons.mp h
    have hclose : (if i.isCut then closingPieces none else []) = [] := by
      split <;> rfl
    rw [pieces, hclose, List.nil_append]
    cases i with
    | emptyBlock k ts =>
      refine Piece.opensKept_append (fun p hp => ?_) (ih htail)
      obtain ⟨t, -, rfl⟩ := List.mem_map.mp hp
      exact ⟨_, rfl⟩
    | line t =>
      -- a declaration has an opening brace, and no other line opens a protocol
      by_cases hp : ∃ name number rest, t.shape = .protocol name number rest
      · obtain ⟨name, number, rest, hp⟩ := hp
        cases hi with
        | line ht hn hb =>
          refine Or.inl ?_
          rw [Token.solid_protocol ht.toGenuine hp]
          simp
      · have hnone : (step none (.line t)).2 = none := by
          by_cases hbanner : t.shape = .banner
          · simp only [step, hbanner]
          · have hcut : t.isCut = false := Token.isCut_eq_false_iff.mpr
              ⟨hbanner, fun name number rest h => hp ⟨name, number, rest, h⟩⟩
            rw [step_none_of_not_isCut hcut]
        rw [hnone]
        exact Or.inr (ih htail)

/-- **No closing brace is added where no protocol is cut off.** -/
theorem closing_not_mem_pieces {current : Option Body} {is : List Item}
    (h : settles current is = true) : Piece.closing ∉ pieces current is := by
  induction is generalizing current with
  | nil =>
    cases current with
    | none => exact List.not_mem_nil
    | some b => cases h
  | cons i is ih =>
    rw [settles, Bool.and_eq_true] at h
    obtain ⟨hcut, hrest⟩ := h
    have hclose : (if i.isCut then closingPieces current else []) = [] := by
      cases hi : i.isCut with
      | false => rfl
      | true =>
        rw [hi] at hcut
        have hnone : current = none := by simpa using hcut
        rw [hnone]
        rfl
    rw [pieces, hclose, List.nil_append, List.mem_append, not_or]
    refine ⟨fun hmem => ?_, ih hrest⟩
    cases i with
    | line t => simp [Item.pieces] at hmem
    | emptyBlock k ts =>
      cases current with
      | none => simp [Item.pieces] at hmem
      | some b =>
        obtain ⟨t, -, ht⟩ := List.mem_flatMap.mp hmem
        unfold Token.emptiedPieces at ht
        split at ht <;> simp at ht

end Section

/-! ## Whole documents -/

theorem solid_unlines (ls : List Text) : solid (unlines ls) = ls.flatMap solid := by
  induction ls with
  | nil => rfl
  | cons l ls ih =>
    cases ls with
    | nil => simp [unlines, List.intercalate]
    | cons m ls =>
      have hfeed : solid ['\n'] = [] := rfl
      rw [unlines, List.intercalate_cons_cons, ← unlines, solid_append, solid_append, ih, hfeed,
        List.append_nil, ← List.flatMap_cons]

theorem solid_dropReturn (l : Text) : solid (dropReturn l) = solid l := by
  unfold dropReturn
  split
  · next h =>
    obtain ⟨u, rfl⟩ := List.getLast?_eq_some_iff.mp h
    rw [List.dropLast_concat, solid_append, show solid ['\r'] = [] from rfl, List.append_nil]
  · rfl

/-- The solid text of a document is that of its lines. -/
theorem solid_eq_flatMap_lines (source : Text) : solid source = (lines source).flatMap solid := by
  have hjoin : unlines (source.splitOn '\n') = source := List.intercalate_splitOn '\n'
  conv_lhs => rw [← hjoin, solid_unlines]
  rw [lines, List.flatMap_map]
  simp only [solid_dropReturn]

theorem flatMap_solid_filter (ls : List Text) :
    (ls.filter fun l => Shape.read l ≠ .blank).flatMap solid = ls.flatMap solid := by
  induction ls with
  | nil => rfl
  | cons l ls ih =>
    rw [List.filter_cons, List.flatMap_cons]
    by_cases hb : Shape.read l = .blank
    · have hl : solid l = [] := by
        cases Shape.read_eq_iff.mp hb with
        | blank h => exact solid_of_isBlank (trim_eq_nil_iff.mp h)
      simpa [hb, hl] using ih
    · simpa [hb] using ih

theorem solid_eq_flatMap_layoutTokens (source : Text) :
    solid source = (layoutTokens source).flatMap fun t => solid t.text := by
  have hmap : ((layoutTokens source).flatMap fun t => solid t.text) =
      ((layoutTokens source).map Token.text).flatMap solid := by
    rw [List.flatMap_map]
  rw [hmap, map_text_layoutTokens, flatMap_solid_filter, List.flatMap_map, solid_eq_flatMap_lines]
  simp only [solid_trimRight]

/-- Blank lines between sections hold no solid text. -/
theorem Section.flatMap_solid_layOut (s : Style) (as : List Section) :
    (layOut s as).flatMap solid = (as.flatMap (lines s)).flatMap solid := by
  have hblank : ∀ b : Bool, (blankIf b).flatMap solid = [] := by decide
  induction as with
  | nil => rfl
  | cons a as ih =>
    cases as with
    | nil => simp [layOut, hblank]
    | cons b as =>
      rw [layOut, List.flatMap_append, List.flatMap_append, hblank, ih, List.append_nil,
        ← List.flatMap_append]
      rfl

/-- The banner in front has no opening brace. -/
theorem not_mem_banner {ts : List Token} (hts : ∀ t ∈ ts, t.fault? = none) :
    '{' ∉ ({} : Style).banner (frontTitle ts) := by
  obtain ⟨a, b, hfront, -, -⟩ := exists_frontTitle hts
  obtain ⟨n, -, hframed⟩ := banner_rangeTitle a b
  have htitle : '{' ∉ Banner.rangeTitle a b :=
    Banner.not_mem_rangeTitle a b isWord_openBrace (by decide) (by decide)
  rw [hfront, hframed]
  simp [Banner.framed, htitle]

/-- The solid text of a formatted document: that of the banner in front, if there is one, and that of
the lines that are written. -/
theorem exists_solid_format {source out : Text} (h : format source = .ok out) :
    ∃ front, '{' ∉ front ∧ solid out = front ++ (writtenSource source).flatMap solid := by
  obtain ⟨-, hfault, ranged, -, rfl⟩ := format_eq_ok h
  rw [solid_unlines, Section.flatMap_solid_layOut, flatMap_lines_sections, formattedLines,
    List.flatMap_append]
  refine ⟨_, ?_, rfl⟩
  cases ranged with
  | true => exact List.not_mem_nil
  | false =>
    intro hmem
    rw [if_neg Bool.false_ne_true, List.flatMap_cons, List.flatMap_nil, List.append_nil] at hmem
    exact not_mem_banner hfault (mem_of_mem_solid hmem)

/-- **When the solid text of a document survives formatting**: exactly when what is dropped is made up
for.  That is so when nothing is dropped, and in a balanced document only then. -/
theorem solid_sublist_format {source out : Text} (h : format source = .ok out)
    (hn : HasPlainNumbers source) :
    ((solid source).Sublist (solid out) ↔ Survives source) ∧
      (droppedText source = [] → Survives source) ∧
      (Balanced source → Survives source → droppedText source = []) := by
  obtain ⟨front, hfront, hout⟩ := exists_solid_format h
  have hformed := Item.formed_of_mem_ofTokens fun t ht =>
    ⟨proper_of_mem_layoutTokens ht, hn t ht⟩
  obtain ⟨hsource, hwritten⟩ := Section.flatMap_pieces {} hformed none
  rw [Item.flatMap_tokens_ofTokens, ← solid_eq_flatMap_layoutTokens] at hsource
  refine ⟨?_, Piece.survives_of_lost_eq_nil, ?_⟩
  · rw [hout, ← hsource, writtenSource, ← hwritten]
    constructor
    · exact Piece.survives_of_sublist_append (Section.opensKept_pieces hformed) hfront
    · intro hs
      exact (Piece.sublist_iff_survives _ |>.mpr hs).trans (List.sublist_append_right front _)
  · intro hb hs
    have hzero : Piece.survives (0 : Nat) (solidPieces source) = true := hs
    exact (Piece.lost_eq_nil_of_survives (Section.closing_not_mem_pieces hb) hzero).2

/-- A comment stands behind an empty block. -/
def notedSource : Text :=
  "#### Module 0-99 ####\nfoo 1 \x7b\n    request \x7b\x7d # note\n\x7d\n".toList

/-- The same document, laid out: the comment is gone. -/
def notedLayout : Text :=
  "#### Module 0-99 ####\n\nfoo 1 \x7b\n    request \x7b\x7d\n\x7d\n".toList

theorem solid_notedSource_not_sublist :
    format notedSource = .ok notedLayout ∧ HasPlainNumbers notedSource ∧
      droppedText notedSource = "#note".toList ∧
      ¬ (solid notedSource).Sublist (solid notedLayout) := by
  have hformat : format notedSource = .ok notedLayout := by decide +kernel
  have hplain : HasPlainNumbers notedSource := by decide +kernel
  have hdropped : droppedText notedSource = "#note".toList := by decide +kernel
  have hlost : ¬ Survives notedSource := by decide +kernel
  exact ⟨hformat, hplain, hdropped, fun h => hlost ((solid_sublist_format hformat hplain).1.mp h)⟩

end Sproto
