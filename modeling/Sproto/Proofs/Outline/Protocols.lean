import Sproto.Proofs.Outline.Preservation
import Sproto.Proofs.Validation.Filing
import Sproto.Proofs.Validation.Report

/-! # The protocols of the outline and those of validation

The outline and validation delimit protocols by different means: the outline counts braces, and reads a
declaration only while no protocol is open; validation counts none, and reads a declaration unless it
stands in a block, which ends at the next closing brace that stands alone.

Both miss no declaration in a document where the two means agree, one in which no protocol is cut off
(`neverCuts`) and every block is closed by a brace that stands alone before any other brace comes
(`Enclosed`).  There the symbols with a number list all declarations in their order
(`Builder.entries_foldl`, `Symbol.entriesAll_ofOutline`), and validation keeps the first one of each
number (`protocols_before`).  So the protocols of the report can be read off the symbols
(`firstEntries_symbols`). -/
namespace Sproto

open Text Validation

/-- The entry of a line that declares a protocol with a number. -/
def Token.declared? (t : Token) : Option Entry :=
  match t.shape with
  | .protocol name (some n) _ => some ⟨name, n.value, t.index⟩
  | _ => none

/-- The first entry of each number, in order. -/
def firstEntries (es : List Entry) : List Entry := es.eraseDupsBy fun e e' => e.number == e'.number

theorem Token.exists_of_declared? {t : Token} {e : Entry} (h : t.declared? = some e) :
    ∃ n rest, t.shape = .protocol e.name (some n) rest ∧ e = ⟨e.name, n.value, t.index⟩ := by
  unfold declared? at h
  split at h
  · rename_i name n rest hshape
    cases h
    exact ⟨n, rest, hshape, rfl⟩
  · cases h

theorem Token.declared?_protocol {t : Token} {name rest : Text} {number : Option Numeral}
    (h : t.shape = .protocol name number rest) :
    t.declared? = number.map fun n => ⟨name, n.value, t.index⟩ := by
  rcases number with _ | n
  · simp only [declared?, h, Option.map_none]
  · simp only [declared?, h, Option.map_some]

theorem Token.declared?_eq_none {t : Token}
    (h : ∀ name number rest, t.shape ≠ .protocol name number rest) : t.declared? = none := by
  rcases he : t.declared? with _ | e
  · rfl
  · obtain ⟨n, rest, hshape, -⟩ := exists_of_declared? he
    exact absurd hshape (h _ _ _)

/-! ## The first entry of each number -/

theorem eraseDupsBy_loop_concat {α : Type} {r : α → α → Bool} {as bs : List α} {a : α} :
    List.eraseDupsBy.loop r (as ++ [a]) bs =
      if (List.eraseDupsBy.loop r as bs).any (r a) then List.eraseDupsBy.loop r as bs
      else List.eraseDupsBy.loop r as bs ++ [a] := by
  induction as generalizing bs with
  | nil =>
    simp only [List.nil_append, List.eraseDupsBy.loop, List.any_reverse]
    rcases bs.any (r a) with _ | _
    · simp
    · rfl
  | cons b as ih =>
    have hloop : ∀ l, List.eraseDupsBy.loop r (b :: l) bs =
        List.eraseDupsBy.loop r l (if bs.any (r b) then bs else b :: bs) := by
      intro l
      rw [List.eraseDupsBy.loop]
      split
      · rw [if_pos ‹_›]
      · rw [if_neg (by simp [*])]
    rw [List.cons_append, hloop, hloop]
    exact ih

/-- **One entry more counts if its number is free.** -/
theorem firstEntries_concat (es : List Entry) (e : Entry) :
    firstEntries (es ++ [e]) =
      if taken? (firstEntries es) e.number = none then firstEntries es ++ [e]
      else firstEntries es := by
  have hany : (firstEntries es).any (fun e' => e.number == e'.number) = true ↔
      ¬ taken? (firstEntries es) e.number = none := by
    rw [taken?, List.find?_eq_none, List.any_eq_true]
    push Not
    constructor
    · rintro ⟨x, hx, hn⟩
      exact ⟨x, hx, by rw [beq_iff_eq] at hn ⊢; exact hn.symm⟩
    · rintro ⟨x, hx, hn⟩
      exact ⟨x, hx, by rw [beq_iff_eq] at hn ⊢; exact hn.symm⟩
  have hloop : firstEntries (es ++ [e]) =
      if (firstEntries es).any (fun e' => e.number == e'.number) then firstEntries es
      else firstEntries es ++ [e] := eraseDupsBy_loop_concat
  rw [hloop]
  by_cases h : taken? (firstEntries es) e.number = none
  · rw [if_pos h, if_neg fun ha => hany.mp ha h]
  · rw [if_neg h, if_pos (hany.mpr h)]

/-! ## The entries of symbols -/

/-- The entry of a symbol that stands for a protocol or a type and has a number. -/
def Symbol.declared? (name : Text) (kind : SymbolKind) (detail : Option Text) (line : Nat) :
    Option Entry :=
  match kind with
  | .protocol | .type => detail.map fun d => ⟨name, Numeral.value ⟨d⟩, line⟩
  | _ => none

mutual

/-- The entries of a symbol and those below it, in the order of the document. -/
def Symbol.entries : Symbol → List Entry
  | ⟨name, kind, detail, _, selection, children⟩ =>
      (Symbol.declared? name kind detail selection.start.line).toList ++ Symbol.entriesAll children

/-- The entries of a list of symbols. -/
def Symbol.entriesAll : List Symbol → List Entry
  | [] => []
  | s :: ss => s.entries ++ Symbol.entriesAll ss

end

namespace Outline

/-- The entry of a protocol with a number. -/
def Protocol.declared? (p : Protocol) : Option Entry := p.number.map fun n => ⟨p.name, n, p.line⟩

/-- The entries of protocols. -/
def entriesOf (ps : List Protocol) : List Entry := ps.filterMap Protocol.declared?

/-- The entries of an outline, in the order of the document. -/
def entries (o : Outline) : List Entry := entriesOf (o.leading ++ o.groups.flatMap Group.protocols)

end Outline

namespace Symbol

variable {width : Nat → Nat} {s : Symbol}

theorem entriesAll_append (ss ss' : List Symbol) :
    entriesAll (ss ++ ss') = entriesAll ss ++ entriesAll ss' := by
  induction ss with
  | nil => rfl
  | cons s ss ih => rw [List.cons_append, entriesAll, ih, entriesAll, List.append_assoc]

/-- What succeeds in two parts succeeds in both. -/
theorem exists_of_bind_eq_ok {α β : Type} {x : Except Fault α} {f : α → Except Fault β} {b : β}
    (h : x >>= f = .ok b) : ∃ a, x = .ok a ∧ f a = .ok b := by
  rcases x with e | a
  · cases h
  · exact ⟨a, rfl, h⟩

theorem line_of_make? {line stop : Nat} {a b : Int} {r : Range}
    (h : Range.make? line a stop b = .ok r) : r.start.line = line := by
  obtain ⟨start, hstart, h⟩ := exists_of_bind_eq_ok h
  obtain ⟨finish, -, h⟩ := exists_of_bind_eq_ok h
  cases h
  obtain ⟨l, hl, hstart⟩ := exists_of_bind_eq_ok hstart
  obtain ⟨c, -, hstart⟩ := exists_of_bind_eq_ok hstart
  cases hstart
  obtain ⟨hline, -⟩ := Position.coordinate?_eq_ok_iff.mp hl
  show l = line
  omega

/-- A symbol is selected by its first line, and has the children it is made with. -/
theorem entries_of_make? {name : Text} {kind : SymbolKind} {detail : Option Text} {line stop : Nat}
    {children : Except Fault (List Symbol)} {es : List Entry}
    (h : make? width name kind detail line stop children = .ok s)
    (hc : ∀ cs, children = .ok cs → entriesAll cs = es) :
    s.entries = (declared? name kind detail line).toList ++ es := by
  obtain ⟨selection, hselection, h⟩ := exists_of_bind_eq_ok h
  obtain ⟨range, -, h⟩ := exists_of_bind_eq_ok h
  obtain ⟨cs, hchildren, h⟩ := exists_of_bind_eq_ok h
  cases h
  rw [entries, line_of_make? hselection, hc cs hchildren]

theorem entriesAll_of_mapM {α : Type} {f : α → Except Fault Symbol} {g : α → List Entry}
    (h : ∀ a s, f a = .ok s → s.entries = g a) {l : List α} {ss : List Symbol}
    (hl : l.mapM f = .ok ss) : entriesAll ss = l.flatMap g := by
  induction l generalizing ss with
  | nil =>
    cases hl
    rfl
  | cons a l ih =>
    rw [List.mapM_cons] at hl
    obtain ⟨s, ha, hl⟩ := exists_of_bind_eq_ok hl
    obtain ⟨ss', hrest, hl⟩ := exists_of_bind_eq_ok hl
    cases hl
    rw [entriesAll, h a s ha, ih hrest, List.flatMap_cons]

theorem entries_ofField {f : Outline.Field} (h : ofField width f = .ok s) : s.entries = [] := by
  rw [entries_of_make? h fun cs hcs => by cases hcs; rfl]
  rfl

theorem entries_ofBlock {b : Outline.Block} (h : ofBlock width b = .ok s) : s.entries = [] := by
  rw [entries_of_make? h fun cs hcs => entriesAll_of_mapM (fun f s => entries_ofField) hcs]
  show [] ++ b.fields.flatMap (fun _ => []) = []
  simp

theorem entries_ofMember {m : Outline.Member} (h : ofMember width m = .ok s) : s.entries = [] := by
  rcases m with b | f
  · exact entries_ofBlock h
  · exact entries_ofField h

theorem entries_ofProtocol {p : Outline.Protocol} (h : ofProtocol width p = .ok s) :
    s.entries = p.declared?.toList := by
  rw [entries_of_make? h fun cs hcs => entriesAll_of_mapM (fun m s => entries_ofMember) hcs]
  have hentry : declared? p.name (if p.name.head? = some '.' then .type else .protocol)
      (p.number.map decimal) p.line = p.declared? := by
    split
    · simp [declared?, Outline.Protocol.declared?, Function.comp_def]
    · simp [declared?, Outline.Protocol.declared?, Function.comp_def]
  rw [hentry]
  simp

theorem flatMap_declared? (ps : List Outline.Protocol) :
    ps.flatMap (fun p => p.declared?.toList) = Outline.entriesOf ps := by
  rw [Outline.entriesOf, List.filterMap_eq_flatMap_toList]

theorem entries_ofGroup {g : Outline.Group} (h : ofGroup width g = .ok s) :
    s.entries = Outline.entriesOf g.protocols := by
  rw [entries_of_make? h fun cs hcs => entriesAll_of_mapM (fun p s => entries_ofProtocol) hcs,
    flatMap_declared?]
  rfl

/-- **The symbols of an outline have its entries.** -/
theorem entriesAll_ofOutline {o : Outline} {ss : List Symbol} (h : ofOutline width o = .ok ss) :
    entriesAll ss = o.entries := by
  obtain ⟨ls, hl, h⟩ := exists_of_bind_eq_ok h
  obtain ⟨gs, hg, h⟩ := exists_of_bind_eq_ok h
  cases h
  rw [entriesAll_append, entriesAll_of_mapM (fun p s => entries_ofProtocol) hl,
    entriesAll_of_mapM (fun g s => entries_ofGroup) hg, flatMap_declared?, Outline.entries,
    Outline.entriesOf, Outline.entriesOf, List.filterMap_append, List.filterMap_flatMap]
  rfl

end Symbol

/-! ## The entries that the outline is built with -/

namespace Outline

/-- The entry of an open protocol with a number. -/
def Draft.declared? (d : Draft) : Option Entry := d.number.map fun n => ⟨d.name, n, d.line⟩

theorem Draft.declared?_finish (d : Draft) (stop : Nat) : (d.finish stop).declared? = d.declared? := rfl

theorem Draft.declared?_closeBlock (d : Draft) (stop : Nat) : (d.closeBlock stop).declared? = d.declared? := rfl

theorem Draft.declared?_addMember (d : Draft) (t : Token) : (d.addMember t).declared? = d.declared? := by
  unfold addMember
  split
  · rename_i closed _ _
    rcases closed with _ | _ <;> rfl
  · unfold addField
    split <;> rfl
  · rfl

theorem Draft.declared?_add (d : Draft) (t : Token) : (d.add t).declared? = d.declared? := by
  rw [← d.declared?_addMember t]
  unfold add
  simp only
  split <;> rfl

namespace Builder

variable {b : Builder} {t : Token}

/-- The protocols that are complete, in order. -/
def placed (b : Builder) : List Protocol :=
  b.leading ++ b.groups.flatMap Group.protocols ++ (b.group.map Group.protocols).getD []

/-- The entries of what is built, the open protocol last. -/
def entries (b : Builder) : List Entry :=
  entriesOf b.placed ++ (b.draft.bind Draft.declared?).toList

/-- No module is complete unless one is open. -/
def InOrder (b : Builder) : Prop := b.group = none → b.groups = []

theorem placed_place (h : b.InOrder) (p : Protocol) : (b.place p).placed = b.placed ++ [p] := by
  unfold place placed
  rcases hg : b.group with _ | g
  · simp [h hg]
  · simp

theorem inOrder_place (h : b.InOrder) (p : Protocol) : (b.place p).InOrder := by
  unfold place InOrder
  rcases hg : b.group with _ | g
  · exact fun _ => h hg
  · exact fun h' => by cases h'

theorem entriesOf_concat (ps : List Protocol) (p : Protocol) :
    entriesOf (ps ++ [p]) = entriesOf ps ++ p.declared?.toList := by
  rw [entriesOf, List.filterMap_append, entriesOf]
  rcases h : p.declared? with _ | e <;> simp [h]

/-- Ending the open protocol loses no entry. -/
theorem entries_endDraft (h : b.InOrder) : b.endDraft.entries = b.entries := by
  unfold endDraft
  rcases hd : b.draft with _ | d
  · rfl
  · simp only [entries, hd, Option.bind_none, Option.toList_none, List.append_nil, Option.bind_some]
    show entriesOf (b.place _).placed = _
    rw [placed_place h, entriesOf_concat, Draft.declared?_finish, Draft.declared?_closeBlock]

/-- Ending the open module loses no protocol. -/
theorem placed_endGroup (b : Builder) :
    b.endGroup.leading ++ b.endGroup.groups.flatMap Group.protocols = b.placed := by
  unfold endGroup placed
  rcases hg : b.group with _ | g
  · simp
  · simp

theorem entries_finish (h : b.InOrder) : b.finish.entries = b.entries := by
  show entriesOf (b.endDraft.endGroup.leading ++ b.endDraft.endGroup.groups.flatMap Group.protocols) = _
  rw [placed_endGroup, ← entries_endDraft h, entries, draft_endDraft]
  simp

/-- Opening a protocol adds its entry. -/
theorem entries_declare (h : b.InOrder) (hd : b.draft = none) (t : Token) (name : Text)
    (number : Option Numeral) :
    (b.declare t name number).entries =
        b.entries ++ (number.map fun n => (⟨name, n.value, t.index⟩ : Entry)).toList ∧
      (b.declare t name number).InOrder := by
  unfold declare
  simp only
  split
  · refine ⟨?_, inOrder_place h _⟩
    rw [entries, placed_place h, entriesOf_concat, draft_place, entries, hd, Draft.declared?_finish,
      Draft.declared?, Option.map_map]
    simp only [Option.bind_none, Option.toList_none, List.append_nil]
    rfl
  · refine ⟨?_, h⟩
    simp only [entries, hd, Option.bind_none, Option.toList_none, List.append_nil, Option.bind_some,
      Draft.declared?, Option.map_map]
    rfl

/-- A line inside a protocol keeps the entries, whether or not it closes the protocol. -/
theorem entries_extend (h : b.InOrder) {d : Draft} (hd : b.draft = some d) (t : Token) :
    (b.extend d t).entries = b.entries ∧ (b.extend d t).InOrder := by
  unfold extend
  simp only
  split
  · refine ⟨?_, inOrder_place h _⟩
    show entriesOf (b.place _).placed ++ [] = _
    rw [placed_place h, entriesOf_concat, Draft.declared?_finish, Draft.declared?_add,
      List.append_nil, entries, hd, Option.bind_some]
  · refine ⟨?_, h⟩
    simp only [entries, hd, Option.bind_some, Draft.declared?_add]
    rfl

/-- **A line adds the entry that it declares, if no protocol is open.** -/
theorem entries_step (h : b.InOrder) (hopen : t.declared? ≠ none → b.draft = none) :
    (b.step t).entries = b.entries ++ t.declared?.toList ∧ (b.step t).InOrder := by
  have hstep := step_cases b t
  generalize b.step t = c at hstep ⊢
  rcases hstep with hs | hs | ⟨hd, -, -⟩ | ⟨hd, hs⟩ | ⟨hd, -, hp⟩
  · rw [Token.declared?_eq_none (by simp [hs])]
    exact ⟨by simp, h⟩
  · rw [Token.declared?_eq_none (by simp [hs]), ← entries_endDraft h]
    refine ⟨?_, fun h' => by cases h'⟩
    show entriesOf (b.endDraft.endGroup.leading ++
        b.endDraft.endGroup.groups.flatMap Group.protocols ++ []) ++ _ = _
    rw [List.append_nil, placed_endGroup, draft_endGroup, Option.toList_none, List.append_nil]
    rfl
  · have hnone : t.declared? = none := by
      by_contra hne
      rw [hopen hne] at hd
      cases hd
    rw [hnone, Option.toList_none, List.append_nil]
    exact entries_extend (b := { b with lastLine := t.index }) h hd t
  · rw [Token.declared?_protocol hs]
    exact entries_declare (b := { b with lastLine := t.index }) h hd t _ _
  · rw [Token.declared?_eq_none hp]
    exact ⟨by simp [entries, placed], h⟩

end Builder
end Outline

/-- Whether no declaration in the first column and no banner comes while a protocol is open; depths are
counted by braces. -/
def neverCuts : Option Int → List Token → Bool
  | _, [] => true
  | depth, t :: ts => (!t.isCut || depth.isNone) && neverCuts (nest depth t) ts

/-- A blank line does not change a depth. -/
theorem nest_blank {depth : Option Int} (hpos : ∀ d, depth = some d → 0 < d) {t : Token}
    (ht : t.Genuine) (h : t.shape = .blank) : nest depth t = depth := by
  have hbalance : braceBalance t.text = 0 := by
    have hr := ht.reads
    rw [h] at hr
    cases hr with
    | blank hblank =>
      rw [← braceBalance_solid, solid_of_isBlank (trim_eq_nil_iff.mp hblank)]
      rfl
  rw [nest_of_not_isCut (by simp [Token.isCut, h]), hbalance]
  rcases depth with _ | d
  · rfl
  · have hd := hpos d rfl
    simp only [Option.bind_some, Int.add_zero, keepOpen]
    rw [if_neg (by omega)]

namespace Outline.Builder

/-- **The outline lists every declaration, if no protocol is cut off.** -/
theorem entries_foldl {ts : List Token} (hts : ∀ t ∈ ts, t.Genuine) {b : Builder} (hb : b.InOrder)
    (hpos : ∀ d, b.draft.map Draft.depth = some d → 0 < d)
    (h : neverCuts (b.draft.map Draft.depth) ts = true) :
    (ts.foldl step b).entries = b.entries ++ ts.filterMap Token.declared? ∧
      (ts.foldl step b).InOrder := by
  induction ts generalizing b with
  | nil => exact ⟨by simp, hb⟩
  | cons t ts ih =>
    obtain ⟨ht, htail⟩ := List.forall_mem_cons.mp hts
    rw [neverCuts, Bool.and_eq_true] at h
    obtain ⟨hcut, hrest⟩ := h
    have hfree : t.isCut = true → b.draft = none := by
      intro hc
      simpa [hc] using hcut
    have hopen : t.declared? ≠ none → b.draft = none := by
      intro hne
      obtain ⟨e, he⟩ := Option.ne_none_iff_exists'.mp hne
      obtain ⟨n, rest, hshape, -⟩ := Token.exists_of_declared? he
      exact hfree (by simp [Token.isCut, hshape])
    have hdepth : (b.step t).draft.map Draft.depth = nest (b.draft.map Draft.depth) t := by
      by_cases hblank : t.shape = .blank
      · rw [step_blank b hblank, nest_blank hpos ht hblank]
      · apply depth_step hblank
        by_cases hc : t.isCut = true
        · exact .inl (hfree hc)
        · exact .inr (by simpa using hc)
    obtain ⟨hentries, horder⟩ := entries_step hb hopen
    rw [← hdepth] at hrest
    have hpos' : ∀ d, (b.step t).draft.map Draft.depth = some d → 0 < d := by
      rw [hdepth]
      by_cases hblank : t.shape = .blank
      · rw [nest_blank hpos ht hblank]
        exact hpos
      · exact fun d hd => pos_of_nest hd
    obtain ⟨hrun, horder'⟩ := ih htail horder hpos' hrest
    refine ⟨?_, horder'⟩
    rw [List.foldl_cons, hrun, hentries, List.append_assoc]
    congr 1
    rcases he : t.declared? with _ | e <;> simp [he]

theorem entries_ofTokens {ts : List Token} (hts : ∀ t ∈ ts, t.Genuine)
    (h : neverCuts none ts = true) : (ofTokens ts).entries = ts.filterMap Token.declared? := by
  have hinitial : initial.InOrder := fun _ => rfl
  obtain ⟨hentries, horder⟩ :=
    entries_foldl hts hinitial (fun d hd => by cases hd) h
  rw [ofTokens, entries_finish horder, hentries]
  rfl

end Outline.Builder

/-! ## The entries that validation takes up -/

/-- Whether there is no brace in a line, comments aside. -/
def isBraceless (l : Text) : Bool :=
  !(beforeComment l).contains '{' && !(beforeComment l).contains '}'

/-- Every block that a line starts is closed by a brace that stands alone, and no brace comes before
it. -/
def Enclosed (ls : List Text) : Prop :=
  ∀ i < ls.length, (blockStart? ls i).isSome = true →
    ∃ j < ls.length, i < j ∧ isLoneBrace ls j = true ∧
      ∀ m < j, i < m → isBraceless (ls.getD m []) = true

instance (ls : List Text) : Decidable (Enclosed ls) :=
  inferInstanceAs (Decidable (∀ i < ls.length, _ → ∃ j < ls.length, _))

/-- A declaration has a brace before any comment. -/
theorem isBraceless_protocol {i : Nat} {l name rest : Text} {number : Option Numeral}
    (hl : '\n' ∉ l) (h : Shape.read l = .protocol name number rest) : isBraceless l = false := by
  obtain ⟨-, hname, m, hm, htext⟩ := (Token.genuine_read hl i).protocol h
  have hword : ∀ {w : Text}, (∀ c ∈ w, isWord c = true) → '#' ∉ w := by
    intro w hw hmem
    have h := hw '#' hmem
    rw [isWord_hash] at h
    cases h
  have hhash : '#' ∉ name := by
    rcases hname with hname | ⟨w, hw, rfl⟩
    · exact hword hname.2
    · rw [List.mem_cons, not_or]
      exact ⟨by decide, hword hw.2⟩
  have hhash' : '#' ∉ m := by
    rcases number with _ | n
    · exact not_mem_of_isBlank hm isSpace_hash
    · obtain ⟨hn, g, b, -, hg, hb, rfl⟩ := hm
      simp only [List.mem_append, not_or]
      exact ⟨not_mem_of_isBlank hg isSpace_hash, hword hn.isWord, not_mem_of_isBlank hb isSpace_hash⟩
  have hl : l = name ++ (m ++ '{' :: rest) := htext
  have hmem : '{' ∈ beforeComment l := by
    rw [hl, beforeComment_append hhash, beforeComment_append hhash']
    simp [beforeComment]
  simp [isBraceless, hmem]

/-- **No declaration stands inside a block**, if every block is closed before any other brace comes. -/
theorem not_inside_of_protocol {ls : List Text} (hls : ∀ l ∈ ls, '\n' ∉ l) (h : Enclosed ls)
    {i : Nat} {l name rest : Text} {number : Option Numeral} (hl : ls[i]? = some l)
    (hread : Shape.read l = .protocol name number rest) : ¬ Inside ls i := by
  rintro ⟨j, hji, hstart, hunclosed⟩
  obtain ⟨hi, -⟩ := List.getElem?_eq_some_iff.mp hl
  obtain ⟨k, -, hjk, hlone, hbraceless⟩ := h j (by omega) hstart
  -- The brace that closes the block comes behind the declaration, so the declaration has none.
  rcases Nat.lt_trichotomy k i with hki | rfl | hik
  · rw [hunclosed k hki hjk] at hlone
    cases hlone
  · simp [isLoneBrace, hl, hread] at hlone
  · have hbrace := hbraceless i hik hji
    rw [List.getD_eq_getElem?_getD, hl, Option.getD_some,
      isBraceless_protocol (i := i) (hls l (List.mem_of_getElem? hl)) hread] at hbrace
    cases hbrace

namespace Validation

theorem filterMap_declared?_take {ls : List Text} {i : Nat} {l : Text} (hl : ls[i]? = some l) :
    (Token.ofLines (ls.take (i + 1))).filterMap Token.declared? =
      (Token.ofLines (ls.take i)).filterMap Token.declared? ++ (Token.read i l).declared?.toList := by
  have hlength : (ls.take i).length = i := by
    obtain ⟨hi, -⟩ := List.getElem?_eq_some_iff.mp hl
    rw [List.length_take]
    omega
  rw [List.take_add_one, hl, Option.toList_some, Token.ofLines_append, hlength,
    List.filterMap_append]
  rcases he : (Token.read i l).declared? with _ | e <;> simp [Token.numbered, he]

/-- **Validation keeps the first declaration of each number**, if none stands inside a block. -/
theorem protocols_before {ls : List Text} (hls : ∀ l ∈ ls, '\n' ∉ l) (h : Enclosed ls) {i : Nat}
    (hi : i ≤ ls.length) :
    (State.before ls i).protocols =
      firstEntries ((Token.ofLines (ls.take i)).filterMap Token.declared?) := by
  induction i with
  | zero => rfl
  | succ i ih =>
    have hl : ls[i]? = some ls[i] := List.getElem?_eq_getElem hi
    have hgenuine := Token.genuine_read (hls _ (List.getElem_mem hi)) i
    have hold := ih (by omega)
    rw [State.before_succ hl, filterMap_declared?_take hl]
    have htop : ∀ {e}, (Token.read i ls[i]).declared? = some e →
        (State.before ls i).context = .top := by
      intro e he
      obtain ⟨n, rest, hshape, -⟩ := Token.exists_of_declared? he
      have hfits := fits_before hls (i := i) (by omega)
      rcases hc : (State.before ls i).context with _ | ⟨k, fields⟩
      · rfl
      · rw [hc] at hfits
        obtain ⟨j, hblock⟩ := hfits.inBlock
        exact absurd hblock.inside (not_inside_of_protocol hls h hl hshape)
    have hfiles := files_step (State.before ls i) hgenuine
    generalize ((State.before ls i).step (Token.read i ls[i])).1 = q at hfiles
    rcases he : (Token.read i ls[i]).declared? with _ | e
    · rw [Option.toList_none, List.append_nil, ← hold]
      rcases hfiles with _ | _ | ⟨-, hshape, -⟩
      · rfl
      · rfl
      · rw [Token.declared?_protocol hshape] at he
        cases he
    · obtain ⟨n, rest, hshape, heq⟩ := Token.exists_of_declared? he
      have hnumber : e.number = n.value := by rw [heq]
      rw [Option.toList_some, firstEntries_concat, ← hold, hnumber]
      rcases hfiles with ⟨_, -, htaken⟩ | ⟨-, hlabel⟩ | ⟨-, hshape', hfree⟩
      · rw [if_neg (htaken (htop he) _ _ _ hshape)]
      · rw [label?_protocol hgenuine hshape] at hlabel
        cases hlabel
      · rw [hshape] at hshape'
        cases hshape'
        rw [if_pos hfree, heq]
        rfl

end Validation

/-- **The protocols of the report can be read off the symbols**: in a document that is accepted, in which
no protocol is cut off and every block is closed before any other brace comes, the symbols with a number
that stand for protocols and types, of each number the first, are the protocols that validation has taken
up, in the same order.  There are symbols unless the document is too large for positions. -/
theorem firstEntries_symbols {source : Text} {ts : List Token} (hts : Token.ofSource? source = .ok ts)
    (hcuts : neverCuts none ts = true) (hblocks : Enclosed (lines source)) :
    ∃ r, validate source = .ok r ∧
      (∀ ss, Symbol.ofSource source = .ok ss → firstEntries (Symbol.entriesAll ss) = r.protocols) ∧
      (Placeable source → ∃ ss, Symbol.ofSource source = .ok ss) := by
  have hfeed : ∀ l ∈ lines source, '\n' ∉ l := fun l hl => not_mem_of_mem_lines hl
  obtain ⟨rfl, hfault⟩ := Token.ofLines?_eq_ok_iff.mp hts
  refine ⟨_, validate_eq_ok_iff.mpr ⟨rfl, hfault⟩, ?_, ?_⟩
  · intro ss hss
    rw [Symbol.ofSource, hts] at hss
    have hgenuine : ∀ t ∈ Token.ofLines (lines source), t.Genuine := by
      rw [Token.ofLines_eq_numbered]
      exact Token.genuine_of_mem_numbered hfeed
    rw [Symbol.entriesAll_ofOutline hss, Outline.Builder.entries_ofTokens hgenuine hcuts]
    have hprotocols := protocols_before hfeed hblocks (Nat.le_refl _)
    rw [State.before_length, List.take_length] at hprotocols
    exact hprotocols.symm
  · apply (Symbol.rendersAll_ofSource ?_).2
    intro t ht
    have hlines := Token.forall_fault?_ofLines.mp hfault
    refine Token.forall_fault?_ofLines.mpr ?_ t (List.mem_filter.mp ht).1
    intro l hl
    obtain ⟨u, hu, rfl⟩ := List.mem_map.mp hl
    rw [Token.numeral?_trimRight]
    exact hlines u hu

/-- A document with protocols before and behind a banner, a number that comes twice, a type with a number
and a brace in a comment of a block. -/
def repeatedNumber : Text :=
  "login 1 \x7b\n request \x7b\n  name 0 : string # \x7d\n \x7d\n response \x7b\x7d\n\x7d\n".toList ++
    "#### Chat ####\n.text 7 \x7b\n\x7d\nlogout 1 \x7b\n response \x7b\n \x7d\n\x7d\n".toList ++
    "say 2 \x7b \x7d".toList

theorem firstEntries_repeatedNumber :
    Enclosed (lines repeatedNumber) ∧ neverCuts none (Token.ofLines (lines repeatedNumber)) = true ∧
      ∃ ss r, Symbol.ofSource repeatedNumber = .ok ss ∧ validate repeatedNumber = .ok r ∧
        firstEntries (Symbol.entriesAll ss) = r.protocols ∧
        r.protocols = [⟨"login".toList, 1, 0⟩, ⟨".text".toList, 7, 7⟩, ⟨"say".toList, 2, 13⟩] := by
  have hts : Token.ofSource? repeatedNumber = .ok (Token.ofLines (lines repeatedNumber)) := by
    decide +kernel
  have hcuts : neverCuts none (Token.ofLines (lines repeatedNumber)) = true := by decide +kernel
  have hblocks : Enclosed (lines repeatedNumber) := by decide +kernel
  obtain ⟨r, hr, hentries, htotal⟩ := firstEntries_symbols hts hcuts hblocks
  obtain ⟨ss, hss⟩ := htotal (by decide +kernel)
  refine ⟨hblocks, hcuts, ss, r, hss, hr, hentries ss hss, ?_⟩
  have hprotocols : (validate repeatedNumber).map Report.protocols =
      .ok [⟨"login".toList, 1, 0⟩, ⟨".text".toList, 7, 7⟩, ⟨"say".toList, 2, 13⟩] := by
    decide +kernel
  rw [hr] at hprotocols
  exact Except.ok.inj hprotocols

end Sproto
