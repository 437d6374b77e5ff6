import Sproto.Proofs.Layout.Run

/-! # Protocols that are cut off

A protocol that is cut off is given a closing brace unless it ends in one.  What the next pass makes of it
depends on how the protocol ended (`Ending`), so a run keeps a list of that (`Section.endings`).

`Relaid s current ts ts'` says that the lines `ts'` are what the style `s` writes for `ts`, met while
`current` is open, whether or not protocols are cut off (`Relaid.of_run`). -/
namespace Sproto

open Text

/-! ## How a protocol ends -/

/-- How a protocol ends that is cut off. -/
inductive Ending where
  /-- In a closing brace alone, so that none is added. -/
  | closing
  /-- In the start of a block, which the closing brace that is added will seem to close. -/
  | blockStart
  /-- In any other line. -/
  | other
  deriving DecidableEq, Repr

/-- How a protocol ends on the next pass if it is cut off once more.  The closing brace that was added is
then its last line, unless it was taken for the end of a block. -/
def Ending.next : Ending → Ending
  | blockStart => other
  | _ => closing

/-- The ending that a row makes if it is the last one. -/
def Row.ending (r : Row) : Ending :=
  match r with
  | .block _ _ => .blockStart
  | r => if r.isClosing then .closing else .other

/-- How a body ends. -/
def Body.ending (b : Body) : Ending := (b.rows.getLast?.map Row.ending).getD .other

theorem Row.ending_eq_closing_iff (r : Row) : r.ending = .closing ↔ r.isClosing = true := by
  cases r <;> simp [Row.ending, Row.isClosing]

theorem Body.ending_append (d : Int) (rows : List Row) (r : Row) :
    Body.ending ⟨d, rows ++ [r]⟩ = r.ending := by
  simp [Body.ending]

theorem Body.ending_addEmptyBlock (b : Body) (k : BlockKind) : (b.addEmptyBlock k).ending = .other :=
  Body.ending_append ..

/-- No closing brace is added exactly if the last row is one. -/
theorem Body.any_isClosing (b : Body) :
    b.rows.getLast?.any Row.isClosing = true ↔ b.ending = .closing := by
  unfold Body.ending
  cases b.rows.getLast? with
  | none => simp
  | some r => simp [Row.ending_eq_closing_iff]

theorem Body.goesOn_eq_some_iff {b c : Body} : b.goesOn = some c ↔ b = c ∧ 0 < b.depth := by
  unfold Body.goesOn
  split
  · simp only [reduceCtorEq, false_iff, not_and]
    omega
  · simp only [Option.some.injEq, iff_self_and]
    omega

theorem Body.cutOff_of_closing {b : Body} (h : b.ending = .closing) : b.cutOff = b.rows := by
  rw [Body.cutOff, if_pos (b.any_isClosing.mpr h)]

namespace Token

/-- The ending that a line of a protocol makes if it is the last one. -/
def ending (t : Token) : Ending :=
  match t.shape with
  | .block _ _ _ => .blockStart
  | .closeBrace => .closing
  | _ => .other

theorem Genuine.closeBrace_iff {t : Token} (ht : t.Genuine) :
    t.shape = .closeBrace ↔ trim t.text = ['}'] := by
  constructor
  · intro h
    have hr := ht.reads
    rw [h] at hr
    cases hr with
    | closeBrace htrim => exact htrim
  · intro h
    rw [ht.shape_eq]
    exact Shape.Reads.read_eq (.closeBrace h)

theorem Genuine.ending_rowOf {t : Token} (ht : t.Genuine) (d e : Int) :
    (Body.rowOf t d e).ending = t.ending := by
  have hclose := ht.closeBrace_iff
  unfold Token.ending Body.rowOf
  cases hs : t.shape with
  | block k closed rest => rfl
  | field name n body => rfl
  | closeBrace => simp [Row.ending, Row.isClosing, hclose.mp hs]
  | _ =>
    have hne : trim t.text ≠ ['}'] := fun h => by cases (hclose.mpr h).symm.trans hs
    simp [Row.ending, Row.isClosing, hne]

theorem Alike.ending_eq {t t' : Token} (h : t.Alike t') : t'.ending = t.ending := by
  have hshape := h.shape
  unfold ending
  generalize t.shape = sh at hshape
  generalize t'.shape = sh' at hshape
  cases hshape <;> rfl

/-- A line that begins a block and is no empty block. -/
theorem exists_block_of_ending {t : Token} {ts : List Token} (h : t.ending = .blockStart)
    (hempty : t.opensEmpty ts = false) : ∃ k rest, t.shape = .block k false rest := by
  unfold ending at h
  unfold opensEmpty at hempty
  rcases hs : t.shape with _ | _ | _ | _ | _ | ⟨k, _ | _, rest⟩ | _ | _ | _ <;> simp_all

end Token

namespace Section

/-- The protocol that is open behind a line ends in that line. -/
theorem ending_of_step {current : Option Body} {t : Token} (ht : t.Genuine) {b : Body}
    (h : (step current (.line t)).2 = some b) : b.ending = t.ending := by
  rcases t.cut_cases with hbanner | ⟨name, number, rest, hproto⟩ | hcut
  · simp only [step, hbanner] at h
    cases h
  · simp only [step, hproto, Body.goesOn_eq_some_iff] at h
    rw [← h.1, Token.ending, hproto]
    rfl
  · rcases current with _ | c
    · rw [step_none_of_not_isCut hcut] at h
      cases h
    · rw [step_some_of_not_isCut hcut, Body.goesOn_eq_some_iff] at h
      rw [← h.1, Body.add, Body.ending_append, ht.ending_rowOf]

/-- A protocol that a line opens ends in its declaration. -/
theorem ending_of_step_none {t : Token} {b : Body} (h : (step none (.line t)).2 = some b) :
    b.ending = .other := by
  rcases t.cut_cases with hbanner | ⟨name, number, rest, hproto⟩ | hcut
  · simp only [step, hbanner] at h
    cases h
  · simp only [step, hproto, Body.goesOn_eq_some_iff] at h
    rw [← h.1]
    rfl
  · rw [step_none_of_not_isCut hcut] at h
    cases h

/-- How the protocol that is open would end. -/
def ending : Option Body → List Ending
  | none => []
  | some b => [b.ending]

/-- How the protocols end that a run cuts off, in order. -/
def endings : Option Body → List Item → List Ending
  | current, [] => ending current
  | current, i :: is => (if i.isCut then ending current else []) ++ endings (step current i).2 is

/-- Whether a run never cuts a protocol off: the braces of each one balance before the next banner, the
next declaration in the first column and the end of the document. -/
def settles : Option Body → List Item → Bool
  | current, [] => current.isNone
  | current, i :: is => (!i.isCut || current.isNone) && settles (step current i).2 is

theorem ending_eq_nil_iff {current : Option Body} : ending current = [] ↔ current = none := by
  cases current <;> simp [ending]

/-- A run settles exactly if it cuts nothing off. -/
theorem settles_iff {current : Option Body} {is : List Item} :
    settles current is = true ↔ endings current is = [] := by
  induction is generalizing current with
  | nil => simp [settles, endings, ending_eq_nil_iff]
  | cons i is ih =>
    rw [settles, endings, Bool.and_eq_true, ih, List.append_eq_nil_iff]
    cases i.isCut <;> simp [ending_eq_nil_iff]

/-! ## Endings line by line -/

theorem endings_none (t : Token) (ts : List Token) :
    endings none (Item.ofTokens (t :: ts)) = endings (step none (.line t)).2 (Item.ofTokens ts) := by
  by_cases h : t.opensEmpty ts = true
  · rcases cases_of_opensEmpty h with ⟨k, rest, hs⟩ | ⟨k, rest, u, us, hs, hu, rfl⟩
    · rw [ofTokens_closed hs, endings]
      simp [step, hs, ending]
    · rw [ofTokens_pair hs hu, endings, ofTokens_line (opensEmpty_closeBrace hu us)]
      simp [step, hs, hu, endings, ending]
  · rw [ofTokens_line (by simpa using h), endings]
    simp [ending]

theorem endings_line (b : Body) {t : Token} {ts : List Token} (hempty : t.opensEmpty ts = false)
    (hcut : t.isCut = false) :
    endings (some b) (Item.ofTokens (t :: ts)) =
      endings (step (some b) (.line t)).2 (Item.ofTokens ts) := by
  rw [ofTokens_line hempty, endings]
  simp [Item.isCut, hcut]

theorem endings_closed (b : Body) {t : Token} {k : BlockKind} {rest : Text}
    (h : t.shape = .block k true rest) (ts : List Token) :
    endings (some b) (Item.ofTokens (t :: ts)) =
      endings (some (b.addEmptyBlock k)) (Item.ofTokens ts) := by
  rw [ofTokens_closed h]
  rfl

theorem endings_pair (b : Body) {t u : Token} {k : BlockKind} {rest : Text}
    (h : t.shape = .block k false rest) (hu : u.shape = .closeBrace) (us : List Token) :
    endings (some b) (Item.ofTokens (t :: u :: us)) =
      endings (some (b.addEmptyBlock k)) (Item.ofTokens us) := by
  rw [ofTokens_pair h hu]
  rfl

end Section

/-! ## Where a protocol is cut off -/

/-- Whether the lines ahead cut off a protocol that is open: there are none, or the first is a banner or a
declaration. -/
def cutAhead (ts : List Token) : Bool := ts.head?.all Token.isCut

namespace Section

/-- A line that cuts protocols off begins no empty block. -/
theorem opensEmpty_of_isCut {t : Token} (h : t.isCut = true) (ts : List Token) :
    t.opensEmpty ts = false := by
  unfold Token.isCut at h
  unfold Token.opensEmpty
  cases hs : t.shape <;> simp_all

/-- A line that cuts a protocol off goes on as if none had been open. -/
theorem step_of_isCut {t : Token} (h : t.isCut = true) (current : Option Body) :
    step current (.line t) = (cutOff current ++ (step none (.line t)).1, (step none (.line t)).2) := by
  unfold Token.isCut at h
  cases hs : t.shape <;> simp_all [step, cutOff]

/-- **Where a protocol is cut off, its end comes first**, and the rest is as if none had been open. -/
theorem gather_of_cutAhead {ts : List Token} (h : cutAhead ts = true) (current : Option Body) :
    gather current ts = cutOff current ++ gather none ts := by
  rcases ts with _ | ⟨t, ts⟩
  · simp [gather, Item.ofTokens, run, cutOff]
  · have hcut : t.isCut = true := h
    have hempty := opensEmpty_of_isCut hcut ts
    rw [gather_line current hempty, gather_line none hempty, step_of_isCut hcut, List.append_assoc]

theorem endings_of_cutAhead {ts : List Token} (h : cutAhead ts = true) (current : Option Body) :
    endings current (Item.ofTokens ts) = ending current ++ endings none (Item.ofTokens ts) := by
  rcases ts with _ | ⟨t, ts⟩
  · simp [Item.ofTokens, endings, ending]
  · have hcut : t.isCut = true := h
    rw [ofTokens_line (opensEmpty_of_isCut hcut ts), endings, endings, step_of_isCut hcut]
    simp [Item.isCut, hcut, ending]

theorem writtenLines_of_cutAhead (s : Style) {ts : List Token} (h : cutAhead ts = true)
    (current : Option Body) :
    writtenLines s current (Item.ofTokens ts) =
      closing current ++ writtenLines s none (Item.ofTokens ts) := by
  rcases ts with _ | ⟨t, ts⟩
  · simp [Item.ofTokens, writtenLines, closing]
  · have hcut : t.isCut = true := h
    have hline : s.lineOf (current.map Body.depth) t = s.lineOf none t := by
      unfold Token.isCut at hcut
      cases hs : t.shape <;> simp_all [Style.lineOf]
    rw [writtenLines_none, ofTokens_line (opensEmpty_of_isCut hcut ts), writtenLines,
      step_of_isCut hcut]
    simp [Item.isCut, hcut, Item.written, hline]

theorem closing_some (b : Body) : closing (some b) = if b.ending = .closing then [] else [['}']] := by
  simp only [closing, b.any_isClosing]

end Section

/-! ## The lines that are written -/

/-- The lines `ts'` are what the style `s` writes for the lines `ts`, met while `current` is open. -/
inductive Relaid (s : Style) : Option Body → List Token → List Token → Prop
  | done : Relaid s none [] []
  | outside {t t' : Token} {ts ts' : List Token} (ht : t.Proper) (hw : t.Written t'.text)
      (ht' : t'.shape = Shape.read t'.text) (h : t'.text = s.lineOf none t)
      (hrest : Relaid s (Section.step none (.line t)).2 ts ts') :
      Relaid s none (t :: ts) (t' :: ts')
  | inside {b : Body} {t t' : Token} {ts ts' : List Token} (hd : 0 < b.depth) (ht : t.Proper)
      (hw : t.Written t'.text) (ht' : t'.shape = Shape.read t'.text) (hcut : t.isCut = false)
      (hempty : t.opensEmpty ts = false) (h : t'.text = s.lineOf (some b.depth) t)
      (hahead : ∀ c, (Section.step (some b) (.line t)).2 = some c → c.ending = .blockStart →
        cutAhead ts = false)
      (hrest : Relaid s (Section.step (some b) (.line t)).2 ts ts') :
      Relaid s (some b) (t :: ts) (t' :: ts')
  | closed {b : Body} {t t' : Token} {ts ts' : List Token} {k : BlockKind} {rest : Text}
      (hd : 0 < b.depth) (ht : t.Proper) (hshape : t.shape = .block k true rest)
      (ht' : t'.shape = Shape.read t'.text) (h : t'.text = (Row.emptyBlock k).line s)
      (hrest : Relaid s (some (b.addEmptyBlock k)) ts ts') :
      Relaid s (some b) (t :: ts) (t' :: ts')
  | pair {b : Body} {t u t' : Token} {ts ts' : List Token} {k : BlockKind} {rest : Text}
      (hd : 0 < b.depth) (ht : t.Proper) (hu : u.Proper) (hshape : t.shape = .block k false rest)
      (hclose : u.shape = .closeBrace) (ht' : t'.shape = Shape.read t'.text)
      (h : t'.text = (Row.emptyBlock k).line s)
      (hrest : Relaid s (some (b.addEmptyBlock k)) ts ts') :
      Relaid s (some b) (t :: u :: ts) (t' :: ts')
  /-- A protocol that is cut off behind a closing brace. -/
  | kept {b : Body} {ts ts' : List Token} (hcut : cutAhead ts = true) (hb : b.ending = .closing)
      (hrest : Relaid s none ts ts') : Relaid s (some b) ts ts'
  /-- A protocol that is given a closing brace. -/
  | mended {b : Body} {c : Token} {ts ts' : List Token} (hd : 0 < b.depth) (hcut : cutAhead ts = true)
      (hb : b.ending = .other) (hc : c.shape = Shape.read c.text) (h : c.text = ['}'])
      (hrest : Relaid s none ts ts') : Relaid s (some b) ts (c :: ts')
  /-- A protocol that is given a closing brace behind the start of a block. -/
  | dangling {b : Body} {t t' c : Token} {ts ts' : List Token} {k : BlockKind} {rest : Text}
      (hd : 0 < b.depth) (ht : t.Proper) (hw : t.Written t'.text) (ht' : t'.shape = Shape.read t'.text)
      (hshape : t.shape = .block k false rest) (hempty : t.opensEmpty ts = false)
      (hopen : 0 < b.depth + braceBalance t.text) (hcut : cutAhead ts = true)
      (hc : c.shape = Shape.read c.text) (h : c.text = ['}']) (hrest : Relaid s none ts ts') :
      Relaid s (some b) (t :: ts) (t' :: c :: ts')

namespace Relaid

variable {s : Style}

/-- A protocol that is cut off is kept or mended, and the rest is relaid as if none had been open. -/
theorem of_cutAhead {b : Body} {ts ts' : List Token} (hd : 0 < b.depth) (hcut : cutAhead ts = true)
    (hb : b.ending ≠ .blockStart) (hts' : ∀ t ∈ ts', t.shape = Shape.read t.text)
    (h : ts'.map Token.text = Section.writtenLines s (some b) (Item.ofTokens ts))
    (hrest : ∀ us : List Token, (∀ t ∈ us, t.shape = Shape.read t.text) →
      us.map Token.text = Section.writtenLines s none (Item.ofTokens ts) → Relaid s none ts us) :
    Relaid s (some b) ts ts' := by
  rw [Section.writtenLines_of_cutAhead s hcut, Section.closing_some] at h
  by_cases hclosing : b.ending = .closing
  · rw [if_pos hclosing] at h
    exact .kept hcut hclosing (hrest ts' hts' h)
  · rw [if_neg hclosing] at h
    obtain ⟨c, us, rfl, htext, hus⟩ := List.map_eq_cons_iff.mp h
    obtain ⟨hc, htail⟩ := List.forall_mem_cons.mp hts'
    have hother : b.ending = .other := by cases hend : b.ending <;> simp_all
    exact .mended hd hcut hother hc htext (hrest us htail hus)

/-- The protocol that is open behind a line has an open brace. -/
theorem depth_pos_of_step {current : Option Body} {t : Token} {b : Body}
    (h : (Section.step current (.line t)).2 = some b) : 0 < b.depth := by
  have hdepth := Section.map_depth_step_line current t
  rw [h] at hdepth
  exact pos_of_nest hdepth.symm

/-- A line of a protocol that is no empty block, and behind it what is relaid or the end. -/
theorem of_line (hs : 0 < s.indent) {b : Body} {t : Token} {ts ts' : List Token} (hd : 0 < b.depth)
    (ht : t.Proper) (hcut : t.isCut = false) (hempty : t.opensEmpty ts = false)
    (hts' : ∀ t ∈ ts', t.shape = Shape.read t.text)
    (h : ts'.map Token.text = Section.writtenLines s (some b) (Item.ofTokens (t :: ts)))
    (hrest : ∀ (current : Option Body) (us : List Token),
      (∀ t ∈ us, t.shape = Shape.read t.text) → (∀ b, current = some b → 0 < b.depth) →
      (∀ b, current = some b → b.ending = .blockStart → cutAhead ts = false) →
      us.map Token.text = Section.writtenLines s current (Item.ofTokens ts) → Relaid s current ts us) :
    Relaid s (some b) (t :: ts) ts' := by
  rw [Section.writtenLines_line s b hempty hcut] at h
  obtain ⟨t', us, rfl, htext, hus⟩ := List.map_eq_cons_iff.mp h
  obtain ⟨ht', htail⟩ := List.forall_mem_cons.mp hts'
  have hw : t.Written t'.text := by
    rw [htext]
    refine Style.written_lineOf_some hs ht hd fun k rest hshape => ?_
    rw [Token.opensEmpty, hshape] at hempty
    cases hempty
  by_cases hahead : ∀ c, (Section.step (some b) (.line t)).2 = some c → c.ending = .blockStart →
      cutAhead ts = false
  · exact .inside hd ht hw ht' hcut hempty htext hahead
      (hrest _ us htail (fun _ => depth_pos_of_step) hahead hus)
  · -- the block that begins here is cut off at once
    push Not at hahead
    obtain ⟨c, hstep, hend, hcutAhead⟩ := hahead
    have hcutAhead : cutAhead ts = true := by simpa using hcutAhead
    obtain ⟨k, rest, hshape⟩ := Token.exists_block_of_ending
      ((Section.ending_of_step ht.toGenuine hstep).symm.trans hend) hempty
    rw [hstep, Section.writtenLines_of_cutAhead s hcutAhead, Section.closing_some, hend,
      if_neg (by simp)] at hus
    obtain ⟨c', us, rfl, hbrace, hus⟩ := List.map_eq_cons_iff.mp hus
    obtain ⟨hc', htail⟩ := List.forall_mem_cons.mp htail
    rw [Section.step_some_of_not_isCut hcut, Body.goesOn_eq_some_iff] at hstep
    refine .dangling hd ht hw ht' hshape hempty hstep.2 hcutAhead hc' hbrace ?_
    exact hrest none us htail (fun _ hb => by cases hb) (fun _ hb => by cases hb) hus

/-- **A run relays its lines.** -/
theorem of_run (hs : 0 < s.indent) {ts ts' : List Token} {current : Option Body}
    (hts : ∀ t ∈ ts, t.Proper) (hts' : ∀ t ∈ ts', t.shape = Shape.read t.text)
    (hopen : ∀ b, current = some b → 0 < b.depth)
    (hahead : ∀ b, current = some b → b.ending = .blockStart → cutAhead ts = false)
    (h : ts'.map Token.text = Section.writtenLines s current (Item.ofTokens ts)) :
    Relaid s current ts ts' := by
  -- an empty block takes two lines at once, so the induction is on the number of lines
  induction hn : ts.length using Nat.strong_induction_on generalizing ts ts' current with
  | _ n ih =>
    subst hn
    have hnone : ∀ us : List Token, (∀ t ∈ us, t.shape = Shape.read t.text) →
        us.map Token.text = Section.writtenLines s none (Item.ofTokens ts) → Relaid s none ts us := by
      intro us hus hlines
      rcases ts with _ | ⟨t, ts⟩
      · rw [List.map_eq_nil_iff.mp hlines]
        exact .done
      · obtain ⟨ht, htail⟩ := List.forall_mem_cons.mp hts
        rw [Section.writtenLines_none] at hlines
        obtain ⟨t', us, rfl, htext, hlines⟩ := List.map_eq_cons_iff.mp hlines
        obtain ⟨ht', hus⟩ := List.forall_mem_cons.mp hus
        have hw := s.written_lineOf_none ht
        rw [← htext] at hw
        refine .outside ht hw ht' htext ?_
        refine ih _ (by simp) htail hus (fun _ => depth_pos_of_step) ?_ hlines rfl
        intro b hb hend
        rw [Section.ending_of_step_none hb] at hend
        cases hend
    rcases current with _ | b
    · exact hnone ts' hts' h
    have hd := hopen b rfl
    by_cases hcut : cutAhead ts = true
    · exact of_cutAhead hd hcut (fun hb => by simp [hahead b rfl hb] at hcut) hts' h hnone
    obtain ⟨t, ts, rfl, hline⟩ : ∃ t us, ts = t :: us ∧ t.isCut = false := by
      rcases ts with _ | ⟨t, us⟩
      · exact absurd rfl hcut
      · exact ⟨t, us, rfl, by simpa [cutAhead] using hcut⟩
    obtain ⟨ht, htail⟩ := List.forall_mem_cons.mp hts
    by_cases hempty : t.opensEmpty ts = true
    · have hblock : ∀ (k : BlockKind) (c : Body), some (b.addEmptyBlock k) = some c →
          0 < c.depth ∧ c.ending = .other := by
        rintro k c ⟨⟩
        exact ⟨hd, b.ending_addEmptyBlock k⟩
      rcases Section.cases_of_opensEmpty hempty with ⟨k, rest, hshape⟩ |
        ⟨k, rest, u, us, hshape, hu, rfl⟩
      · rw [Section.writtenLines_closed s b hshape] at h
        obtain ⟨t', us', rfl, htext, hus⟩ := List.map_eq_cons_iff.mp h
        obtain ⟨ht', hus'⟩ := List.forall_mem_cons.mp hts'
        refine .closed hd ht hshape ht' htext ?_
        refine ih _ (by simp) htail hus' (fun c hc => (hblock k c hc).1) ?_ hus rfl
        exact fun c hc hend => by rw [(hblock k c hc).2] at hend; cases hend
      · rw [Section.writtenLines_pair s b hshape hu] at h
        obtain ⟨t', us', rfl, htext, hus⟩ := List.map_eq_cons_iff.mp h
        obtain ⟨ht', hus'⟩ := List.forall_mem_cons.mp hts'
        obtain ⟨hproper, htail⟩ := List.forall_mem_cons.mp htail
        refine .pair hd ht hproper hshape hu ht' htext ?_
        refine ih _ (by simp only [List.length_cons]; omega) htail hus' (fun c hc => (hblock k c hc).1) ?_ hus rfl
        exact fun c hc hend => by rw [(hblock k c hc).2] at hend; cases hend
    · refine of_line hs hd ht hline (by simpa using hempty) hts' h fun c us hus hdepth hend hlines => ?_
      exact ih _ (by simp) htail hus hdepth hend hlines rfl

end Relaid
end Sproto
