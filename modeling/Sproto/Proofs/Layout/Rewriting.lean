import Sproto.Proofs.Layout.CutOff

/-! # How a document is rewritten

`Rewritten s depth ts ts'` says that the lines `ts'` are what the style `s` writes for `ts` when no
protocol is cut off, beginning at a depth.  Everything that layout leaves unchanged is proved by induction
on it.

`Rewritten.of_settles`: a run that cuts no protocol off rewrites its lines. -/
namespace Sproto

open Text

/-- The lines `ts'` are what the style `s` writes for the lines `ts`, met at a depth, while no protocol
is cut off. -/
inductive Rewritten (s : Style) : Option Int → List Token → List Token → Prop
  | done : Rewritten s none [] []
  | outside {t t' : Token} {ts ts' : List Token} (ht : t.Proper) (hw : t.Written t'.text)
      (ht' : t'.shape = Shape.read t'.text) (h : t'.text = s.lineOf none t)
      (hrest : Rewritten s (nest none t) ts ts') :
      Rewritten s none (t :: ts) (t' :: ts')
  | inside {d : Int} {t t' : Token} {ts ts' : List Token} (hd : 0 < d) (ht : t.Proper)
      (hw : t.Written t'.text) (ht' : t'.shape = Shape.read t'.text) (hcut : t.isCut = false)
      (hempty : t.opensEmpty ts = false) (h : t'.text = s.lineOf (some d) t)
      (hrest : Rewritten s (nest (some d) t) ts ts') :
      Rewritten s (some d) (t :: ts) (t' :: ts')
  | closed {d : Int} {t t' : Token} {ts ts' : List Token} {k : BlockKind} {rest : Text} (hd : 0 < d)
      (ht : t.Proper) (hshape : t.shape = .block k true rest)
      (ht' : t'.shape = Shape.read t'.text) (h : t'.text = (Row.emptyBlock k).line s)
      (hrest : Rewritten s (some d) ts ts') :
      Rewritten s (some d) (t :: ts) (t' :: ts')
  | pair {d : Int} {t u t' : Token} {ts ts' : List Token} {k : BlockKind} {rest : Text} (hd : 0 < d)
      (ht : t.Proper) (hu : u.Proper) (hshape : t.shape = .block k false rest)
      (hclose : u.shape = .closeBrace) (ht' : t'.shape = Shape.read t'.text)
      (h : t'.text = (Row.emptyBlock k).line s) (hrest : Rewritten s (some d) ts ts') :
      Rewritten s (some d) (t :: u :: ts) (t' :: ts')

/-- The line of an empty block is a block start that is closed at once. -/
theorem Token.shape_of_emptyBlock {s : Style} {t : Token} {k : BlockKind}
    (ht : t.shape = Shape.read t.text) (h : t.text = (Row.emptyBlock k).line s) :
    t.shape = .block k true [] := by
  rw [ht, h, Row.read_emptyBlock]

theorem Token.proper_of_emptyBlock {s : Style} {t : Token} {k : BlockKind}
    (ht : t.shape = Shape.read t.text) (h : t.text = (Row.emptyBlock k).line s) : t.Proper := by
  have hshape := shape_of_emptyBlock ht h
  refine ⟨⟨ht, ?_⟩, ?_, ?_⟩
  · have hmargin : '\n' ∉ s.margin 1 := fun hm => by simpa using List.eq_of_mem_replicate hm
    have hword : '\n' ∉ k.word := fun hm => by cases k.isName_word.2 _ hm
    simp [h, Row.line, hmargin, hword]
  · have htrim := trimRight_append_cons (s.margin 1 ++ k.word ++ [' ', '{']) isSpace_closeBrace []
    simpa [h, Row.line] using htrim
  · rw [hshape]
    exact fun h' => by cases h'

/-- What is relaid while no protocol is cut off is rewritten. -/
theorem Relaid.rewritten {s : Style} {current : Option Body} {ts ts' : List Token}
    (h : Relaid s current ts ts') (hset : Section.endings current (Item.ofTokens ts) = []) :
    Rewritten s (current.map Body.depth) ts ts' := by
  induction h with
  | done => exact .done
  | @outside t t' ts ts' ht hw ht' h hrest ih =>
    rw [Section.endings_none] at hset
    have hnext := ih hset
    rw [Section.map_depth_step_line] at hnext
    exact .outside ht hw ht' h hnext
  | @inside b t t' ts ts' hd ht hw ht' hcut hempty h hahead hrest ih =>
    rw [Section.endings_line b hempty hcut] at hset
    have hnext := ih hset
    rw [Section.map_depth_step_line] at hnext
    exact .inside hd ht hw ht' hcut hempty h hnext
  | @closed b t t' ts ts' k rest hd ht hshape ht' h hrest ih =>
    rw [Section.endings_closed b hshape] at hset
    exact .closed hd ht hshape ht' h (ih hset)
  | @pair b t u t' ts ts' k rest hd ht hu hshape hclose ht' h hrest ih =>
    rw [Section.endings_pair b hshape hclose] at hset
    exact .pair hd ht hu hshape hclose ht' h (ih hset)
  | kept hcut hb hrest ih =>
    rw [Section.endings_of_cutAhead hcut] at hset
    cases hset
  | mended hd hcut hb hc h hrest ih =>
    rw [Section.endings_of_cutAhead hcut] at hset
    cases hset
  | @dangling b t t' c ts ts' k rest hd ht hw ht' hshape hempty hopen hcut hc h hrest ih =>
    have hline : t.isCut = false := by rw [Token.isCut, hshape]
    rw [Section.endings_line b hempty hline, Section.endings_of_cutAhead hcut,
      Section.step_some_of_not_isCut hline, Body.goesOn_eq_some_iff.mpr ⟨rfl, hopen⟩] at hset
    cases hset

namespace Rewritten

/-- **A run that cuts no protocol off rewrites its lines.** -/
theorem of_settles {s : Style} (hs : 0 < s.indent) {ts ts' : List Token} {current : Option Body}
    (hts : ∀ t ∈ ts, t.Proper) (hts' : ∀ t ∈ ts', t.shape = Shape.read t.text)
    (hcurrent : ∀ d, current.map Body.depth = some d → 0 < d)
    (hset : Section.settles current (Item.ofTokens ts) = true)
    (h : ts'.map Token.text = Section.writtenLines s current (Item.ofTokens ts)) :
    Rewritten s (current.map Body.depth) ts ts' := by
  rw [Section.settles_iff] at hset
  refine (Relaid.of_run hs hts hts' (fun b hb => hcurrent _ (by rw [hb]; rfl)) ?_ h).rewritten hset
  rintro b rfl -
  by_contra hcut
  rw [Section.endings_of_cutAhead (by simpa using hcut)] at hset
  cases hset

/-- Every line that is written is read as a proper one. -/
theorem proper {s : Style} {depth : Option Int} {ts ts' : List Token} (h : Rewritten s depth ts ts') :
    ∀ t ∈ ts', t.Proper := by
  induction h with
  | done => exact fun t ht => by cases ht
  | outside ht hw ht' h hrest ih => exact List.forall_mem_cons.mpr ⟨hw.proper ht ht', ih⟩
  | inside hd ht hw ht' hcut hempty h hrest ih =>
    exact List.forall_mem_cons.mpr ⟨hw.proper ht ht', ih⟩
  | closed hd ht hshape ht' h hrest ih =>
    exact List.forall_mem_cons.mpr ⟨Token.proper_of_emptyBlock ht' h, ih⟩
  | pair hd ht hu hshape hclose ht' h hrest ih =>
    exact List.forall_mem_cons.mpr ⟨Token.proper_of_emptyBlock ht' h, ih⟩

/-- **Nothing that was accepted is refused once it is rewritten.** -/
theorem fault_eq_none {s : Style} {depth : Option Int} {ts ts' : List Token}
    (h : Rewritten s depth ts ts') (hf : ∀ t ∈ ts, t.fault? = none) : ∀ t ∈ ts', t.fault? = none := by
  induction h with
  | done => exact fun t ht => by cases ht
  | outside ht hw ht' h hrest ih =>
    obtain ⟨hfirst, htail⟩ := List.forall_mem_cons.mp hf
    exact List.forall_mem_cons.mpr ⟨hw.fault_eq_none ht' hfirst, ih htail⟩
  | inside hd ht hw ht' hcut hempty h hrest ih =>
    obtain ⟨hfirst, htail⟩ := List.forall_mem_cons.mp hf
    exact List.forall_mem_cons.mpr ⟨hw.fault_eq_none ht' hfirst, ih htail⟩
  | closed hd ht hshape ht' h hrest ih =>
    have hblock := Token.shape_of_emptyBlock ht' h
    refine List.forall_mem_cons.mpr ⟨?_, ih (List.forall_mem_cons.mp hf).2⟩
    rw [Token.fault?, hblock]
    rfl
  | pair hd ht hu hshape hclose ht' h hrest ih =>
    have hblock := Token.shape_of_emptyBlock ht' h
    have htail := (List.forall_mem_cons.mp (List.forall_mem_cons.mp hf).2).2
    refine List.forall_mem_cons.mpr ⟨?_, ih htail⟩
    rw [Token.fault?, hblock]
    rfl

end Rewritten
end Sproto
