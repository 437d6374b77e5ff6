import Sproto.Proofs.Validation.Report
import Sproto.Proofs.Validation.Schema

/-! # Schemas have no errors

A pass is clean if it refuses nothing and finds no error (`Clean`).  Every line of a schema is passed
cleanly in the context in which the grammar puts it, and clean passes compose (`Clean.append`), so a
schema whose numbers do not repeat is validated without an error (`severity_ne_error_of_isSchema`). -/
namespace Sproto

open Text

/-- Whether a shape neither takes a protocol number nor opens a block. -/
def Shape.isIdle : Shape → Bool
  | protocol _ (some _) _ => false
  | block _ false _ => false
  | _ => true

namespace Validation

/-! ## Moves of good lines -/

/-- Findings without an error among them. -/
def Quiet (fs : List Finding) : Prop := ∀ f ∈ fs, f.problem.severity ≠ .error

theorem quiet_nil : Quiet [] := fun _ h => by cases h

theorem Quiet.append {fs gs : List Finding} (hf : Quiet fs) (hg : Quiet gs) : Quiet (fs ++ gs) :=
  fun f h => (List.mem_append.mp h).elim (hf f) (hg f)

theorem quiet_punctuationFindings (t : Token) : Quiet (punctuationFindings t) := by
  intro f hf
  obtain ⟨-, mark, replacement, hproblem⟩ := mem_punctuationFindings hf
  rw [hproblem]
  exact fun h => by cases h

section

variable {s s' : State} {t : Token} {fs : List Finding} {k : BlockKind} {fields : List Entry}

/-- An idle line outside blocks takes no number and opens no block. -/
theorem Moves.of_isIdle (h : Moves s t s' fs) (hs : s.context = .top)
    (hidle : t.shape.isIdle = true) :
    s'.context = .top ∧ s'.protocols = s.protocols ∧ Quiet fs := by
  cases h with
  | header => exact ⟨hs, rfl, quiet_nil⟩
  | pass => exact ⟨hs, rfl, quiet_punctuationFindings t⟩
  | register _ hshape | repeatProtocol _ hshape | enter _ hshape =>
    rw [hshape] at hidle
    cases hidle
  | leave hb | take hb | repeatField hb | skip hb | fault hb =>
    rw [hs] at hb
    cases hb

/-- A declaration whose number is free takes it. -/
theorem Moves.of_declaration (h : Moves s t s' fs) (hs : s.context = .top) {name rest : Text}
    {n : Numeral} (hshape : t.shape = .protocol name (some n) rest) (hname : name.head? ≠ some '.')
    (hfree : taken? s.protocols n.value = none) :
    s'.context = .top ∧ s'.protocols = s.protocols ++ [⟨name, n.value, t.index⟩] ∧ Quiet fs := by
  cases h with
  | register _ hshape' =>
    rw [hshape] at hshape'
    cases hshape'
    refine ⟨hs, rfl, (quiet_punctuationFindings t).append ?_⟩
    rw [typeFindings, if_neg hname]
    exact quiet_nil
  | repeatProtocol _ hshape' htaken =>
    rw [hshape] at hshape'
    cases hshape'
    rw [hfree] at htaken
    cases htaken
  | header _ _ hremark => rcases hremark with h | h <;> rw [hshape] at h <;> cases h
  | enter _ hblock =>
    rw [hshape] at hblock
    cases hblock
  | pass _ _ hprotocol => exact absurd hshape (hprotocol _ _ _)
  | leave hb | take hb | repeatField hb | skip hb | fault hb =>
    rw [hs] at hb
    cases hb

/-- A line of a block that is skipped changes nothing. -/
theorem Moves.of_skipped (h : Moves s t s' fs) (ht : t.Genuine) (hs : s.context = .block k fields)
    (hclose : t.shape ≠ .closeBrace) (hskip : isSkipped t.shape t.text = true) :
    s' = s ∧ Quiet fs := by
  cases h with
  | skip => exact ⟨rfl, quiet_punctuationFindings t⟩
  | take _ _ hline =>
    obtain ⟨body, hread, -⟩ := (isFieldLine_iff ht.feed).mp hline
    rw [isSkipped_field ht (ht.shape_eq.trans hread)] at hskip
    cases hskip
  | repeatField _ hshape =>
    rw [isSkipped_field ht hshape] at hskip
    cases hskip
  | fault _ _ _ hchecked =>
    rw [hchecked] at hskip
    cases hskip
  | leave _ hshape => exact absurd hshape hclose
  | header htop | register htop | repeatProtocol htop | enter htop | pass htop =>
    rw [hs] at htop
    cases htop

/-- A field whose number is free takes it. -/
theorem Moves.of_field (h : Moves s t s' fs) (ht : t.Genuine) (hs : s.context = .block k fields)
    {name : Text} {n : Numeral} (hline : IsFieldLine t.text name n)
    (hfree : taken? fields n.value = none) :
    s' = { s with context := .block k (fields ++ [⟨name, n.value, t.index⟩]) } ∧ Quiet fs := by
  cases h with
  | take hb _ hline' =>
    obtain ⟨rfl, rfl⟩ := hline.unique ht.feed hline'
    rw [hs] at hb
    cases hb
    exact ⟨rfl, quiet_punctuationFindings t⟩
  | repeatField hb _ hline' htaken =>
    obtain ⟨rfl, rfl⟩ := hline.unique ht.feed hline'
    rw [hs] at hb
    cases hb
    rw [hfree] at htaken
    cases htaken
  | skip _ _ hnot | fault _ _ hnot => exact absurd hline (hnot _ _)
  | leave _ hshape =>
    obtain ⟨body, hread, -⟩ := (isFieldLine_iff ht.feed).mp hline
    rw [ht.shape_eq, hread] at hshape
    cases hshape
  | header htop | register htop | repeatProtocol htop | enter htop | pass htop =>
    rw [hs] at htop
    cases htop

end

/-! ## Clean passes -/

/-- A pass that is clean: no line is refused, nothing that is found is an error, the pass ends in the
context `c`, and its declarations take the numbers `ns`. -/
structure Clean (s : State) (ts : List Token) (c : Context) (ns : List Nat) : Prop where
  accepted : ∀ t ∈ ts, t.fault? = none
  context_eq : (s.run ts).1.context = c
  numbers_eq : (s.run ts).1.protocols.map Entry.number = s.protocols.map Entry.number ++ ns
  quiet : Quiet (s.run ts).2

section

variable {s : State} {c : Context}

theorem Clean.nil (hs : s.context = c) : Clean s [] c [] :=
  ⟨fun _ h => absurd h List.not_mem_nil, hs, (List.append_nil _).symm, quiet_nil⟩

theorem Clean.append {ts us : List Token} {c' : Context} {ns ms : List Nat} (h : Clean s ts c ns)
    (h' : Clean (s.run ts).1 us c' ms) : Clean s (ts ++ us) c' (ns ++ ms) where
  accepted t ht := (List.mem_append.mp ht).elim (h.accepted t) (h'.accepted t)
  context_eq := by
    rw [State.run_append]
    exact h'.context_eq
  numbers_eq := by
    rw [State.run_append, h'.numbers_eq, h.numbers_eq, List.append_assoc]
  quiet := by
    rw [State.run_append]
    exact h.quiet.append h'.quiet

theorem Clean.single {t : Token} {ns : List Nat} (hfault : t.fault? = none)
    (hcontext : (s.step t).1.context = c)
    (hnumbers : (s.step t).1.protocols.map Entry.number = s.protocols.map Entry.number ++ ns)
    (hquiet : Quiet (s.step t).2) : Clean s [t] c ns := by
  refine ⟨fun u hu => by rwa [List.mem_singleton.mp hu], hcontext, hnumbers, ?_⟩
  rw [State.run_cons, State.run_nil, List.append_nil]
  exact hquiet

theorem fault?_read_eq_none {i : Nat} {l : Text} {sh : Shape} (hread : Shape.read l = sh)
    (h : ∀ n, sh.numeral? = some n → n.Admissible) : (Token.read i l).fault? = none := by
  unfold Token.fault?
  rw [Token.read_shape, hread]
  cases hn : sh.numeral? with
  | none => rfl
  | some n => exact n.fault?_eq_none_iff.mpr (h n hn).short

end

/-! ## Lines outside blocks -/

section

variable {s : State} {i : Nat} {l : Text}

/-- A line outside blocks that takes no number and opens no block. -/
theorem clean_of_isIdle (hs : s.context = .top) (hl : '\n' ∉ l) {sh : Shape}
    (hread : Shape.read l = sh) (hidle : sh.isIdle = true)
    (hn : ∀ n, sh.numeral? = some n → n.Admissible) : Clean s [Token.read i l] .top [] := by
  subst hread
  obtain ⟨hcontext, hprotocols, hquiet⟩ := (moves_step s (Token.genuine_read hl i)).of_isIdle hs hidle
  exact .single (fault?_read_eq_none rfl hn) hcontext (by rw [hprotocols, List.append_nil]) hquiet

theorem clean_remark (hs : s.context = .top) (hl : '\n' ∉ l) (h : IsRemark l) :
    Clean s [Token.read i l] .top [] := by
  rcases h.read_isPlain with hread | hread | hread <;>
    exact clean_of_isIdle hs hl hread rfl fun _ hn => by cases hn

theorem clean_closing (hs : s.context = .top) (hl : '\n' ∉ l) (h : IsClosing l) :
    Clean s [Token.read i l] .top [] :=
  clean_of_isIdle hs hl h.read rfl fun _ hn => by cases hn

theorem clean_emptyBlock (hs : s.context = .top) (hl : '\n' ∉ l) (h : IsEmptyBlock l) :
    Clean s [Token.read i l] .top [] := by
  obtain ⟨k, rest, hread⟩ := h.read
  exact clean_of_isIdle hs hl hread rfl fun _ hn => by cases hn

theorem clean_field (hs : s.context = .top) (hl : '\n' ∉ l) {n : Numeral} (h : IsField l n) :
    Clean s [Token.read i l] .top [] := by
  obtain ⟨hn, name, hline⟩ := h.isFieldLine
  obtain ⟨body, hread, -⟩ := (isFieldLine_iff hl).mp hline
  exact clean_of_isIdle hs hl hread rfl fun _ hn' => by cases hn'; exact hn

theorem clean_header (hs : s.context = .top) (hl : '\n' ∉ l) {number : Option Numeral}
    (h : IsHeader l number)
    (hfree : ∀ n ∈ number, n.value ∉ s.protocols.map Entry.number) :
    Clean s [Token.read i l] .top (number.map Numeral.value).toList := by
  obtain ⟨name, rest, hread, hnumber⟩ := h.read
  cases number with
  | none =>
    exact clean_of_isIdle hs hl hread rfl fun _ hn => by cases hn
  | some n =>
    obtain ⟨hname, hn⟩ := hnumber n rfl
    obtain ⟨hcontext, hprotocols, hquiet⟩ := (moves_step s (Token.genuine_read hl i)).of_declaration
      hs hread hname (taken?_eq_none_iff_not_mem.mpr (hfree n rfl))
    refine .single (fault?_read_eq_none hread fun n' hn' => ?_) hcontext ?_ hquiet
    · cases hn'
      exact hn
    · rw [hprotocols, List.map_append]
      rfl

theorem clean_opening (hs : s.context = .top) (hl : '\n' ∉ l) {k : BlockKind} (h : IsOpening k l) :
    Clean s [Token.read i l] (.block k []) [] := by
  obtain ⟨rest, hread⟩ := h.read
  have hstep := step_of_opens (Token.genuine_read hl i) hs hread
  refine .single (fault?_read_eq_none hread fun _ hn => by cases hn) ?_ ?_ ?_
  · rw [hstep]
  · rw [hstep, List.append_nil]
  · rw [hstep]
    exact quiet_punctuationFindings _

/-! ## Lines inside blocks -/

variable {k : BlockKind} {fields : List Entry}

theorem clean_leave (hs : s.context = .block k fields) (h : IsClosing l) :
    Clean s [Token.read i l] .top [] := by
  have hstep := step_of_closes (t := Token.read i l) hs h.read
  refine .single (fault?_read_eq_none h.read fun _ hn => by cases hn) ?_ ?_ ?_
  · rw [hstep]
  · rw [hstep, List.append_nil]
  · rw [hstep]
    exact quiet_nil

theorem clean_remark_inside (hs : s.context = .block k fields) (hl : '\n' ∉ l) (h : IsRemark l) :
    Clean s [Token.read i l] (.block k fields) [] := by
  have hplain : Shape.read l ≠ .closeBrace ∧ isSkipped (Shape.read l) l = true ∧
      (Shape.read l).numeral? = none := by
    rcases h.read_isPlain with hread | hread | hread <;> rw [hread] <;>
      exact ⟨Shape.noConfusion, rfl, rfl⟩
  obtain ⟨hstep, hquiet⟩ := (moves_step s (Token.genuine_read hl i)).of_skipped
    (Token.genuine_read hl i) hs hplain.1 hplain.2.1
  refine .single (fault?_read_eq_none rfl fun _ hn => ?_) (by rw [hstep, hs]) ?_ hquiet
  · rw [hplain.2.2] at hn
    cases hn
  · rw [hstep, List.append_nil]

theorem clean_field_inside (hs : s.context = .block k fields) (hl : '\n' ∉ l) {n : Numeral}
    (h : IsField l n) (hfree : n.value ∉ fields.map Entry.number) :
    ∃ fields', fields'.map Entry.number = fields.map Entry.number ++ [n.value] ∧
      Clean s [Token.read i l] (.block k fields') [] := by
  obtain ⟨hn, name, hline⟩ := h.isFieldLine
  obtain ⟨body, hread, -⟩ := (isFieldLine_iff hl).mp hline
  obtain ⟨hstep, hquiet⟩ := (moves_step s (Token.genuine_read hl i)).of_field
    (Token.genuine_read hl i) hs hline (taken?_eq_none_iff_not_mem.mpr hfree)
  refine ⟨fields ++ [⟨name, n.value, i⟩], by rw [List.map_append]; rfl, ?_⟩
  refine .single (fault?_read_eq_none hread fun _ hn' => ?_) (by rw [hstep]; rfl) ?_ hquiet
  · cases hn'
    exact hn
  · rw [hstep, List.append_nil]

end

end Validation

/-! ## The pass over a document -/

open Validation

section

variable {s : State} {i : Nat} {ls : List Text} {ns : List Nat}

/-- **The lines of a block are passed cleanly** if the numbers of its fields are free and do not
repeat. -/
theorem IsBlockBody.clean (h : IsBlockBody ls ns) (hls : ∀ l ∈ ls, '\n' ∉ l) {k : BlockKind}
    {fields : List Entry} (hs : s.context = .block k fields)
    (hns : (fields.map Entry.number ++ ns).Nodup) :
    ∃ fields', Clean s (Token.numbered i ls) (.block k fields') [] := by
  -- the numbers that are taken stay apart from those that are still to come
  induction h generalizing s i fields with
  | nil => exact ⟨fields, .nil hs⟩
  | remark hl _ ih =>
    obtain ⟨hfeed, htail⟩ := List.forall_mem_cons.mp hls
    have hline := clean_remark_inside (i := i) hs hfeed hl
    obtain ⟨fields', hrest⟩ := ih (i := i + 1) htail hline.context_eq hns
    exact ⟨fields', hline.append hrest⟩
  | @field l ls n ns hl _ ih =>
    obtain ⟨hfeed, htail⟩ := List.forall_mem_cons.mp hls
    have hfree : n.value ∉ fields.map Entry.number := fun hmem =>
      (List.nodup_append.mp hns).2.2 _ hmem _ List.mem_cons_self rfl
    obtain ⟨fields', hfields, hline⟩ := clean_field_inside (i := i) hs hfeed hl hfree
    obtain ⟨fields'', hrest⟩ := ih (i := i + 1) htail hline.context_eq
      (by rwa [hfields, List.append_assoc])
    exact ⟨fields'', hline.append hrest⟩

/-- **The lines of a protocol are passed cleanly**: every block in it is left again. -/
theorem IsProtocolBody.clean (h : IsProtocolBody ls) (hls : ∀ l ∈ ls, '\n' ∉ l)
    (hs : s.context = .top) : Clean s (Token.numbered i ls) .top [] := by
  induction h generalizing s i with
  | closing hl => exact clean_closing hs (hls _ List.mem_cons_self) hl
  | remark hl _ ih =>
    obtain ⟨hfeed, htail⟩ := List.forall_mem_cons.mp hls
    have hline := clean_remark (i := i) hs hfeed hl
    exact hline.append (ih htail hline.context_eq)
  | field hl _ ih =>
    obtain ⟨hfeed, htail⟩ := List.forall_mem_cons.mp hls
    have hline := clean_field (i := i) hs hfeed hl
    exact hline.append (ih htail hline.context_eq)
  | emptyBlock hl _ ih =>
    obtain ⟨hfeed, htail⟩ := List.forall_mem_cons.mp hls
    have hline := clean_emptyBlock (i := i) hs hfeed hl
    exact hline.append (ih htail hline.context_eq)
  | @block k l m inner ls ns hl hinner hns hm _ ih =>
    obtain ⟨hfeed, htail⟩ := List.forall_mem_cons.mp hls
    obtain ⟨hbody, hrest⟩ := List.forall_mem_append.mp htail
    -- the fields of a block start from nothing and are given up at its end
    have hopen := clean_opening (i := i) hs hfeed hl
    obtain ⟨fields, hfields⟩ := hinner.clean (i := i + 1) hbody hopen.context_eq hns
    have hclose := clean_leave (i := i + 1 + inner.length) hfields.context_eq hm
    have hafter := ih (i := i + 1 + inner.length + 1) (List.forall_mem_cons.mp hrest).2
      hclose.context_eq
    rw [Token.numbered, Token.numbered_append]
    exact hopen.append (hfields.append (hclose.append hafter))

/-- **A schema is passed cleanly** if the numbers of its protocols are free and do not repeat. -/
theorem IsSchema.clean (h : IsSchema ls ns) (hls : ∀ l ∈ ls, '\n' ∉ l) (hs : s.context = .top)
    (hns : (s.protocols.map Entry.number ++ ns).Nodup) : Clean s (Token.numbered i ls) .top ns := by
  induction h generalizing s i with
  | nil => exact .nil hs
  | remark hl _ ih =>
    obtain ⟨hfeed, htail⟩ := List.forall_mem_cons.mp hls
    have hline := clean_remark (i := i) hs hfeed hl
    exact hline.append (ih htail hline.context_eq (by rwa [hline.numbers_eq, List.append_nil]))
  | @protocol l body ls number ns hl hbody _ ih =>
    obtain ⟨hfeed, htail⟩ := List.forall_mem_cons.mp hls
    obtain ⟨hfeeds, hrest⟩ := List.forall_mem_append.mp htail
    have hfree : ∀ n ∈ number, n.value ∉ s.protocols.map Entry.number := by
      rintro n rfl hmem
      exact (List.nodup_append.mp hns).2.2 _ hmem _ List.mem_cons_self rfl
    have hline := clean_header (i := i) hs hfeed hl hfree
    have hinner := hbody.clean (i := i + 1) hfeeds hline.context_eq
    have hafter := ih (i := i + 1 + body.length) hrest hinner.context_eq
      (by rwa [hinner.numbers_eq, hline.numbers_eq, List.append_nil, List.append_assoc])
    rw [Token.numbered, Token.numbered_append]
    exact hline.append (hinner.append hafter)

end

/-- **A schema whose numbers do not repeat is validated without an error**, and the protocols that
validation lists are those of the schema. -/
theorem severity_ne_error_of_isSchema {source : Text} {ns : List Nat}
    (h : IsSchema (lines source) ns) (hns : ns.Nodup) :
    ∃ r, validate source = .ok r ∧ (∀ x ∈ r.issues, x.severity ≠ .error) ∧
      r.protocols.map Entry.number = ns := by
  have hclean : Clean .initial (Token.ofLines (lines source)) .top ns := by
    rw [Token.ofLines_eq_numbered]
    exact h.clean (fun l hl => not_mem_of_mem_lines hl) rfl hns
  refine ⟨_, validate_eq_ok_iff.mpr ⟨rfl, hclean.accepted⟩, fun x hx => ?_, hclean.numbers_eq⟩
  obtain ⟨f, hf, rfl⟩ := List.mem_map.mp hx
  exact hclean.quiet f hf

/-- A schema that is easy to misread: a field and a protocol are named like a block, comments look like
module headers or hold a brace, and numbers of fields return in other places. -/
def guilefulLines : List Text :=
  ["#### Base 1-9 ####".toList,
    "foo 1 \x7b # first".toList,
    "  request \x7b\x7d".toList,
    "  response \x7b # \x7d".toList,
    "#### Other".toList,
    "    request 1 : * a (b) # ：".toList,
    "    c 02:d".toList,
    "  \x7d".toList,
    "\x7d".toList,
    "request 7\x7b".toList,
    "c 2: d".toList,
    "c 2: d".toList,
    "\x7d".toList,
    []]

theorem isSchema_guilefulLines : IsSchema guilefulLines [1, 7] := by
  have hbase : IsRemark "#### Base 1-9 ####".toList := @IsRemark.comment [] rfl _
  have hother : IsRemark "#### Other".toList := @IsRemark.comment [] rfl _
  have hfoo : IsHeader "foo 1 \x7b # first".toList (some ⟨['1']⟩) :=
    @IsHeader.numbered "foo".toList [' '] [' '] " # first".toList ⟨['1']⟩
      (by decide +kernel) (by decide +kernel) (by decide) rfl rfl
      (@IsRemark.comment [' '] rfl " first".toList)
  have hempty : IsEmptyBlock "  request \x7b\x7d".toList :=
    @IsEmptyBlock.mk [' ', ' '] [' '] [] [] .request rfl rfl rfl (.blank rfl)
  have hresponse : IsOpening .response "  response \x7b # \x7d".toList :=
    @IsOpening.mk .response [' ', ' '] [' '] " # \x7d".toList rfl rfl
      (@IsRemark.comment [' '] rfl " \x7d".toList)
  have hrequest : IsField "    request 1 : * a (b) # ：".toList ⟨['1']⟩ :=
    @IsField.mk "    ".toList "request".toList [' '] [' '] [' '] "* a".toList " (b)".toList
      " # ：".toList ⟨['1']⟩ rfl (by decide +kernel) (by decide) rfl
      (by decide +kernel) rfl rfl
      (@IsElement.array [' '] ['a'] rfl (by decide +kernel))
      (@IsKey.some [' '] [] [] ['b'] rfl rfl (by decide +kernel) rfl)
      (@IsRemark.comment [' '] rfl " ：".toList)
  have hzero : IsField "    c 02:d".toList ⟨['0', '2']⟩ :=
    @IsField.mk "    ".toList ['c'] [' '] [] [] ['d'] [] [] ⟨['0', '2']⟩ rfl
      (by decide +kernel) (by decide) rfl (by decide +kernel) rfl
      rfl (.single (by decide +kernel)) .none (.blank rfl)
  have htwo : IsField "c 2: d".toList ⟨['2']⟩ :=
    @IsField.mk [] ['c'] [' '] [] [' '] ['d'] [] [] ⟨['2']⟩ rfl (by decide +kernel)
      (by decide) rfl (by decide +kernel) rfl rfl
      (.single (by decide +kernel)) .none (.blank rfl)
  have hseven : IsHeader "request 7\x7b".toList (some ⟨['7']⟩) :=
    @IsHeader.numbered "request".toList [' '] [] [] ⟨['7']⟩ (by decide +kernel)
      (by decide +kernel) (by decide) rfl rfl (.blank rfl)
  have hindented : IsClosing "  \x7d".toList := @IsClosing.mk [' ', ' '] [] rfl rfl
  have hclosing : IsClosing "\x7d".toList := @IsClosing.mk [] [] rfl rfl
  have hfirst := IsProtocolBody.emptyBlock hempty
    (.block hresponse (.remark hother (.field hrequest (.field hzero .nil))) (by decide) hindented
      (.closing hclosing))
  have hsecond := IsProtocolBody.field htwo (.field htwo (.closing hclosing))
  exact .remark hbase (.protocol hfoo hfirst
    (.protocol hseven hsecond (.remark (.blank rfl) .nil)))

theorem severity_ne_error_guilefulLines :
    [1, 7].Nodup ∧ ∃ r, validate (unlines guilefulLines) = .ok r ∧
      (∀ x ∈ r.issues, x.severity ≠ .error) ∧ r.protocols.map Entry.number = [1, 7] := by
  have hlines : lines (unlines guilefulLines) = guilefulLines := by decide +kernel
  have hns : [1, 7].Nodup := by decide
  exact ⟨hns, severity_ne_error_of_isSchema (hlines.symm ▸ isSchema_guilefulLines) hns⟩

end Sproto
