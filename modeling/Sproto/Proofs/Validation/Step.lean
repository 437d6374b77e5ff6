import Sproto.Proofs.Validation.Agreement
import Sproto.Proofs.Validation.Canonical

/-! # What one line does to validation

`Moves s t s' fs` lists everything that the pass can do with a line `t` that it meets in the state `s`:
the state `s'` in which it goes on, and the findings `fs`.  Every step is one of these moves
(`moves_step`), so what holds of a pass is read off this list, move by move.

A pass over a document is taken apart by lines.  `State.before ls i` is the state in which line `i` is
met, and what is found on that line is what its own step finds (`filter_line_run`). -/
namespace Sproto

open Text

/-! ## Lines with their numbers -/

namespace Token

/-- The tokens of lines that are numbered from `n` on. -/
def numbered (n : Nat) : List Text → List Token
  | [] => []
  | l :: ls => read n l :: numbered (n + 1) ls

theorem ofLines_eq_numbered (ls : List Text) : ofLines ls = numbered 0 ls := by
  have hgeneral : ∀ n, (ls.mapIdx fun i l => read (i + n) l) = numbered n ls := by
    induction ls with
    | nil => exact fun _ => rfl
    | cons l ls ih =>
      intro n
      rw [List.mapIdx_cons, numbered, ← ih (n + 1)]
      simp only [Nat.zero_add, Nat.add_right_comm, Nat.add_assoc]
  exact hgeneral 0

theorem numbered_append (n : Nat) (ls ms : List Text) :
    numbered n (ls ++ ms) = numbered n ls ++ numbered (n + ls.length) ms := by
  induction ls generalizing n with
  | nil => rfl
  | cons l ls ih =>
    rw [List.cons_append, numbered, ih, numbered, List.cons_append, List.length_cons,
      Nat.add_right_comm, Nat.add_assoc]

theorem ofLines_append (ls ms : List Text) :
    ofLines (ls ++ ms) = ofLines ls ++ numbered ls.length ms := by
  rw [ofLines_eq_numbered, numbered_append, ← ofLines_eq_numbered, Nat.zero_add]

theorem exists_of_mem_numbered {n : Nat} {ls : List Text} {t : Token} (ht : t ∈ numbered n ls) :
    ∃ i, ∃ l ∈ ls, t = read i l := by
  induction ls generalizing n with
  | nil => cases ht
  | cons l ls ih =>
    rcases List.mem_cons.mp ht with rfl | ht
    · exact ⟨n, l, List.mem_cons_self, rfl⟩
    · obtain ⟨i, m, hm, rfl⟩ := ih ht
      exact ⟨i, m, List.mem_cons_of_mem _ hm, rfl⟩

theorem genuine_of_mem_numbered {n : Nat} {ls : List Text} (hls : ∀ l ∈ ls, '\n' ∉ l) :
    ∀ t ∈ numbered n ls, t.Genuine := by
  intro t ht
  obtain ⟨i, l, hl, rfl⟩ := exists_of_mem_numbered ht
  exact genuine_read (hls l hl) i

theorem index_of_mem_numbered {n : Nat} {ls : List Text} {t : Token} (ht : t ∈ numbered n ls) :
    n ≤ t.index ∧ t.index < n + ls.length := by
  induction ls generalizing n with
  | nil => cases ht
  | cons l ls ih =>
    rw [List.length_cons]
    rcases List.mem_cons.mp ht with rfl | ht
    · rw [read_index]
      omega
    · have hbounds := ih ht
      omega

end Token

namespace Validation

/-- The findings on the number of a type. -/
def typeFindings (t : Token) (name : Text) : List Finding :=
  if name.head? = some '.' then [⟨t.index, name.length, t.matchEnd, .numberedType name⟩] else []

/-- What the pass can do with a line. -/
inductive Moves (s : State) (t : Token) : State → List Finding → Prop
  /-- A module header outside any block. -/
  | header {label : Text} (hs : s.context = .top) (hl : Banner.label? t.text = some label)
      (hshape : t.shape = .banner ∨ t.shape = .comment) : Moves s t (s.enterModule label) []
  /-- A declaration whose number is free. -/
  | register {name rest : Text} {n : Numeral} (hs : s.context = .top)
      (hshape : t.shape = .protocol name (some n) rest) (hfree : taken? s.protocols n.value = none) :
      Moves s t (s.register ⟨name, n.value, t.index⟩)
        (punctuationFindings t ++ typeFindings t name)
  /-- A declaration whose number is taken. -/
  | repeatProtocol {name rest : Text} {n : Numeral} {first : Entry} (hs : s.context = .top)
      (hshape : t.shape = .protocol name (some n) rest)
      (htaken : taken? s.protocols n.value = some first) :
      Moves s t s (punctuationFindings t ++ (typeFindings t name ++
        [⟨t.index, name.length, t.matchEnd, .repeatedProtocol n.value first⟩]))
  /-- The start of a block. -/
  | enter {k : BlockKind} {rest : Text} (hs : s.context = .top)
      (hshape : t.shape = .block k false rest) :
      Moves s t { s with context := .block k [] } (punctuationFindings t)
  /-- Any other line outside blocks. -/
  | pass (hs : s.context = .top) (hl : Banner.label? t.text = none)
      (hprotocol : ∀ name n rest, t.shape ≠ .protocol name (some n) rest)
      (hblock : ∀ k rest, t.shape ≠ .block k false rest) : Moves s t s (punctuationFindings t)
  /-- The end of a block. -/
  | leave {k : BlockKind} {fields : List Entry} (hs : s.context = .block k fields)
      (hshape : t.shape = .closeBrace) : Moves s t { s with context := .top } []
  /-- A field whose number is free. -/
  | take {k : BlockKind} {fields : List Entry} {name : Text} {n : Numeral}
      (hs : s.context = .block k fields) (hclose : t.shape ≠ .closeBrace)
      (hline : IsFieldLine t.text name n) (hfree : taken? fields n.value = none) :
      Moves s t { s with context := .block k (fields ++ [⟨name, n.value, t.index⟩]) }
        (punctuationFindings t)
  /-- A field whose number is taken. -/
  | repeatField {k : BlockKind} {fields : List Entry} {name body : Text} {n : Numeral}
      {first : Entry} (hs : s.context = .block k fields)
      (hshape : t.shape = .field name n body) (hline : IsFieldLine t.text name n)
      (htaken : taken? fields n.value = some first) :
      Moves s t s (punctuationFindings t ++
        [⟨t.index, t.text.length - (trimLeft t.text).length + name.length,
          t.text.length - body.length, .repeatedField n.value k first⟩])
  /-- A line of a block that carries nothing. -/
  | skip {k : BlockKind} {fields : List Entry} (hs : s.context = .block k fields)
      (hclose : t.shape ≠ .closeBrace) (hnot : ∀ name n, ¬ IsFieldLine t.text name n) :
      Moves s t s (punctuationFindings t)
  /-- A line of a block that is no field. -/
  | fault {k : BlockKind} {fields : List Entry} (hs : s.context = .block k fields)
      (hclose : t.shape ≠ .closeBrace) (hnot : ∀ name n, ¬ IsFieldLine t.text name n)
      (hskip : isSkipped t.shape t.text = false) :
      Moves s t s (punctuationFindings t ++ [checkField.faultOf t])

theorem State.context_eq_self {s : State} {c : Context} (h : s.context = c) :
    { s with context := c } = s := by
  cases s
  simp only at h
  rw [h]

/-- What the check of a line inside a block can come to. -/
theorem moves_checkField {s : State} {t : Token} (ht : t.Genuine) {k : BlockKind}
    {fields : List Entry} (hs : s.context = .block k fields) (hclose : t.shape ≠ .closeBrace) :
    Moves s t { s with context := .block k (checkField k fields t).1 }
      (punctuationFindings t ++ (checkField k fields t).2) := by
  have hself : { s with context := Context.block k fields } = s := s.context_eq_self hs
  have hfield : ∀ {name n}, IsFieldLine t.text name n →
      ∃ body, t.shape = .field name n body ∧ startsType (fieldContent body) = true := by
    intro name n hline
    obtain ⟨body, hread, htype⟩ := (isFieldLine_iff ht.feed).mp hline
    exact ⟨body, ht.shape_eq.trans hread, htype⟩
  cases hskip : isSkipped t.shape t.text with
  | true =>
    have hcheck : checkField k fields t = (fields, []) := by rw [checkField, if_pos hskip]
    rw [hcheck, hself, List.append_nil]
    refine .skip hs hclose fun name n hline => ?_
    obtain ⟨body, hshape, -⟩ := hfield hline
    rw [isSkipped_field ht hshape] at hskip
    cases hskip
  | false =>
    by_cases hline : ∃ name n, IsFieldLine t.text name n
    · obtain ⟨name, n, hline⟩ := hline
      obtain ⟨body, hshape, htype⟩ := hfield hline
      rw [hshape] at hskip
      cases htaken : taken? fields n.value with
      | none =>
        have hcheck : checkField k fields t = (fields ++ [⟨name, n.value, t.index⟩], []) := by
          simp [checkField, hskip, hshape, htype, htaken]
        rw [hcheck, List.append_nil]
        exact .take hs hclose hline htaken
      | some first =>
        have hcheck : checkField k fields t = (fields,
            [⟨t.index, t.text.length - (trimLeft t.text).length + name.length,
              t.text.length - body.length, .repeatedField n.value k first⟩]) := by
          simp [checkField, hskip, hshape, htype, htaken]
        rw [hcheck, hself]
        exact .repeatField hs hshape hline htaken
    · have hnot : ∀ name n, ¬ IsFieldLine t.text name n := fun name n h => hline ⟨name, n, h⟩
      have hcheck : checkField k fields t = (fields, [checkField.faultOf t]) := by
        unfold checkField
        rw [hskip]
        cases hshape : t.shape with
        | field name n body =>
          have htype : startsType (fieldContent body) = false := by
            rw [Bool.eq_false_iff]
            exact fun htype => hnot name n
              ((isFieldLine_iff ht.feed).mpr ⟨body, ht.shape_eq.symm.trans hshape, htype⟩)
          simp [htype]
        | _ => rfl
      rw [hcheck, hself]
      exact .fault hs hclose hnot hskip

/-- **Every step is one of the moves.** -/
theorem moves_step (s : State) {t : Token} (ht : t.Genuine) :
    Moves s t (s.step t).1 (s.step t).2 := by
  unfold State.step
  cases hs : s.context with
  | block k fields =>
    by_cases hclose : t.shape = .closeBrace
    · simp only [hclose, if_true]
      exact .leave hs hclose
    · simp only [hclose, if_false]
      exact moves_checkField ht hs hclose
  | top =>
    cases hl : Banner.label? t.text with
    | some label =>
      refine .header hs hl ?_
      by_cases hb : t.shape = .banner
      · exact Or.inl hb
      · by_cases hc : t.shape = .comment
        · exact Or.inr hc
        · rw [ht.label?_eq_none hb hc] at hl
          cases hl
    | none =>
      cases hshape : t.shape with
      | protocol name number rest =>
        cases number with
        | none =>
          simp only [State.declare, List.append_nil]
          exact .pass hs hl (fun _ _ _ h => by rw [hshape] at h; cases h)
            (fun _ _ h => by rw [hshape] at h; cases h)
        | some n =>
          simp only [State.declare]
          cases htaken : taken? s.protocols n.value with
          | none => exact .register hs hshape htaken
          | some first => exact .repeatProtocol hs hshape htaken
      | block k closed rest =>
        cases closed with
        | false => exact .enter hs hshape
        | true =>
          exact .pass hs hl (fun _ _ _ h => by rw [hshape] at h; cases h)
            (fun _ _ h => by rw [hshape] at h; cases h)
      | _ =>
        exact .pass hs hl (fun _ _ _ h => by rw [hshape] at h; cases h)
          (fun _ _ h => by rw [hshape] at h; cases h)

/-- The step over a block start outside any block. -/
theorem step_of_opens {s : State} {t : Token} (ht : t.Genuine) {k : BlockKind} {rest : Text}
    (hs : s.context = .top) (hshape : t.shape = .block k false rest) :
    s.step t = ({ s with context := .block k [] }, punctuationFindings t) := by
  have hlabel : Banner.label? t.text = none :=
    ht.label?_eq_none (by rw [hshape]; exact fun h => by cases h)
      (by rw [hshape]; exact fun h => by cases h)
  simp only [State.step, hs, hlabel, hshape]

/-- The step over a closing brace inside a block. -/
theorem step_of_closes {s : State} {t : Token} {k : BlockKind} {fields : List Entry}
    (hs : s.context = .block k fields) (hshape : t.shape = .closeBrace) :
    s.step t = ({ s with context := .top }, []) := by
  simp only [State.step, hs, hshape, if_true]

/-! ## Where findings are, and what they are about -/

theorem mem_punctuationFindings {t : Token} {f : Finding} (h : f ∈ punctuationFindings t) :
    f.line = t.index ∧ ∃ mark replacement, f.problem = .punctuation mark replacement := by
  obtain ⟨⟨column, mark, replacement⟩, -, rfl⟩ := List.mem_map.mp h
  exact ⟨rfl, mark, replacement, rfl⟩

theorem mem_typeFindings {t : Token} {name : Text} {f : Finding} (h : f ∈ typeFindings t name) :
    f.line = t.index ∧ f.problem = .numberedType name := by
  unfold typeFindings at h
  split at h
  · rw [List.mem_singleton.mp h]
    exact ⟨rfl, rfl⟩
  · cases h

/-- What can be wrong with a line of a block that is no field. -/
theorem problem_faultOf (t : Token) :
    (checkField.faultOf t).problem ∈
      [.missingType, .missingColon, .missingNumberAndType, .malformedField] := by
  show (fieldProblem t.text).2 ∈ _
  rw [fieldProblem_snd]
  repeat' split
  all_goals simp

/-- **What is found on a line lies on it.** -/
theorem Moves.line_eq {s s' : State} {t : Token} {fs : List Finding} (h : Moves s t s' fs)
    {f : Finding} (hf : f ∈ fs) : f.line = t.index := by
  cases h with
  | header | leave => cases hf
  | enter | pass | take | skip => exact (mem_punctuationFindings hf).1
  | register =>
    rcases List.mem_append.mp hf with hf | hf
    · exact (mem_punctuationFindings hf).1
    · exact (mem_typeFindings hf).1
  | repeatProtocol =>
    rcases List.mem_append.mp hf with hf | hf
    · exact (mem_punctuationFindings hf).1
    · rcases List.mem_append.mp hf with hf | hf
      · exact (mem_typeFindings hf).1
      · obtain rfl := List.mem_singleton.mp hf
        rfl
  | repeatField | fault =>
    rcases List.mem_append.mp hf with hf | hf
    · exact (mem_punctuationFindings hf).1
    · obtain rfl := List.mem_singleton.mp hf
      rfl

/-! ## The pass over a document, line by line -/

theorem line_mem_of_mem_run {ts : List Token} (hts : ∀ t ∈ ts, t.Genuine) (s : State) {f : Finding}
    (hf : f ∈ (s.run ts).2) : ∃ t ∈ ts, f.line = t.index := by
  induction ts generalizing s with
  | nil => cases hf
  | cons t ts ih =>
    obtain ⟨ht, htail⟩ := List.forall_mem_cons.mp hts
    rw [State.run_cons] at hf
    rcases List.mem_append.mp hf with hf | hf
    · exact ⟨t, List.mem_cons_self, (moves_step s ht).line_eq hf⟩
    · obtain ⟨u, hu, hline⟩ := ih htail _ hf
      exact ⟨u, List.mem_cons_of_mem _ hu, hline⟩

/-- What is found in lines lies on them. -/
theorem line_of_mem_run_numbered {n : Nat} {ls : List Text} (hls : ∀ l ∈ ls, '\n' ∉ l) {s : State}
    {f : Finding} (hf : f ∈ (s.run (Token.numbered n ls)).2) :
    n ≤ f.line ∧ f.line < n + ls.length := by
  obtain ⟨t, ht, hline⟩ := line_mem_of_mem_run (Token.genuine_of_mem_numbered hls) s hf
  rw [hline]
  exact Token.index_of_mem_numbered ht

/-- The state in which line `i` is met. -/
def State.before (ls : List Text) (i : Nat) : State :=
  (State.initial.run (Token.ofLines (ls.take i))).1

@[simp] theorem State.before_zero (ls : List Text) : before ls 0 = .initial := rfl

theorem State.before_length (ls : List Text) :
    before ls ls.length = (State.initial.run (Token.ofLines ls)).1 := by
  rw [before, List.take_length]

theorem State.before_succ {ls : List Text} {i : Nat} {l : Text} (hl : ls[i]? = some l) :
    before ls (i + 1) = ((before ls i).step (Token.read i l)).1 := by
  have hlen : (ls.take i).length = i := by
    obtain ⟨hi, -⟩ := List.getElem?_eq_some_iff.mp hl
    rw [List.length_take]
    omega
  rw [before, List.take_add_one, hl, Option.toList_some, Token.ofLines_append, run_append, hlen]
  rfl

/-- **What a pass finds on a line is what the step over that line finds.** -/
theorem filter_line_run {ls : List Text} (hls : ∀ l ∈ ls, '\n' ∉ l) {i : Nat} {l : Text}
    (hl : ls[i]? = some l) :
    ((State.initial.run (Token.ofLines ls)).2.filter fun f => f.line = i) =
      ((State.before ls i).step (Token.read i l)).2 := by
  obtain ⟨hi, hget⟩ := List.getElem?_eq_some_iff.mp hl
  have hlen : (ls.take i).length = i := by
    rw [List.length_take]
    omega
  have hsplit : ls = ls.take i ++ l :: ls.drop (i + 1) := by
    rw [← hget, ← List.drop_eq_getElem_cons hi, List.take_append_drop]
  have hfront : ∀ f ∈ (State.initial.run (Token.ofLines (ls.take i))).2, f.line ≠ i := by
    intro f hf
    rw [Token.ofLines_eq_numbered] at hf
    have hlt := (line_of_mem_run_numbered (fun m hm => hls m (List.mem_of_mem_take hm)) hf).2
    omega
  have hback : ∀ (s : State), ∀ f ∈ (s.run (Token.numbered (i + 1) (ls.drop (i + 1)))).2,
      f.line ≠ i := by
    intro s f hf
    have hle := (line_of_mem_run_numbered (fun m hm => hls m (List.mem_of_mem_drop hm)) hf).1
    omega
  have hhere : ∀ f ∈ ((State.before ls i).step (Token.read i l)).2, f.line = i := fun f hf =>
    (moves_step _ (Token.genuine_read (hls l (List.mem_of_getElem? hl)) i)).line_eq hf
  conv_lhs => rw [hsplit]
  rw [Token.ofLines_append, State.run_append, hlen, Token.numbered, State.run_cons]
  simp only [List.filter_append]
  rw [List.filter_eq_nil_iff.mpr (by simpa using hfront), List.nil_append,
    List.filter_eq_self.mpr (by simpa [State.before] using hhere),
    List.filter_eq_nil_iff.mpr (by simpa using hback _), List.append_nil]
  rfl

end Validation
end Sproto
