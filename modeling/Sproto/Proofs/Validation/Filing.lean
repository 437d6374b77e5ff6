import Sproto.Proofs.Layout.Document
import Sproto.Proofs.Validation.Extent

/-! # Where protocols are filed

Validation files a protocol under the label of the last module header before it.  Of the moves that the
pass can make, two touch what is filed: a header makes its label the current one, and a declaration whose
number is free is filed under it.  `Files s t s'` says so, and every step is of this form (`files_step`).

Two passes that agree up to line numbers and are under the same labels (`State.Twin`) stay so along lines
that are alike; in particular blank lines and white space at the ends of lines do not matter
(`State.run_twin`). -/
namespace Sproto

open Text

theorem Shape.Alike.symm {sh sh' : Shape} (h : sh.Alike sh') : sh'.Alike sh := by
  rcases h with hp | h | ⟨hn, h⟩ | ⟨hn, h⟩
  · exact .plain hp
  · exact .block h.symm
  · exact .protocol hn.symm h.symm
  · exact .field hn.symm h.symm

/-- What is alike to a declaration declares the same. -/
theorem Shape.Alike.exists_protocol {sh sh' : Shape} (ha : sh.Alike sh') {name rest : Text}
    {n : Numeral} (h : sh = .protocol name (some n) rest) :
    ∃ n' rest', sh' = .protocol name (some n') rest' ∧ n'.value = n.value := by
  subst h
  rcases ha with ⟨hp⟩ | _ | ⟨hn, -⟩ | _
  · cases hp
  · rename_i rest' number'
    rcases number' with _ | n'
    · cases hn
    · exact ⟨n', rest', rfl, (Option.some.inj hn).symm⟩

namespace Validation

variable {s s' : State} {t t' : Token}

/-! ## What a step files -/

/-- What a step does to what is filed. -/
inductive Files (s : State) (t : Token) : State → Prop where
  /-- Nothing: outside blocks, the line has no label and no number that is free. -/
  | still (c : Context) (hl : s.context = .top → Banner.label? t.text = none)
      (hn : s.context = .top → ∀ name n rest, t.shape = .protocol name (some n) rest →
        taken? s.protocols n.value ≠ none) : Files s t { s with context := c }
  /-- The label of a header becomes the current one. -/
  | header {label : Text} (hs : s.context = .top) (hl : Banner.label? t.text = some label) :
      Files s t (s.enterModule label)
  /-- A declaration is filed under the current label. -/
  | register {name rest : Text} {n : Numeral} (hs : s.context = .top)
      (hshape : t.shape = .protocol name (some n) rest)
      (hfree : taken? s.protocols n.value = none) :
      Files s t (s.register ⟨name, n.value, t.index⟩)

theorem Files.of_block {k : BlockKind} {fields : List Entry} (hs : s.context = .block k fields)
    (c : Context) : Files s t { s with context := c } := by
  have hne : s.context ≠ .top := by
    rw [hs]
    intro h
    cases h
  exact .still c (fun h => absurd h hne) fun h => absurd h hne

theorem Files.of_self (hl : s.context = .top → Banner.label? t.text = none)
    (hn : s.context = .top → ∀ name n rest, t.shape = .protocol name (some n) rest →
      taken? s.protocols n.value ≠ none) : Files s t s := by
  have h := Files.still s.context hl hn
  rwa [State.context_eq_self rfl] at h

theorem label?_protocol (ht : t.Genuine) {name rest : Text} {number : Option Numeral}
    (h : t.shape = .protocol name number rest) : Banner.label? t.text = none :=
  ht.label?_eq_none (by simp [h]) (by simp [h])

theorem label?_block (ht : t.Genuine) {k : BlockKind} {closed : Bool} {rest : Text}
    (h : t.shape = .block k closed rest) : Banner.label? t.text = none :=
  ht.label?_eq_none (by simp [h]) (by simp [h])

/-- **Every step files at most the declaration that it is made over, under the current label.** -/
theorem files_step (s : State) (ht : t.Genuine) : Files s t (s.step t).1 := by
  have hmoves := moves_step s ht
  generalize (s.step t).1 = q, (s.step t).2 = fs at hmoves
  rcases hmoves with ⟨hs, hl, -⟩ | ⟨hs, hshape, hfree⟩ | ⟨hs, hshape, htaken⟩ | ⟨hs, hshape⟩ |
    ⟨hs, hl, hprotocol, -⟩ | ⟨hs, -⟩ | ⟨hs, -⟩ | ⟨hs, hshape, -⟩ | ⟨hs, -⟩ | ⟨hs, -⟩
  · exact .header hs hl
  · exact .register hs hshape hfree
  · apply Files.of_self
    · exact fun _ => label?_protocol ht hshape
    · intro _ name n rest h
      rw [hshape] at h
      cases h
      rw [htaken]
      exact Option.some_ne_none _
  · apply Files.still
    · exact fun _ => label?_block ht hshape
    · intro _ name n rest h
      rw [hshape] at h
      cases h
  · apply Files.of_self
    · exact fun _ => hl
    · exact fun _ name n rest h => absurd h (hprotocol name n rest)
  · exact .of_block hs _
  · exact .of_block hs _
  all_goals
    have h := Files.of_block (t := t) hs s.context
    rwa [State.context_eq_self rfl] at h

/-- Outside blocks, a line with a label makes it the current one. -/
theorem label_step (s : State) (ht : t.Genuine) :
    (s.step t).1.label =
      if s.context = .top then (Banner.label? t.text).or s.label else s.label := by
  have hfiles := files_step s ht
  generalize (s.step t).1 = q at hfiles
  rcases hfiles with ⟨c, hl, -⟩ | ⟨hs, hl⟩ | ⟨hs, hshape, -⟩
  · by_cases hs : s.context = .top
    · rw [if_pos hs, hl hs, Option.none_or]
    · rw [if_neg hs]
  · rw [if_pos hs, hl, Option.some_or]
    rfl
  · rw [if_pos hs, label?_protocol ht hshape, Option.none_or]
    rfl

/-- There is a group for the current label. -/
def State.Shelved (s : State) : Prop := ∀ L, s.label = some L → ∃ es, (L, es) ∈ s.modules

theorem Files.shelved (h : Files s t s') (hs : s.Shelved) : s'.Shelved := by
  intro L hL
  rcases h with _ | ⟨-, -⟩ | _
  · exact hs L hL
  · rename_i label
    cases hL
    show ∃ es, (L, es) ∈ (s.enterModule L).modules
    unfold State.enterModule
    split
    · rename_i hany
      obtain ⟨⟨l, es⟩, hmem, heq⟩ := List.any_eq_true.mp hany
      exact ⟨es, beq_iff_eq.mp heq ▸ hmem⟩
    · exact ⟨[], by simp⟩
  · rename_i name rest n _ _ _
    obtain ⟨es, hes⟩ := hs L hL
    have hlabel : s.label = some L := hL
    simp only [State.register, hlabel, List.mem_map, Prod.exists]
    exact ⟨_, L, es, hes, if_pos rfl⟩

/-! ## Passes under the same labels -/

/-- A group of protocols without the lines they stand on. -/
def groupKey (m : Text × List Entry) : Text × List (Text × Nat) := (m.1, m.2.map Entry.key)

/-- An entry is filed under a label. -/
def Filed (modules : List (Text × List Entry)) (label : Text) (e : Entry) : Prop :=
  ∃ es, (label, es) ∈ modules ∧ e ∈ es

/-- What is filed, up to lines, can be told from the groups without lines. -/
theorem exists_filed_iff {modules : List (Text × List Entry)} {label : Text} {k : Text × Nat} :
    (∃ e, Filed modules label e ∧ e.key = k) ↔
      ∃ ks, (label, ks) ∈ modules.map groupKey ∧ k ∈ ks := by
  constructor
  · rintro ⟨e, ⟨es, hes, he⟩, rfl⟩
    exact ⟨es.map Entry.key, List.mem_map_of_mem hes, List.mem_map_of_mem he⟩
  · rintro ⟨ks, hks, hk⟩
    obtain ⟨⟨l, es⟩, hes, heq⟩ := List.mem_map.mp hks
    obtain ⟨rfl, rfl⟩ := Prod.mk.inj heq
    obtain ⟨e, he, hkey⟩ := List.mem_map.mp hk
    exact ⟨e, ⟨es, hes, he⟩, hkey⟩

/-- States that agree up to line numbers, labels included. -/
structure State.Twin (s s' : State) : Prop extends State.Same s s' where
  label : s.label = s'.label
  modules : s.modules.map groupKey = s'.modules.map groupKey

theorem State.Twin.refl (s : State) : s.Twin s := ⟨.refl s, rfl, rfl⟩

theorem any_label_congr (h : s.modules.map groupKey = s'.modules.map groupKey) (L : Text) :
    s.modules.any (·.1 == L) = s'.modules.any (·.1 == L) := by
  have hview : ∀ ms : List (Text × List Entry),
      ms.any (·.1 == L) = (ms.map groupKey).any (·.1 == L) := by
    intro ms
    rw [List.any_map]
    rfl
  rw [hview, hview, h]

theorem map_groupKey_enterModule (h : s.modules.map groupKey = s'.modules.map groupKey)
    (L : Text) :
    (s.enterModule L).modules.map groupKey = (s'.enterModule L).modules.map groupKey := by
  simp only [State.enterModule, any_label_congr h L]
  split
  · exact h
  · rw [List.map_append, List.map_append, h]

theorem map_groupKey_register {e e' : Entry} (he : e.key = e'.key) (hl : s.label = s'.label)
    (h : s.modules.map groupKey = s'.modules.map groupKey) :
    (s.register e).modules.map groupKey = (s'.register e').modules.map groupKey := by
  rcases hlabel : s.label with _ | label
  · simp only [State.register, ← hl, hlabel]
    exact h
  · -- Filing works on groups without their lines as it does on groups.
    have hview : ∀ (ms : List (Text × List Entry)) (e : Entry),
        (ms.map fun m => if m.1 = label then (m.1, m.2 ++ [e]) else (m.1, m.2)).map groupKey =
          (ms.map groupKey).map fun k => if k.1 = label then (k.1, k.2 ++ [e.key]) else k := by
      intro ms e
      rw [List.map_map, List.map_map]
      refine List.map_congr_left fun m _ => ?_
      show groupKey (if m.1 = label then _ else _) = if m.1 = label then _ else _
      split
      · simp [groupKey]
      · rfl
    simp only [State.register, ← hl, hlabel]
    calc _ = _ := hview s.modules e
      _ = _ := by rw [h, he]
      _ = _ := (hview s'.modules e').symm

/-- **Alike lines with the same label keep two passes under the same labels.** -/
theorem State.step_twin (h : s.Twin s') (ht : t.Genuine) (ht' : t'.Genuine) (ha : t.Alike t')
    (hl : Banner.label? t.text = Banner.label? t'.text) :
    (s.step t).1.Twin (s'.step t').1 := by
  have hsame : (s.step t).1.Same (s'.step t').1 :=
    (step_same h.toSame ht ht' ha (by rw [hl])).state
  have htop := h.context.eq_top_iff
  have hf := files_step s ht
  have hf' := files_step s' ht'
  generalize (s.step t).1 = q, (s'.step t').1 = q' at hsame hf hf'
  rcases hf with ⟨c, hnone, htaken⟩ | ⟨hs, hlabel⟩ | ⟨hs, hshape, hfree⟩
  · rcases hf' with _ | ⟨hs', hlabel'⟩ | ⟨hs', hshape', hfree'⟩
    · exact ⟨hsame, h.label, h.modules⟩
    · rw [← hl, hnone (htop.mp hs')] at hlabel'
      cases hlabel'
    · obtain ⟨n, rest, hshape, hn⟩ := ha.shape.symm.exists_protocol hshape'
      have hsome := taken?_isSome_congr h.protocols n.value
      rw [hn, hfree', Option.isSome_none, Option.isSome_eq_false_iff, Option.isNone_iff_eq_none,
        ← hn] at hsome
      exact absurd hsome (htaken (htop.mp hs') _ _ _ hshape)
  · have hlabel' := hl.symm.trans hlabel
    rcases hf' with ⟨c', hnone', -⟩ | ⟨hs', hlabel''⟩ | ⟨hs', hshape', -⟩
    · rw [hnone' (htop.mpr hs)] at hlabel'
      cases hlabel'
    · obtain rfl := Option.some.inj (hlabel'.symm.trans hlabel'')
      exact ⟨hsame, rfl, map_groupKey_enterModule h.modules _⟩
    · rw [label?_protocol ht' hshape'] at hlabel'
      cases hlabel'
  · obtain ⟨n', rest', hshape', hn'⟩ := ha.shape.exists_protocol hshape
    rcases hf' with ⟨c', -, htaken'⟩ | ⟨hs', hlabel'⟩ | ⟨hs', hshape'', -⟩
    · have hsome := taken?_isSome_congr h.protocols n'.value
      rw [hn', hfree, Option.isSome_none, eq_comm, Option.isSome_eq_false_iff,
        Option.isNone_iff_eq_none, ← hn'] at hsome
      exact absurd hsome (htaken' (htop.mpr hs) _ _ _ hshape')
    · rw [label?_protocol ht' hshape'] at hlabel'
      cases hlabel'
    · rw [hshape'] at hshape''
      cases hshape''
      refine ⟨hsame, h.label, map_groupKey_register ?_ h.label h.modules⟩
      simp only [Entry.key, hn']

/-- **Blank lines, and white space at the ends of lines, do not change what is filed.** -/
theorem State.run_twin {ts ts' : List Token} (h : Condensed ts ts') (hs : s.Twin s') :
    (s.run ts).1.Twin (s'.run ts').1 := by
  induction h generalizing s s' with
  | nil => exact hs
  | blank ht hb _ ih =>
    rw [run_cons, s.step_blank ht hb]
    exact ih hs
  | keep ht ht' htext _ ih =>
    rw [run_cons, run_cons]
    apply ih
    apply step_twin hs ht ht'.toGenuine (ht.alike_of_trimRight ht'.toGenuine htext)
    rw [htext, Banner.label?_trimRight]

end Validation
end Sproto
