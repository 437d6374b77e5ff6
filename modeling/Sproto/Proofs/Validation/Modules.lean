import Sproto.Proofs.Validation.Header
import Sproto.Proofs.Validation.Repetition

/-! # Modules and their protocols

Validation keeps a list of labels, each with the protocols filed under it, and updates it in two
places: at a module header and at a declaration.  Seen from the document, the labels are those of the
headers in the order in which they first appear (`LabelsAbove`), and the group of a label holds the
registered protocols that stand under it, that is, whose last header above has this label.  So a group
is all of `protocols`, filtered (`State.Grouped`).

`Files.grouped` is the step and `grouped_before` the run.  `protocols_partitioned` says at the end of
the document what this means for each protocol: it is in one group, once, or in none. -/
namespace Sproto

open Text

namespace Validation

variable {ls : List Text} {i : Nat} {l label label' : Text} {labels : List Text}

/-! ## Labels in order of appearance -/

/-- A label has a header above every header of another label. -/
def AppearsBefore (ls : List Text) (label label' : Text) : Prop :=
  ∃ j, HeaderAt ls j label ∧ ∀ j', HeaderAt ls j' label' → j < j'

/-- The labels of the headers above line `i`, in the order in which they first appear. -/
structure LabelsAbove (ls : List Text) (i : Nat) (labels : List Text) : Prop where
  mem_iff : ∀ label, label ∈ labels ↔ ∃ j < i, HeaderAt ls j label
  ordered : labels.Pairwise (AppearsBefore ls)

namespace LabelsAbove

theorem nil (ls : List Text) : LabelsAbove ls 0 [] :=
  ⟨fun _ => iff_of_false List.not_mem_nil fun ⟨j, hj, _⟩ => Nat.not_lt_zero j hj, .nil⟩

theorem mem_of_labelAbove (h : LabelsAbove ls i labels) {j : Nat} (hj : j ≤ i)
    (hlabel : labelAbove ls j = some label) : label ∈ labels := by
  obtain ⟨j', hlast⟩ := labelAbove_eq_some_iff.mp hlabel
  exact (h.mem_iff label).mpr ⟨j', Nat.lt_of_lt_of_le hlast.above hj, hlast.header⟩

/-- A line without a new label leaves the list as it is. -/
theorem succ (h : LabelsAbove ls i labels) (hold : ∀ label, HeaderAt ls i label → label ∈ labels) :
    LabelsAbove ls (i + 1) labels := by
  refine ⟨fun label => ⟨fun hmem => ?_, ?_⟩, h.ordered⟩
  · obtain ⟨j, hj, hheader⟩ := (h.mem_iff label).mp hmem
    exact ⟨j, Nat.lt_succ_of_lt hj, hheader⟩
  · rintro ⟨j, hj, hheader⟩
    rcases Nat.lt_succ_iff_lt_or_eq.mp hj with hlt | rfl
    · exact (h.mem_iff label).mpr ⟨j, hlt, hheader⟩
    · exact hold label hheader

/-- **A new label is added at the end.** -/
theorem add (h : LabelsAbove ls i labels) (hheader : HeaderAt ls i label) (hnew : label ∉ labels) :
    LabelsAbove ls (i + 1) (labels ++ [label]) := by
  constructor
  · intro label'
    rw [List.mem_append, List.mem_singleton, h.mem_iff]
    constructor
    · rintro (⟨j, hj, hj'⟩ | rfl)
      · exact ⟨j, Nat.lt_succ_of_lt hj, hj'⟩
      · exact ⟨i, Nat.lt_succ_self i, hheader⟩
    · rintro ⟨j, hj, hj'⟩
      rcases Nat.lt_succ_iff_lt_or_eq.mp hj with hlt | rfl
      · exact Or.inl ⟨j, hlt, hj'⟩
      · exact Or.inr (hj'.unique hheader)
  · refine List.pairwise_append.mpr ⟨h.ordered, List.pairwise_singleton _ _, ?_⟩
    intro first hfirst label' hlabel'
    rw [List.mem_singleton] at hlabel'
    subst hlabel'
    obtain ⟨j, hj, hj'⟩ := (h.mem_iff first).mp hfirst
    refine ⟨j, hj', fun k hk => ?_⟩
    -- the new label has no header above line `i`
    rcases Nat.lt_or_ge k i with hlt | hge
    · exact absurd ((h.mem_iff label').mpr ⟨k, hlt, hk⟩) hnew
    · omega

end LabelsAbove

/-! ## What is filed under a label -/

/-- The protocols that stand under a label. -/
def under (ls : List Text) (label : Text) (es : List Entry) : List Entry :=
  es.filter fun e => labelAbove ls e.line = some label

theorem mem_under {es : List Entry} {e : Entry} :
    e ∈ under ls label es ↔ e ∈ es ∧ labelAbove ls e.line = some label := by
  rw [under, List.mem_filter, decide_eq_true_iff]

theorem under_concat (es : List Entry) (e : Entry) :
    under ls label (es ++ [e]) =
      if labelAbove ls e.line = some label then under ls label es ++ [e] else under ls label es := by
  rw [under, List.filter_append, List.filter_singleton]
  by_cases h : labelAbove ls e.line = some label
  · rw [if_pos h, decide_eq_true h]
    rfl
  · rw [if_neg h, decide_eq_false h]
    exact List.append_nil _

/-- A protocol that is registered once is once under its label, and nowhere else. -/
theorem count_under {es : List Entry} (hes : es.Nodup) {e : Entry} (he : e ∈ es) :
    (under ls label es).count e = if labelAbove ls e.line = some label then 1 else 0 := by
  have hunder : (under ls label es).Nodup := hes.filter _
  rw [hunder.count]
  exact if_congr (mem_under.trans (and_iff_right he)) rfl rfl

/-- The labels of the headers above line `i`, each with the registered protocols under it. -/
structure State.Grouped (ls : List Text) (i : Nat) (s : State) : Prop where
  labels : LabelsAbove ls i (s.modules.map Prod.fst)
  groups : ∀ m ∈ s.modules, m.2 = under ls m.1 s.protocols

variable {s s' : State} {t : Token}

theorem State.mem_labels_iff :
    s.modules.any (·.1 == label) = true ↔ label ∈ s.modules.map Prod.fst := by
  simp only [List.any_eq_true, beq_iff_eq, List.mem_map]

/-- A header gives its label a group, if it has none. -/
theorem State.Grouped.enterModule (h : s.Grouped ls i) (hbound : ∀ e ∈ s.protocols, e.line ≤ i)
    (hheader : HeaderAt ls i label) : (s.enterModule label).Grouped ls (i + 1) := by
  unfold State.enterModule
  split
  · next hany =>
    refine ⟨h.labels.succ fun label' hlabel' => ?_, h.groups⟩
    exact hlabel'.unique hheader ▸ State.mem_labels_iff.mp hany
  · next hany =>
    have hnew : label ∉ s.modules.map Prod.fst := fun hmem => hany (State.mem_labels_iff.mpr hmem)
    constructor
    · rw [List.map_append]
      exact h.labels.add hheader hnew
    · intro m hm
      rcases List.mem_append.mp hm with hm | hm
      · exact h.groups m hm
      · -- the label is new, so no protocol above stands under it
        obtain rfl := List.mem_singleton.mp hm
        refine (List.eq_nil_iff_forall_not_mem.mpr fun e he => ?_).symm
        obtain ⟨hmem, hlabel⟩ := mem_under.mp he
        exact hnew (h.labels.mem_of_labelAbove (hbound e hmem) hlabel)

/-- Registering adds to the group of the current label and leaves the labels as they are. -/
theorem State.modules_register (s : State) (e : Entry) :
    (s.register e).modules =
      s.modules.map fun m => (m.1, if s.label = some m.1 then m.2 ++ [e] else m.2) := by
  unfold State.register
  cases hs : s.label with
  | none => simp
  | some label =>
    refine List.map_congr_left fun m _ => ?_
    show (if m.1 = label then _ else _ : Text × List Entry) = _
    by_cases h : m.1 = label
    · rw [if_pos h, if_pos (congrArg some h.symm)]
    · rw [if_neg h, if_neg fun heq => h (Option.some.inj heq).symm]

/-- A declaration on line `i` is added to the group of the label above it. -/
theorem State.Grouped.register (h : s.Grouped ls i) (hlabel : s.label = labelAbove ls i)
    (hnone : headerAt? ls i = none) {e : Entry} (he : e.line = i) :
    (s.register e).Grouped ls (i + 1) := by
  constructor
  · rw [State.modules_register, List.map_map]
    exact h.labels.succ fun label hheader => absurd hheader (headerAt?_eq_none_iff.mp hnone label)
  · rw [State.modules_register]
    intro m' hm'
    obtain ⟨m, hm, rfl⟩ := List.mem_map.mp hm'
    show _ = under ls m.1 (s.protocols ++ [e])
    rw [under_concat, he, ← hlabel, ← h.groups m hm]

/-- **One line keeps the labels in order and the protocols under their labels.** -/
theorem Files.grouped (hls : ∀ l ∈ ls, '\n' ∉ l) (hl : ls[i]? = some l)
    (h : Files (State.before ls i) (Token.read i l) s') (hs : (State.before ls i).Grouped ls i) :
    s'.Grouped ls (i + 1) := by
  obtain ⟨hi, -⟩ := List.getElem?_eq_some_iff.mp hl
  have hgenuine := Token.genuine_read (hls l (List.mem_of_getElem? hl)) i
  have hheader := headerAt?_eq hls hl
  cases h with
  | still c hnone =>
    refine ⟨hs.labels.succ fun label hlabel => ?_, hs.groups⟩
    refine absurd (headerAt?_eq_some_iff.mpr hlabel) ?_
    rw [hheader]
    split
    · next htop => exact (hnone htop).symm ▸ (Option.some_ne_none _).symm
    · exact (Option.some_ne_none _).symm
  | header htop hlabel =>
    rw [if_pos htop] at hheader
    refine hs.enterModule (fun e he => ?_) (headerAt?_eq_some_iff.mp (hheader.trans hlabel))
    have hregistry := (registered_before hls (Nat.le_of_lt hi)).protocols
    exact Nat.le_of_lt ((hregistry.mem_iff e).mp he).2
  | register htop hshape =>
    have hnone := label?_protocol hgenuine hshape
    rw [if_pos htop] at hheader
    exact hs.register (label_before hls (Nat.le_of_lt hi)) (hheader.trans hnone) rfl

/-- **Every line is met with the headers and the protocols above it grouped.** -/
theorem grouped_before (hls : ∀ l ∈ ls, '\n' ∉ l) (hi : i ≤ ls.length) :
    (State.before ls i).Grouped ls i := by
  induction i with
  | zero => exact ⟨.nil ls, fun m hm => by cases hm⟩
  | succ i ih =>
    have hl : ls[i]? = some ls[i] := List.getElem?_eq_getElem hi
    have hgenuine := Token.genuine_read (hls _ (List.getElem_mem hi)) i
    rw [State.before_succ hl]
    exact (files_step _ hgenuine).grouped hls hl (ih (by omega))

end Validation

open Validation

/-- How the modules of a report divide its protocols. -/
structure Partitioned (ls : List Text) (protocols : List Entry) (modules : List (Text × List Entry)) :
    Prop where
  /-- The protocols are declared on their lines, outside any block. -/
  declared : ∀ e ∈ protocols, Declared ls e
  /-- The labels are those of the module headers met outside any block. -/
  labels : ∀ label, label ∈ modules.map Prod.fst ↔ ∃ i, HeaderAt ls i label
  /-- They are listed in the order in which they first appear. -/
  inOrder : (modules.map Prod.fst).Pairwise (AppearsBefore ls)
  /-- A protocol below some header is once in the group of the last one above it, and in no other. -/
  filed : ∀ e ∈ protocols, ∀ i label, LastHeader ls e.line i label →
    label ∈ modules.map Prod.fst ∧ ∀ m ∈ modules, m.2.count e = if m.1 = label then 1 else 0
  /-- A protocol above every header is in no group. -/
  unfiled : ∀ e ∈ protocols, (∀ i label, HeaderAt ls i label → e.line ≤ i) → ∀ m ∈ modules, e ∉ m.2
  /-- A group holds protocols of the report only. -/
  registered : ∀ m ∈ modules, ∀ e ∈ m.2, e ∈ protocols
  /-- A group is in the order of the declarations. -/
  byLine : ∀ m ∈ modules, m.2.Pairwise fun e e' => e.line < e'.line

/-- **The modules partition the protocols below the first header.** -/
theorem protocols_partitioned {source : Text} {r : Report} (h : validate source = .ok r) :
    Partitioned (lines source) r.protocols r.modules := by
  have hls : ∀ l ∈ lines source, '\n' ∉ l := fun l hl => not_mem_of_mem_lines hl
  have hgrouped := grouped_before hls (Nat.le_refl _)
  have hregistry := (registered_before hls (Nat.le_refl _)).protocols
  obtain ⟨rfl, -⟩ := validate_eq_ok_iff.mp h
  rw [State.before_length] at hgrouped hregistry
  constructor
  case declared => exact fun e he => ((hregistry.mem_iff e).mp he).1.1
  case labels =>
    intro label
    refine (hgrouped.labels.mem_iff label).trans (exists_congr fun i => ?_)
    exact and_iff_right_of_imp HeaderAt.lt
  case inOrder => exact hgrouped.labels.ordered
  case filed =>
    intro e he i label hlast
    have hlabel := labelAbove_eq_some_iff.mpr ⟨i, hlast⟩
    have hlt := ((hregistry.mem_iff e).mp he).2
    refine ⟨hgrouped.labels.mem_of_labelAbove (Nat.le_of_lt hlt) hlabel, fun m hm => ?_⟩
    rw [hgrouped.groups m hm]
    refine (count_under hregistry.nodup he).trans (if_congr ?_ rfl rfl)
    rw [hlabel, Option.some.injEq]
    exact eq_comm
  case unfiled =>
    intro e he hnone m hm hmem
    rw [hgrouped.groups m hm] at hmem
    have hlabel := (mem_under.mp hmem).2
    rw [labelAbove_eq_none_iff.mpr hnone] at hlabel
    cases hlabel
  case registered =>
    intro m hm e he
    rw [hgrouped.groups m hm] at he
    exact (mem_under.mp he).1
  case byLine =>
    intro m hm
    rw [hgrouped.groups m hm]
    exact hregistry.ordered.filter _

/-- A protocol above every header, a label that comes back, a header inside a block, and a number that
is declared twice. -/
def shelvedSource : Text :=
  ("a 1 \x7b\n\x7d\n#### One\nb 2 \x7b\n request \x7b\n#### Two\n \x7d\n\x7d\n".toList ++
    "#### Three ####\nc 2 \x7b\n\x7d\nd 3 \x7b\n\x7d\n#### One\ne 4 \x7b\n\x7d".toList)

/-- The protocol above every header is in no group, and the label that comes back has one group. -/
theorem partitioned_shelvedSource :
    ∃ r, validate shelvedSource = .ok r ∧
      r.protocols =
        [⟨"a".toList, 1, 0⟩, ⟨"b".toList, 2, 3⟩, ⟨"d".toList, 3, 11⟩, ⟨"e".toList, 4, 14⟩] ∧
      r.modules =
        [("One".toList, [⟨"b".toList, 2, 3⟩, ⟨"e".toList, 4, 14⟩]),
          ("Three".toList, [⟨"d".toList, 3, 11⟩])] ∧
      Partitioned (lines shelvedSource) r.protocols r.modules := by
  have h : validate shelvedSource = .ok (Report.ofTokens (Token.ofLines (lines shelvedSource))) := by
    decide +kernel
  exact ⟨_, h, by decide +kernel, by decide +kernel, protocols_partitioned h⟩

end Sproto
