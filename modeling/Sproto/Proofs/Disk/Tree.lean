import Mathlib.Data.Char
import Mathlib.Data.List.Induction
import Mathlib.Data.List.Lex
import Mathlib.Data.List.Nodup
import Sproto.Disk.Basic

/-! # Trees of files

A listing of places is a tree of files when no place is listed twice, every name is one that a file can
have, and what lies above a place is a directory (`Disk.IsTree`).

On such a disk a path that goes down from a root, through names and never back, leads to something exactly
if its place is listed (`walk_eq_some_iff`).  So the schema paths of a root are the paths that lead down
from it to something with a schema's name (`mem_schemaPaths`), each of them once and in the order of their
names (`pairwise_schemaPaths`), and no two of them are written alike (`toText_append_inj`). -/
namespace Sproto

open Text

namespace Disk

/-- Whether a text can be the name of a file or of a directory. -/
def IsFileName (n : Text) : Prop := n ≠ [] ∧ '/' ∉ n ∧ n ≠ ['.'] ∧ n ≠ ['.', '.']

instance (n : Text) : Decidable (IsFileName n) :=
  inferInstanceAs (Decidable (n ≠ [] ∧ '/' ∉ n ∧ n ≠ ['.'] ∧ n ≠ ['.', '.']))

/-- A disk whose listing is a tree of files. -/
structure IsTree (d : Disk) : Prop where
  distinct : (d.nodes.map Prod.fst).Nodup
  names : ∀ e ∈ d.nodes, ∀ n ∈ e.1, IsFileName n
  parents : ∀ e ∈ d.nodes, d.isDirectory e.1.dropLast = true

/-- Whether a path leads down from a root to something: it goes on from the root through one or more
names, none of which leads back. -/
def LeadsDown (d : Disk) (root p : Path) : Prop :=
  ∃ q, q ≠ [] ∧ ['.', '.'] ∉ q ∧ p = root.append q ∧ (d.locate? p).isSome = true

section

variable {d : Disk} {p q r : Place} {root : Path}

/-! ## What is listed -/

theorem isSome_get?_iff (hp : p ≠ []) : (d.get? p).isSome = true ↔ ∃ node, (p, node) ∈ d.nodes := by
  rw [get?, if_neg hp, List.lookup_isSome_iff]
  constructor
  · rintro ⟨⟨p', node⟩, hm, he⟩
    rw [eq_of_beq he]
    exact ⟨node, hm⟩
  · rintro ⟨node, hm⟩
    exact ⟨(p, node), hm, beq_self_eq_true p⟩

theorem isSome_of_isDirectory (h : d.isDirectory p = true) : (d.get? p).isSome = true := by
  rw [of_decide_eq_true h]
  rfl

/-- **What lies above something is a directory.** -/
theorem IsTree.isDirectory (h : d.IsTree) (hq : q ≠ []) (hs : (d.get? (p ++ q)).isSome = true) :
    d.isDirectory p = true := by
  induction q using List.reverseRecOn with
  | nil => exact absurd rfl hq
  | append_singleton q n ih =>
    obtain ⟨node, hm⟩ := (isSome_get?_iff (by simp)).mp hs
    have hparent := h.parents _ hm
    rw [← List.append_assoc, List.dropLast_concat] at hparent
    by_cases hnil : q = []
    · rwa [hnil, List.append_nil] at hparent
    · exact ih hnil (isSome_of_isDirectory hparent)

theorem IsTree.isFileName (h : d.IsTree) (hq : q ≠ []) (hs : (d.get? (p ++ q)).isSome = true) :
    ∀ n ∈ q, IsFileName n := by
  obtain ⟨node, hm⟩ := (isSome_get?_iff (by simp [hq])).mp hs
  exact fun n hn => h.names _ hm n (List.mem_append_right p hn)

/-! ## Going through names -/

theorem walk_append (d : Disk) (p : Place) (ns ms : List Text) :
    d.walk p (ns ++ ms) = (d.walk p ns).bind fun q => d.walk q ms := by
  induction ns generalizing p with
  | nil =>
    rw [List.nil_append, walk]
    by_cases hs : (d.get? p).isSome = true
    · rw [if_pos hs, Option.bind_some]
    · rw [if_neg hs, Option.bind_none]
      rcases ms with _ | ⟨m, ms⟩
      · rw [walk, if_neg hs]
      · rw [walk, if_neg (mt isSome_of_isDirectory hs)]
  | cons n ns ih =>
    rw [List.cons_append, walk, walk]
    by_cases hd : d.isDirectory p = true
    · rw [if_pos hd, if_pos hd]
      by_cases hn : n = ['.', '.']
      · rw [if_pos hn, if_pos hn, ih]
      · rw [if_neg hn, if_neg hn, ih]
    · rw [if_neg hd, if_neg hd, Option.bind_none]

/-- **Going down from a place leads to the place with the names behind it, if it is listed.** -/
theorem walk_eq_some_iff (h : d.IsTree) (hq : ['.', '.'] ∉ q) :
    d.walk p q = some r ↔ r = p ++ q ∧ (d.get? r).isSome = true := by
  induction q generalizing p with
  | nil =>
    rw [walk, List.append_nil]
    by_cases hs : (d.get? p).isSome = true
    · rw [if_pos hs, Option.some_inj]
      exact ⟨fun he => ⟨he.symm, he ▸ hs⟩, fun he => he.1.symm⟩
    · rw [if_neg hs]
      exact ⟨fun he => (by cases he), fun ⟨he, hr⟩ => absurd (he ▸ hr) hs⟩
  | cons n q ih =>
    obtain ⟨hn, hq⟩ := List.ne_and_not_mem_of_not_mem_cons hq
    rw [walk]
    by_cases hd : d.isDirectory p = true
    · rw [if_pos hd, if_neg hn.symm, ih hq, List.append_assoc, List.singleton_append]
    · rw [if_neg hd]
      refine ⟨fun he => (by cases he), fun ⟨he, hr⟩ => absurd ?_ hd⟩
      exact h.isDirectory (List.cons_ne_nil n q) (he ▸ hr)

theorem locate?_append (d : Disk) (root : Path) (q : List Text) :
    d.locate? (root.append q) = (d.locate? root).bind fun p => d.walk p q :=
  walk_append d _ root.parts q

/-! ## Schema paths -/

theorem mem_below : q ∈ d.below p ↔ q ≠ [] ∧ (d.get? (p ++ q)).isSome = true := by
  rw [below, Order.mem_sort, List.mem_filter, decide_eq_true_eq, and_comm]
  refine and_congr_right fun hq => ?_
  rw [isSome_get?_iff (by simp [hq]), List.mem_filterMap]
  constructor
  · rintro ⟨⟨p', node⟩, hm, he⟩
    rw [List.isPrefixOf?_eq_some_iff_append_eq] at he
    exact ⟨node, he ▸ hm⟩
  · rintro ⟨node, hm⟩
    exact ⟨(p ++ q, node), hm, List.isPrefixOf?_eq_some_iff_append_eq.mpr rfl⟩

theorem pairwise_below (h : d.IsTree) (p : Place) : (d.below p).Pairwise (· < ·) := by
  have hnodup : (d.nodes.filterMap fun e => p.isPrefixOf? e.1).Nodup := by
    have hmap : d.nodes.filterMap (fun e => p.isPrefixOf? e.1) =
        (d.nodes.map Prod.fst).filterMap fun q => p.isPrefixOf? q := by
      rw [List.filterMap_map]
      rfl
    rw [hmap]
    refine List.Nodup.filterMap (fun a a' q ha ha' => ?_) h.distinct
    rw [Option.mem_def, List.isPrefixOf?_eq_some_iff_append_eq] at ha ha'
    exact ha.symm.trans ha'
  have htrans : ∀ a b c, before a b → before b c → before a c := fun a b c hab hbc =>
    decide_eq_true (lt_trans (of_decide_eq_true hab) (of_decide_eq_true hbc))
  have htotal : ∀ a b, a ≠ b → before a b ∨ before b a := fun a b hne =>
    (lt_or_gt_of_ne hne).imp decide_eq_true decide_eq_true
  unfold below
  exact (Order.pairwise_sort htrans htotal (hnodup.filter _)).imp fun hab => of_decide_eq_true hab

theorem name_append (hq : q ≠ []) : (root.append q).name = q.getLast?.getD [] := by
  rw [Path.name, Path.append, List.getLast?_append_of_ne_nil _ hq]

/-- A path leads down from a root to what is listed below the root's place. -/
theorem leadsDown_iff (h : d.IsTree) (hroot : d.locate? root = some p) {path : Path} :
    d.LeadsDown root path ↔ ∃ q, q ∈ d.below p ∧ path = root.append q := by
  have hlocate : ∀ {q : List Text}, ['.', '.'] ∉ q →
      ((d.locate? (root.append q)).isSome = true ↔ (d.get? (p ++ q)).isSome = true) := by
    intro q hq
    rw [locate?_append, hroot, Option.bind_some, Option.isSome_iff_exists]
    constructor
    · rintro ⟨r, hr⟩
      obtain ⟨rfl, hs⟩ := (walk_eq_some_iff h hq).mp hr
      exact hs
    · exact fun hs => ⟨p ++ q, (walk_eq_some_iff h hq).mpr ⟨rfl, hs⟩⟩
  constructor
  · rintro ⟨q, hne, hq, rfl, hs⟩
    exact ⟨q, mem_below.mpr ⟨hne, (hlocate hq).mp hs⟩, rfl⟩
  · rintro ⟨q, hm, rfl⟩
    obtain ⟨hne, hs⟩ := mem_below.mp hm
    have hq : ['.', '.'] ∉ q := fun hm => (h.isFileName hne hs _ hm).2.2.2 rfl
    exact ⟨q, hne, hq, rfl, (hlocate hq).mpr hs⟩

/-- A path that leads down goes on through names that files can have. -/
theorem LeadsDown.exists_names (h : d.IsTree) {path : Path} (hp : d.LeadsDown root path) :
    ∃ q, q ≠ [] ∧ path = root.append q ∧ ∀ n ∈ q, IsFileName n := by
  have hlocated : ∃ p, d.locate? root = some p := by
    obtain ⟨q, -, -, rfl, hs⟩ := hp
    rw [locate?_append] at hs
    rcases hroot : d.locate? root with _ | p
    · rw [hroot] at hs
      cases hs
    · exact ⟨p, rfl⟩
  obtain ⟨p, hroot⟩ := hlocated
  obtain ⟨q, hm, rfl⟩ := (leadsDown_iff h hroot).mp hp
  obtain ⟨hne, hs⟩ := mem_below.mp hm
  exact ⟨q, hne, rfl, h.isFileName hne hs⟩

/-- **The schema paths of a root are those that lead down from it to something with a schema's name.** -/
theorem mem_schemaPaths (h : d.IsTree) {path : Path} :
    path ∈ d.schemaPaths root ↔ d.LeadsDown root path ∧ Path.isSchemaName path.name = true := by
  unfold schemaPaths
  rcases hroot : d.locate? root with _ | p
  · simp only [List.not_mem_nil, false_iff, not_and]
    rintro ⟨q, -, -, rfl, hs⟩
    rw [locate?_append, hroot] at hs
    cases hs
  simp only [leadsDown_iff h hroot]
  by_cases hd : d.isDirectory p = true
  · rw [if_pos hd, List.mem_map]
    constructor
    · rintro ⟨q, hm, rfl⟩
      obtain ⟨hm, hname⟩ := List.mem_filter.mp hm
      exact ⟨⟨q, hm, rfl⟩, by rwa [name_append (mem_below.mp hm).1]⟩
    · rintro ⟨⟨q, hm, rfl⟩, hname⟩
      rw [name_append (mem_below.mp hm).1] at hname
      exact ⟨q, List.mem_filter.mpr ⟨hm, hname⟩, rfl⟩
  · rw [if_neg hd]
    simp only [List.not_mem_nil, false_iff, not_and]
    rintro ⟨q, hm, -⟩
    exact absurd (h.isDirectory (mem_below.mp hm).1 (mem_below.mp hm).2) hd

/-- **The schema paths are in the order of their names**, so none is listed twice. -/
theorem pairwise_schemaPaths (h : d.IsTree) (root : Path) :
    (d.schemaPaths root).Pairwise fun p q => p.parts < q.parts := by
  unfold schemaPaths
  split
  · exact List.Pairwise.nil
  · split
    · rw [List.pairwise_map]
      exact ((pairwise_below h _).filter _).imp fun hlt => List.append_left_lt hlt
    · exact List.Pairwise.nil

/-! ## How paths below a root are written -/

theorem intercalate_append {sep : Text} {ps qs : List Text} (hp : ps ≠ []) (hq : qs ≠ []) :
    List.intercalate sep (ps ++ qs) = List.intercalate sep ps ++ sep ++ List.intercalate sep qs := by
  induction ps with
  | nil => exact absurd rfl hp
  | cons a ps ih =>
    rcases ps with _ | ⟨b, ps⟩
    · obtain ⟨c, qs, rfl⟩ := List.exists_cons_of_ne_nil hq
      rw [List.singleton_append, List.intercalate_cons_cons, List.intercalate_singleton]
    · rw [List.cons_append, List.cons_append, List.intercalate_cons_cons, List.intercalate_cons_cons,
        ← List.cons_append, ih (List.cons_ne_nil b ps)]
      simp only [List.append_assoc]

theorem intercalate_slash_inj {qs qs' : List Text} (hq : qs ≠ []) (hq' : qs' ≠ [])
    (h : ∀ n ∈ qs, '/' ∉ n) (h' : ∀ n ∈ qs', '/' ∉ n)
    (heq : List.intercalate ['/'] qs = List.intercalate ['/'] qs') : qs = qs' := by
  rw [← List.splitOn_intercalate '/' h hq, heq, List.splitOn_intercalate '/' h' hq']

/-- **Paths that go on from one root are written alike only if they go on through the same names.** -/
theorem toText_append_inj (hroot : root.isAbsolute = true) {q q' : List Text} (hq : q ≠ [])
    (hq' : q' ≠ []) (h : ∀ n ∈ q, '/' ∉ n) (h' : ∀ n ∈ q', '/' ∉ n)
    (heq : (root.append q).toText = (root.append q').toText) : q = q' := by
  have hanchor : root.anchor ≠ .here := of_decide_eq_true hroot
  have htext : ∀ {q : List Text}, (root.append q).toText =
      Path.anchorText root.anchor ++ List.intercalate ['/'] (root.parts ++ q) :=
    fun {q} => if_neg fun hh => hanchor hh.1
  rw [htext, htext, List.append_cancel_left_eq] at heq
  by_cases hparts : root.parts = []
  · rw [hparts, List.nil_append, List.nil_append] at heq
    exact intercalate_slash_inj hq hq' h h' heq
  · rw [intercalate_append hparts hq, intercalate_append hparts hq', List.append_cancel_left_eq] at heq
    exact intercalate_slash_inj hq hq' h h' heq

end
end Disk
end Sproto
