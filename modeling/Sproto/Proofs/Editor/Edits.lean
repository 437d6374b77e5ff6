import Sproto.Proofs.Editor.Edit
import Sproto.Proofs.Text.Splice

/-! # Several edits of one document

The edits that are offered for a document all refer to it as it is.  Their ranges are *apart* when no
range meets another one and an empty range does not even touch another one (`Range.Apart`).

In terms of offsets each edit is a splice (`Edit.splice`), and the positions of a document are in the
order of their offsets (`Position.offset_lt_offset`).  So edits whose ranges lie on lines of the
document and are pairwise apart give the same text in whatever order they are made
(`Edit.applyAll_perm`). -/
namespace Sproto

open Text

/-! ## Ranges -/

/-- One position stands before another one. -/
def Position.Before (p q : Position) : Prop :=
  p.line < q.line ∨ p.line = q.line ∧ p.character < q.character

namespace Range

/-- A range ends in front of another one, and touches it only if neither is empty. -/
def Clear (r r' : Range) : Prop :=
  r.stop.Before r'.start ∨ r.stop = r'.start ∧ r.start ≠ r.stop ∧ r'.start ≠ r'.stop

/-- Two ranges that have nothing in common. -/
def Apart (r r' : Range) : Prop := r.Clear r' ∨ r'.Clear r

theorem clear_of_lt {i a b c d : Nat} (h : b < c) : Clear ⟨⟨i, a⟩, ⟨i, b⟩⟩ ⟨⟨i, c⟩, ⟨i, d⟩⟩ :=
  Or.inl (Or.inr ⟨rfl, h⟩)

theorem clear_of_le {i a b c d : Nat} (h : b ≤ c) (hab : a < b) (hcd : c < d) :
    Clear ⟨⟨i, a⟩, ⟨i, b⟩⟩ ⟨⟨i, c⟩, ⟨i, d⟩⟩ := by
  rcases Nat.lt_or_eq_of_le h with h | rfl
  · exact clear_of_lt h
  · refine Or.inr ⟨rfl, ?_, ?_⟩
    · simp [Nat.ne_of_lt hab]
    · simp [Nat.ne_of_lt hcd]

/-- A range within one line of a document. -/
structure OnLine (r : Range) (ls : List Text) : Prop where
  line : r.stop.line = r.start.line
  ordered : r.start.character ≤ r.stop.character
  within : ∃ l, ls[r.stop.line]? = some l ∧ r.stop.character ≤ l.length

end Range

/-! ## Offsets -/

namespace Position

variable {t : Text} {p q : Position}

theorem offset_eq (p : Position) (t : Text) :
    p.offset t = (⟨p.line, 0⟩ : Position).offset t + p.character := by
  simp only [offset, Nat.add_zero]

/-- A line begins behind the line above it and its line feed. -/
theorem offset_succ {i : Nat} {l : Text} (hl : (t.splitOn '\n')[i]? = some l) :
    (⟨i + 1, 0⟩ : Position).offset t = (⟨i, 0⟩ : Position).offset t + l.length + 1 := by
  simp only [offset, List.take_add_one, hl, Option.toList_some, List.flatMap_append,
    List.length_append, List.flatMap_singleton, List.length_singleton, Nat.add_zero]
  omega

theorem offset_mono {i j : Nat} (h : i ≤ j) :
    (⟨i, 0⟩ : Position).offset t ≤ (⟨j, 0⟩ : Position).offset t := by
  have hprefix : (t.splitOn '\n').take i <+: (t.splitOn '\n').take j := List.take_prefix_take_left h
  obtain ⟨ls, hls⟩ := hprefix
  simp only [offset, ← hls, List.flatMap_append, List.length_append]
  omega

/-- A position on a line of a text. -/
theorem offset_le_length {l : Text} (hl : (t.splitOn '\n')[p.line]? = some l)
    (hp : p.character ≤ l.length) : p.offset t ≤ t.length := by
  obtain ⟨hi, -⟩ := List.getElem?_eq_some_iff.mp hl
  have ht := congrArg List.length (replaceLine_self hl)
  rw [replaceLine_eq hi, List.length_append, List.length_append] at ht
  rw [offset]
  omega

/-- **The positions on the lines of a text are in the order of their offsets.** -/
theorem offset_lt_offset {l : Text} (hl : (t.splitOn '\n')[p.line]? = some l)
    (hp : p.character ≤ l.length) (h : p.Before q) : p.offset t < q.offset t := by
  rw [p.offset_eq, q.offset_eq]
  rcases h with h | ⟨heq, hlt⟩
  · have hsucc := offset_succ hl
    have hmono : (⟨p.line + 1, 0⟩ : Position).offset t ≤ (⟨q.line, 0⟩ : Position).offset t :=
      offset_mono h
    omega
  · rw [heq]
    omega

end Position

/-- A range on a line stays on it when the carriage return at its end counts. -/
theorem Range.OnLine.exists_raw {r : Range} {t : Text} (h : r.OnLine (lines t)) :
    ∃ u, (t.splitOn '\n')[r.stop.line]? = some u ∧ r.stop.character ≤ u.length := by
  obtain ⟨l, hl, hle⟩ := h.within
  rw [getElem?_lines] at hl
  obtain ⟨u, hu, rfl⟩ := Option.map_eq_some_iff.mp hl
  obtain ⟨e, -, hsplit⟩ := exists_dropReturn_append u
  have hlength := congrArg List.length hsplit
  rw [List.length_append] at hlength
  exact ⟨u, hu, by omega⟩

/-! ## Edits -/

namespace Edit

/-- An edit as the replacement of a part that is given by offsets. -/
def splice (e : Edit) (t : Text) : Splice :=
  ⟨e.range.start.offset t, e.range.stop.offset t, e.newText⟩

/-- The text after a list of edits that all refer to it as it is, made in the order of the list. -/
def applyAll (es : List Edit) (t : Text) : Text := Splice.applyAll (es.map (·.splice t)) t

@[simp] theorem applyAll_nil (t : Text) : applyAll [] t = t := rfl

@[simp] theorem applyAll_singleton (e : Edit) (t : Text) : applyAll [e] t = e.apply t := rfl

variable {t : Text} {e e' : Edit}

theorem fits_splice (h : e.range.OnLine (lines t)) : (e.splice t).Fits t := by
  obtain ⟨u, hu, hle⟩ := h.exists_raw
  constructor
  · show e.range.start.offset t ≤ e.range.stop.offset t
    rw [Position.offset_eq, e.range.stop.offset_eq, h.line]
    have hordered := h.ordered
    omega
  · exact Position.offset_le_length hu hle

/-- A range that is not empty selects something. -/
theorem start_splice_lt (h : e.range.OnLine (lines t)) (hne : e.range.start ≠ e.range.stop) :
    (e.splice t).start < (e.splice t).stop := by
  obtain ⟨u, hu, hle⟩ := h.exists_raw
  have hordered := h.ordered
  rw [h.line] at hu
  refine Position.offset_lt_offset hu (by omega) (Or.inr ⟨h.line.symm, ?_⟩)
  refine Nat.lt_of_le_of_ne hordered fun heq => hne ?_
  rw [Position.mk.injEq]
  exact ⟨h.line.symm, heq⟩

theorem clear_splice (h : e.range.OnLine (lines t)) (h' : e'.range.OnLine (lines t))
    (hclear : e.range.Clear e'.range) : (e.splice t).Clear (e'.splice t) := by
  obtain ⟨u, hu, hle⟩ := h.exists_raw
  rcases hclear with hbefore | ⟨htouch, hne, hne'⟩
  · exact Or.inl (Position.offset_lt_offset hu hle hbefore)
  · exact Or.inr ⟨congrArg (·.offset t) htouch, start_splice_lt h hne, start_splice_lt h' hne'⟩

theorem apart_splice (h : e.range.OnLine (lines t)) (h' : e'.range.OnLine (lines t))
    (hapart : e.range.Apart e'.range) : (e.splice t).Apart (e'.splice t) := by
  rcases hapart with hclear | hclear
  · exact Or.inl (clear_splice h h' hclear)
  · exact Or.inr (clear_splice h' h hclear)

/-- **Edits of lines whose ranges are pairwise apart give the same text in any order.** -/
theorem applyAll_perm {es es' : List Edit} (honline : ∀ e ∈ es, e.range.OnLine (lines t))
    (hapart : es.Pairwise fun e e' => e.range.Apart e'.range) (hperm : es'.Perm es) :
    applyAll es' t = applyAll es t := by
  refine (Splice.applyAll_perm (hperm.symm.map _) ⟨?_, ?_⟩).symm
  · rw [List.pairwise_map]
    exact hapart.imp_of_mem fun he he' h => apart_splice (honline _ he) (honline _ he') h
  · intro s hs
    obtain ⟨e, he, rfl⟩ := List.mem_map.mp hs
    exact fits_splice (honline e he)

end Edit
end Sproto
