import Sproto.Proofs.Text.Lines

/-! # Replacing one line of a text

`replaceLine t i l` is the text `t` with `l` in the place of line `i`.  Its lines are those of `t` but
for that one (`lines_replaceLine`). -/
namespace Sproto.Text

/-- A text with another line `i`.  A carriage return at the end of a line is a part of it here. -/
def replaceLine (t : Text) (i : Nat) (l : Text) : Text := unlines ((t.splitOn '\n').set i l)

theorem getElem?_lines (t : Text) (i : Nat) : (lines t)[i]? = (t.splitOn '\n')[i]?.map dropReturn := by
  rw [lines, List.getElem?_map]

/-- **Replacing a line replaces one of the lines.** -/
theorem lines_replaceLine (t : Text) (i : Nat) {l : Text} (hl : '\n' ∉ l) :
    lines (replaceLine t i l) = (lines t).set i (dropReturn l) := by
  have hne : (t.splitOn '\n').set i l ≠ [] := by
    rw [ne_eq, List.set_eq_nil_iff]
    exact List.splitOn_ne_nil '\n' t
  have hfeed : ∀ m ∈ (t.splitOn '\n').set i l, '\n' ∉ m := by
    intro m hm
    rcases List.mem_or_eq_of_mem_set hm with hm | rfl
    · exact not_mem_of_mem_splitOn hm
    · exact hl
  rw [replaceLine, lines_unlines_eq_map hne hfeed, List.map_set, lines]

/-! ## Carriage returns -/

theorem dropReturn_append (u : Text) {v : Text} (hv : v ≠ []) :
    dropReturn (u ++ v) = u ++ dropReturn v := by
  unfold dropReturn
  rw [List.getLast?_append_of_ne_nil u hv, List.dropLast_append_of_ne_nil hv]
  split
  · rfl
  · rfl

theorem exists_dropReturn_append (l : Text) : ∃ b, isBlank b = true ∧ l = dropReturn l ++ b := by
  unfold dropReturn
  split
  · next hlast =>
    obtain ⟨u, rfl⟩ := List.getLast?_eq_some_iff.mp hlast
    exact ⟨['\r'], rfl, by rw [List.dropLast_concat]⟩
  · exact ⟨[], rfl, (List.append_nil l).symm⟩

/-- A line is followed by nothing, or by the carriage return that belongs to its end. -/
theorem eq_nil_or_return_of_dropReturn {l e : Text} (h : dropReturn (l ++ e) = l) :
    e = [] ∨ e = ['\r'] := by
  rcases e with _ | ⟨c, e⟩
  · exact Or.inl rfl
  · right
    rw [dropReturn_append l (List.cons_ne_nil c e)] at h
    have hnil : dropReturn (c :: e) = [] := List.append_cancel_left (h.trans (List.append_nil l).symm)
    unfold dropReturn at hnil
    split at hnil
    · next hlast =>
      obtain ⟨u, hu⟩ := List.getLast?_eq_some_iff.mp hlast
      rw [hu, List.dropLast_concat] at hnil
      rw [hu, hnil, List.nil_append]
    · cases hnil

end Sproto.Text
