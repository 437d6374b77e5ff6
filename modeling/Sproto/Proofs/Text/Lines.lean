import Sproto.Proofs.Text.Trim
import Sproto.Text.Lines

/-! # Cutting a text into lines and joining it again

No line holds a line feed, and lines that hold none and do not end in white space are read back from
the text that joins them. -/
namespace Sproto.Text

theorem not_mem_of_mem_splitOn {x : Char} {t l : Text} (h : l ∈ t.splitOn x) : x ∉ l := by
  induction t generalizing l with
  | nil =>
    rw [List.splitOn_nil, List.mem_singleton] at h
    rw [h]
    exact List.not_mem_nil
  | cons c t ih =>
    rw [List.splitOn_cons_eq_if_modifyHead] at h
    split at h
    · rcases List.mem_cons.mp h with rfl | h
      · exact List.not_mem_nil
      · exact ih h
    · next hc =>
      obtain ⟨u, us, hu⟩ := List.exists_cons_of_ne_nil (List.splitOn_ne_nil x t)
      rw [hu] at h ih
      rcases List.mem_cons.mp h with rfl | h
      · intro hx
        rcases List.mem_cons.mp hx with rfl | hx
        · exact hc (beq_self_eq_true _)
        · exact ih List.mem_cons_self hx
      · exact ih (List.mem_cons_of_mem _ h)

theorem mem_of_mem_dropReturn {c : Char} {l : Text} (h : c ∈ dropReturn l) : c ∈ l := by
  unfold dropReturn at h
  split at h
  · exact (List.dropLast_sublist l).subset h
  · exact h

/-- **A line holds no line feed.** -/
theorem not_mem_of_mem_lines {t l : Text} (h : l ∈ lines t) : '\n' ∉ l := by
  obtain ⟨u, hu, rfl⟩ := List.mem_map.mp h
  exact fun hl => not_mem_of_mem_splitOn hu (mem_of_mem_dropReturn hl)

/-- A line that does not end in white space does not end in a carriage return. -/
theorem dropReturn_of_trimRight {l : Text} (h : trimRight l = l) : dropReturn l = l := by
  unfold dropReturn
  rw [if_neg]
  intro hlast
  obtain ⟨u, rfl⟩ := List.getLast?_eq_some_iff.mp hlast
  rw [trimRight_append_of_isBlank u (show isBlank ['\r'] = true from rfl)] at h
  obtain ⟨b, -, hu⟩ := exists_trimRight_append u
  have hlen := congrArg List.length hu
  rw [h] at hlen
  simp only [List.length_append, List.length_cons, List.length_nil] at hlen
  omega

/-- Lines that are joined are read back without the carriage returns that end them. -/
theorem lines_unlines_eq_map {ls : List Text} (hne : ls ≠ []) (hfeed : ∀ l ∈ ls, '\n' ∉ l) :
    lines (unlines ls) = ls.map dropReturn := by
  rw [lines, unlines, List.splitOn_intercalate '\n' hfeed hne]

/-- **Lines are read back from the text that joins them.** -/
theorem lines_unlines {ls : List Text} (hne : ls ≠ []) (hfeed : ∀ l ∈ ls, '\n' ∉ l)
    (htrim : ∀ l ∈ ls, trimRight l = l) : lines (unlines ls) = ls := by
  rw [lines_unlines_eq_map hne hfeed]
  conv_rhs => rw [← List.map_id ls]
  exact List.map_congr_left fun l hl => dropReturn_of_trimRight (htrim l hl)

/-- The carriage return that ends a line is white space at its end. -/
theorem trimRight_dropReturn (l : Text) : trimRight (dropReturn l) = trimRight l := by
  unfold dropReturn
  split
  · next hlast =>
    obtain ⟨u, rfl⟩ := List.getLast?_eq_some_iff.mp hlast
    rw [List.dropLast_concat, trimRight_append_of_isBlank u (show isBlank ['\r'] = true from rfl)]
  · rfl

/-! ## Lines, character by character -/

theorem dropReturn_cons {c : Char} (hc : c ≠ '\r') (l : Text) :
    dropReturn (c :: l) = c :: dropReturn l := by
  unfold dropReturn
  rcases l with _ | ⟨a, l⟩
  · rw [if_neg (by simpa using hc), List.getLast?_nil, if_neg (by simp)]
  · rw [List.getLast?_cons_cons]
    by_cases h : (a :: l).getLast? = some '\r'
    · rw [if_pos h, if_pos h, List.dropLast_cons_cons]
    · rw [if_neg h, if_neg h]

theorem lines_lineFeed (t : Text) : lines ('\n' :: t) = [] :: lines t := by
  rw [lines, List.splitOn_cons_eq_if_modifyHead, if_pos (beq_self_eq_true _)]
  rfl

theorem lines_return_lineFeed (t : Text) : lines ('\r' :: '\n' :: t) = [] :: lines t := by
  rw [lines, List.splitOn_cons_eq_if_modifyHead, if_neg (by decide),
    List.splitOn_cons_eq_if_modifyHead, if_pos (beq_self_eq_true _)]
  rfl

theorem lines_cons {c : Char} (hn : c ≠ '\n') (hr : c ≠ '\r') (t : Text) :
    lines (c :: t) = (lines t).modifyHead (c :: ·) := by
  rw [lines, List.splitOn_cons_eq_if_modifyHead, if_neg (by simpa using hn), lines]
  rcases t.splitOn '\n' with _ | ⟨l, ls⟩
  · rfl
  · show dropReturn (c :: l) :: _ = (c :: dropReturn l) :: _
    rw [dropReturn_cons hr]

end Sproto.Text
