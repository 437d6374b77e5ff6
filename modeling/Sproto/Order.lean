/-! # Sorted lists

Insertion into a sorted list and sorting by insertion, for the places where an order shows: the open
documents and the files of a workspace.  The order is given as the test "comes before". -/
namespace Sproto.Order

variable {α : Type}

/-- Puts an element in front of the first one that it comes before. -/
def insert (before : α → α → Bool) (x : α) : List α → List α
  | [] => [x]
  | y :: ys => if before x y then x :: y :: ys else y :: insert before x ys

/-- Sorts a list. -/
def sort (before : α → α → Bool) (xs : List α) : List α := xs.foldr (insert before) []

/-- **Inserting adds the element and nothing else.** -/
@[simp] theorem mem_insert {before : α → α → Bool} {x y : α} {ys : List α} :
    y ∈ insert before x ys ↔ y = x ∨ y ∈ ys := by
  induction ys with
  | nil => simp [insert]
  | cons z zs ih =>
    unfold insert
    split
    · simp
    · simp only [List.mem_cons, ih]
      constructor
      · rintro (h | h | h) <;> simp [h]
      · rintro (h | h | h) <;> simp [h]

/-- **Sorting keeps the elements.** -/
@[simp] theorem mem_sort {before : α → α → Bool} {y : α} {xs : List α} :
    y ∈ sort before xs ↔ y ∈ xs := by
  induction xs with
  | nil => simp [sort]
  | cons x xs ih =>
    have h : sort before (x :: xs) = insert before x (sort before xs) := rfl
    rw [h, mem_insert, ih, List.mem_cons]

/-! ## The order of a sorted list -/

section

variable {before : α → α → Bool} (htrans : ∀ a b c, before a b → before b c → before a c)
  (htotal : ∀ a b, a ≠ b → before a b ∨ before b a)
include htrans htotal

theorem pairwise_insert {x : α} {ys : List α} (h : ys.Pairwise fun a b => before a b) (hx : x ∉ ys) :
    (insert before x ys).Pairwise fun a b => before a b := by
  induction ys with
  | nil => exact List.pairwise_singleton _ x
  | cons y ys ih =>
    obtain ⟨hy, hys⟩ := List.pairwise_cons.mp h
    obtain ⟨hne, hx⟩ := List.ne_and_not_mem_of_not_mem_cons hx
    unfold insert
    by_cases hxy : before x y = true
    · rw [if_pos hxy]
      refine List.pairwise_cons.mpr ⟨fun z hz => ?_, h⟩
      rcases List.mem_cons.mp hz with rfl | hz
      · exact hxy
      · exact htrans x y z hxy (hy z hz)
    · rw [if_neg hxy]
      refine List.pairwise_cons.mpr ⟨fun z hz => ?_, ih hys hx⟩
      rcases mem_insert.mp hz with rfl | hz
      · exact (htotal z y hne).resolve_left hxy
      · exact hy z hz

/-- **Sorting puts different elements in order.** -/
theorem pairwise_sort {xs : List α} (h : xs.Nodup) :
    (sort before xs).Pairwise fun a b => before a b := by
  induction xs with
  | nil => exact List.Pairwise.nil
  | cons x xs ih =>
    obtain ⟨hx, hxs⟩ := List.nodup_cons.mp h
    exact pairwise_insert htrans htotal (ih hxs) (mt mem_sort.mp hx)

end

end Sproto.Order
