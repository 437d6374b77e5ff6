import Sproto.Text.Basic

/-! # Splices

A splice replaces a part of a text, given by offsets.  Several splices of one text all refer to the
text as it was; when they are made one after another, each of them has to be moved along with the text
that it is about (`Splice.after`), and `Splice.applyAll` makes them so, in the order of a list.

Two splices are *apart* when their parts have no character in common and an empty part does not even
touch the other one.  Splices that are apart can be made in either order (`apply_after_comm`), and
what is moved along with both goes to the same place (`after_after_comm`).  Hence splices that are
pairwise apart give the same text in any order (`applyAll_perm`). -/
namespace Sproto

/-- The replacement of the part of a text from one offset up to another. -/
@[ext]
structure Splice where
  start : Nat
  stop : Nat
  newText : Text
  deriving DecidableEq, Repr

namespace Splice

/-- The text after a splice. -/
def apply (s : Splice) (t : Text) : Text := t.take s.start ++ s.newText ++ t.drop s.stop

/-- Where a splice is once another one is made: one behind it moves with the text. -/
def after (s done : Splice) : Splice :=
  if done.stop ≤ s.start then
    { s with
      start := s.start - done.stop + (done.start + done.newText.length)
      stop := s.stop - done.stop + (done.start + done.newText.length) }
  else s

/-- The text after a list of splices, where `move` says where each of them is now. -/
def applyFrom (move : Splice → Splice) : List Splice → Text → Text
  | [], t => t
  | s :: ss, t => applyFrom (fun s' => (move s').after (move s)) ss ((move s).apply t)

/-- The text after a list of splices that all refer to it as it is. -/
def applyAll (ss : List Splice) (t : Text) : Text := applyFrom id ss t

/-- A splice of a part that the text has. -/
structure Fits (s : Splice) (t : Text) : Prop where
  start_le : s.start ≤ s.stop
  stop_le : s.stop ≤ t.length

/-- A splice is in front of another one, and touches it only if neither part is empty. -/
def Clear (a b : Splice) : Prop :=
  a.stop < b.start ∨ a.stop = b.start ∧ a.start < a.stop ∧ b.start < b.stop

/-- Two splices of parts that have nothing in common. -/
def Apart (a b : Splice) : Prop := a.Clear b ∨ b.Clear a

variable {a b s : Splice} {t : Text}

theorem Apart.symm (h : a.Apart b) : b.Apart a := Or.symm h

/-! ## Two splices -/

theorem Fits.length_apply (h : s.Fits t) :
    (s.apply t).length = s.start + s.newText.length + (t.length - s.stop) := by
  have hstart := h.start_le
  have hstop := h.stop_le
  simp only [apply, List.length_append, List.length_take, List.length_drop]
  omega

theorem start_after (s done : Splice) :
    (s.after done).start =
      if done.stop ≤ s.start then s.start - done.stop + (done.start + done.newText.length)
      else s.start := by
  unfold after
  split <;> rfl

theorem stop_after (s done : Splice) :
    (s.after done).stop =
      if done.stop ≤ s.start then s.stop - done.stop + (done.start + done.newText.length)
      else s.stop := by
  unfold after
  split <;> rfl

@[simp] theorem newText_after (s done : Splice) : (s.after done).newText = s.newText := by
  unfold after
  split <;> rfl

theorem Clear.stop_le (h : a.Clear b) : a.stop ≤ b.start := by
  rcases h with h | h <;> omega

theorem start_after_le (h : s.start ≤ s.stop) (done : Splice) :
    (s.after done).start ≤ (s.after done).stop := by
  unfold after
  split
  · show s.start - _ + _ ≤ s.stop - _ + _
    omega
  · exact h

/-- A splice in front of another one stays where it is. -/
theorem Clear.after_eq (h : a.Clear b) (ha : a.start ≤ a.stop) (hb : b.start ≤ b.stop) :
    a.after b = a := by
  refine if_neg fun hle => ?_
  rcases h with h | h <;> omega

/-- The rear splice may as well be made first, where it is. -/
theorem Clear.apply_after (h : a.Clear b) (ha : a.Fits t) (hb : b.Fits t) :
    (b.after a).apply (a.apply t) = a.apply (b.apply t) := by
  have hle := h.stop_le
  have hfront := ha.start_le
  have hrear := hb.start_le
  have hend := hb.stop_le
  have hlength : (t.take a.start ++ a.newText).length = a.start + a.newText.length := by
    rw [List.length_append, List.length_take]
    omega
  -- both ways keep the text before, between and behind the two parts
  have htake : (a.apply t).take (b.after a).start =
      t.take a.start ++ a.newText ++ (t.drop a.stop).take (b.start - a.stop) := by
    rw [start_after, if_pos hle, apply, Nat.add_comm, ← hlength, List.take_length_add_append]
  have hdrop : (a.apply t).drop (b.after a).stop = t.drop b.stop := by
    rw [stop_after, if_pos hle, apply, Nat.add_comm, ← hlength, List.drop_length_add_append,
      List.drop_drop]
    congr 1
    omega
  have htake' : (b.apply t).take a.start = t.take a.start := by
    rw [apply, List.append_assoc, List.take_append_of_le_length, List.take_take, Nat.min_eq_left]
    · omega
    · rw [List.length_take]
      omega
  have hdrop' : (b.apply t).drop a.stop =
      (t.drop a.stop).take (b.start - a.stop) ++ b.newText ++ t.drop b.stop := by
    rw [apply, List.append_assoc, List.drop_append_of_le_length, List.drop_take, List.append_assoc]
    rw [List.length_take]
    omega
  rw [apply, htake, hdrop, newText_after, apply, htake', hdrop']
  simp only [List.append_assoc]

/-- **Two splices that are apart give the same text in either order.** -/
theorem apply_after_comm (h : a.Apart b) (ha : a.Fits t) (hb : b.Fits t) :
    (b.after a).apply (a.apply t) = (a.after b).apply (b.apply t) := by
  rcases h with h | h
  · rw [h.apply_after ha hb, h.after_eq ha.start_le hb.start_le]
  · rw [h.apply_after hb ha, h.after_eq hb.start_le ha.start_le]

/-- A splice apart from one that is made still fits. -/
theorem Fits.after (h : s.Apart a) (hs : s.Fits t) (ha : a.Fits t) :
    (s.after a).Fits (a.apply t) := by
  refine ⟨start_after_le hs.start_le a, ?_⟩
  have hstop := hs.stop_le
  have hstop' := ha.stop_le
  rw [ha.length_apply]
  rcases h with h | h
  · have hle := h.stop_le
    rw [h.after_eq hs.start_le ha.start_le]
    have hstart := ha.start_le
    omega
  · rw [stop_after, if_pos h.stop_le]
    omega

/-! ## Three splices -/

variable {c : Splice}

/-- An empty part in the middle keeps the outer ones from touching. -/
theorem Clear.trans (h : a.Clear b) (h' : b.Clear c) (hb : b.start ≤ b.stop) : a.Clear c := by
  have hle := h.stop_le
  have hle' := h'.stop_le
  refine Or.inl ?_
  rcases h with h | h <;> omega

/-- What is in front of another one is so after a third one. -/
theorem Clear.after (h : a.Clear b) (ha : a.start ≤ a.stop) (hb : b.start ≤ b.stop)
    (hc : c.start ≤ c.stop) (hac : a.Apart c) (hbc : b.Apart c) : (a.after c).Clear (b.after c) := by
  rcases hac with hac | hac
  · rw [hac.after_eq ha hc]
    rcases hbc with hbc | hbc
    · rw [hbc.after_eq hb hc]
      exact h
    · have hle := hbc.stop_le
      unfold Clear at *
      rw [start_after, stop_after, if_pos hle, if_pos hle]
      omega
  · have hle := (hac.trans h ha).stop_le
    have hle' := hac.stop_le
    unfold Clear at *
    rw [start_after, start_after, stop_after, stop_after, if_pos hle, if_pos hle', if_pos hle,
      if_pos hle']
    omega

theorem Apart.after (h : a.Apart b) (ha : a.start ≤ a.stop) (hb : b.start ≤ b.stop)
    (hc : c.start ≤ c.stop) (hac : a.Apart c) (hbc : b.Apart c) : (a.after c).Apart (b.after c) := by
  rcases h with h | h
  · exact Or.inl (h.after ha hb hc hac hbc)
  · exact Or.inr (h.after hb ha hc hbc hac)

/-- Where a third splice goes when a front and a rear one are made. -/
theorem Clear.after_after (h : a.Clear b) (ha : a.start ≤ a.stop) (hb : b.start ≤ b.stop)
    (hc : c.start ≤ c.stop) (hac : a.Apart c) (hbc : b.Apart c) :
    (c.after a).after (b.after a) = (c.after b).after a := by
  rcases hbc with hbc | hbc
  · -- behind both of them it moves by both
    have hle := h.stop_le
    have hle' := hbc.stop_le
    have hle'' := (h.trans hbc hb).stop_le
    ext1
    · simp only [start_after, stop_after, newText_after, if_pos hle, if_pos hle', if_pos hle'']
      rw [if_pos (by omega), if_pos (by omega)]
      omega
    · simp only [start_after, stop_after, newText_after, if_pos hle, if_pos hle', if_pos hle'']
      rw [if_pos (by omega), if_pos (by omega)]
      omega
    · simp only [newText_after]
  · -- in front of the rear one it still is so once the front one is made
    have hclear := hbc.after hc hb ha hac.symm (Or.inr h)
    rw [hbc.after_eq hc hb]
    exact hclear.after_eq (start_after_le hc a) (start_after_le hb a)

/-- **What is moved along with two splices goes to the same place in either order.** -/
theorem after_after_comm (ha : a.start ≤ a.stop) (hb : b.start ≤ b.stop) (hc : c.start ≤ c.stop)
    (hab : a.Apart b) (hac : a.Apart c) (hbc : b.Apart c) :
    (c.after a).after (b.after a) = (c.after b).after (a.after b) := by
  rcases hab with h | h
  · rw [h.after_after ha hb hc hac hbc, h.after_eq ha hb]
  · rw [h.after_after hb ha hc hbc hac, h.after_eq hb ha]

/-! ## Lists of splices -/

/-- Splices that can all be made in a text: they fit it and are pairwise apart. -/
structure Compatible (ss : List Splice) (t : Text) : Prop where
  apart : ss.Pairwise Apart
  fits : ∀ s ∈ ss, s.Fits t

theorem Compatible.perm {ss ss' : List Splice} (h : Compatible ss t) (hperm : ss.Perm ss') :
    Compatible ss' t :=
  ⟨(hperm.pairwise_iff fun h => h.symm).mp h.apart, fun s hs => h.fits s (hperm.mem_iff.mpr hs)⟩

/-- **Once one of them is made, the others can still be made where they are then.** -/
theorem Compatible.after {ss : List Splice} (h : Compatible (a :: ss) t) :
    Compatible (ss.map (·.after a)) (a.apply t) := by
  obtain ⟨hfront, hrest⟩ := List.pairwise_cons.mp h.apart
  obtain ⟨ha, hfits⟩ := List.forall_mem_cons.mp h.fits
  constructor
  · rw [List.pairwise_map]
    refine hrest.imp_of_mem fun {s s'} hs hs' happart => ?_
    exact happart.after (hfits s hs).start_le (hfits s' hs').start_le ha.start_le
      (hfront s hs).symm (hfront s' hs').symm
  · intro s' hs'
    obtain ⟨s, hs, rfl⟩ := List.mem_map.mp hs'
    exact (hfits s hs).after (hfront s hs).symm ha

theorem applyFrom_congr {move move' : Splice → Splice} {ss : List Splice}
    (h : ∀ s ∈ ss, move s = move' s) (t : Text) : applyFrom move ss t = applyFrom move' ss t := by
  induction ss generalizing move move' t with
  | nil => rfl
  | cons s ss ih =>
    obtain ⟨hs, hss⟩ := List.forall_mem_cons.mp h
    rw [applyFrom, applyFrom, hs]
    refine ih (fun s' hs' => ?_) _
    rw [hss s' hs']

theorem applyFrom_perm {ss ss' : List Splice} (hperm : ss.Perm ss') {move : Splice → Splice}
    (h : Compatible (ss.map move) t) : applyFrom move ss t = applyFrom move ss' t := by
  induction hperm generalizing move t with
  | nil => rfl
  | cons x _ ih =>
    refine ih ?_
    have hafter := h.after
    rwa [List.map_map] at hafter
  | swap x y l =>
    obtain ⟨hy, hrest⟩ := List.pairwise_cons.mp h.apart
    obtain ⟨hx, -⟩ := List.pairwise_cons.mp hrest
    obtain ⟨hfity, hfits⟩ := List.forall_mem_cons.mp h.fits
    obtain ⟨hfitx, hfitl⟩ := List.forall_mem_cons.mp hfits
    have hyx : (move y).Apart (move x) := hy _ List.mem_cons_self
    simp only [applyFrom]
    rw [apply_after_comm hyx hfity hfitx]
    refine applyFrom_congr (fun s hs => ?_) _
    have hmem : move s ∈ l.map move := List.mem_map_of_mem hs
    exact after_after_comm hfity.start_le hfitx.start_le (hfitl _ hmem).start_le hyx
      (hy _ (List.mem_cons_of_mem _ hmem)) (hx _ hmem)
  | trans hperm _ ih ih' => rw [ih h, ih' (h.perm (hperm.map move))]

/-- **Splices that are pairwise apart give the same text in any order.** -/
theorem applyAll_perm {ss ss' : List Splice} (hperm : ss.Perm ss') (h : Compatible ss t) :
    applyAll ss t = applyAll ss' t :=
  applyFrom_perm hperm (by rwa [List.map_id])

-- The second splice refers to the text as it was, and is made two characters further on.
example : applyAll [⟨0, 1, "xyz".toList⟩, ⟨2, 3, "u".toList⟩] "abc".toList = "xyzbu".toList := by
  decide

end Splice
end Sproto
