import Sproto.Proofs.Session.Freshness

/-! # What is shown while validation is off

Switching validation off clears the tracked documents, and while it is off a document that is validated
is cleared.  There are two gaps.  A survey of the workspace publishes what it finds whether validation is
on or off, for files that need not be tracked.  And the switch goes through the tracked names one by one
and ends at the first number, for which nothing can be published, so the documents behind it keep what
they show.

These are the only gaps.  While validation is off, a document shows something exactly if it is left from
a survey or from a switch that passed the document over, and nothing was published for the document since
(`shown_while_disabled`).  In particular nothing is shown as long as the events concern one document or the
settings, so that the workspace is not surveyed and no document is named by a number
(`silent_while_disabled`). -/
namespace Sproto
namespace Session

variable {s : Session} {es before : List Event} {e : Event} {uri : String} {ds : List Diagnostic}

/-! ## What is left -/

/-- An event behind others is a survey of the workspace that publishes a list for a document. -/
def Surveys (s : Session) (uri : String) (ds : List Diagnostic) (before : List Event) (e : Event) :
    Prop :=
  (∃ args, e.request = .command .validateWorkspace args) ∧
    ((s.after before).serve e).left? uri = some ds

/-- An event behind others switches validation off and passes over a tracked document that shows a
list. -/
structure PassesOver (s : Session) (uri : String) (ds : List Diagnostic) (before : List Event)
    (e : Event) : Prop where
  /-- In the order in which the tracked names are gone through, a number comes before the document. -/
  request : ∃ settings walk, e.request = .configure (some settings) walk ∧
    Settings.validationEnabled settings = false ∧
    Name.BehindNumber uri (walk.order (s.after before).names)
  enabled : (s.after before).enabled = true
  tracked : uri ∈ (s.after before).tracked
  shown : shown? (s.run before) uri = some ds

/-- A list is left from a survey, or from a switch that passed the document over: nothing was published
for the document since. -/
def Left (s : Session) (es : List Event) (uri : String) (ds : List Diagnostic) : Prop :=
  ∃ before e later, es = before ++ e :: later ∧
    (s.Surveys uri ds before e ∨ s.PassesOver uri ds before e) ∧
    shown? ((s.after (before ++ [e])).run later) uri = none

/-- Nothing is published for a document that is passed over. -/
theorem PassesOver.left?_eq_none (h : s.PassesOver uri ds before e) :
    ((s.after before).serve e).left? uri = none := by
  obtain ⟨settings, walk, hr, hoff, hb⟩ := h.request
  have hswitch : ((s.after before).change e.change).enabled ≠ Settings.validationEnabled settings := by
    rw [enabled_change, h.enabled, hoff]
    exact Bool.noConfusion
  rw [← names_change _ e.change] at hb
  simp only [serve, hr, step, republished_of_ne hswitch]
  exact Outcome.left?_map_of_notMem hb.notMem_leadingTexts

theorem Left.shown (h : s.Left es uri ds) : shown? (s.run es) uri = some ds := by
  obtain ⟨before, e, later, rfl, hleft, hquiet⟩ := h
  rw [← List.concat_append, List.concat_eq_append, run_append, run_concat, shown?_append, hquiet,
    Option.none_or]
  rcases hleft with ⟨-, hl⟩ | hpassed
  · exact shown?_concat_of_some hl
  · rw [shown?_concat_of_none hpassed.left?_eq_none, hpassed.shown]

/-- What is left stays so until something is published for the document. -/
theorem Left.concat (h : s.Left es uri ds) (hq : ((s.after es).serve e).left? uri = none) :
    s.Left (es ++ [e]) uri ds := by
  obtain ⟨before, e₀, later, rfl, hleft, hquiet⟩ := h
  refine ⟨before, e₀, later ++ [e], by simp, hleft, ?_⟩
  have hafter : (s.after (before ++ [e₀])).after later = s.after (before ++ e₀ :: later) := by
    rw [after, after, ← List.foldl_append, List.append_assoc, List.singleton_append]
    rfl
  rw [run_concat, hafter, shown?_concat_of_none hq, hquiet]

/-! ## Where lists come from -/

/-- Where a list that is not empty can come from: it is left, or the document is still tracked while
validation is on. -/
def Accounted (s : Session) (es : List Event) (uri : String) : Prop :=
  ∀ ds, shown? (s.run es) uri = some ds → ds ≠ [] →
    s.Left es uri ds ∨ uri ∈ (s.after es).tracked ∧ (s.after es).enabled = true

theorem Accounted.of_quiet (h : s.Accounted es uri)
    (hl : ((s.after es).serve e).left? uri = none)
    (ht : uri ∈ (s.after es).tracked → uri ∈ (s.after (es ++ [e])).tracked)
    (he : (s.after (es ++ [e])).enabled = (s.after es).enabled ∨ uri ∉ (s.after es).tracked) :
    s.Accounted (es ++ [e]) uri := by
  intro ds hds hne
  rw [run_concat, shown?_concat_of_none hl] at hds
  rcases h ds hds hne with hleft | ⟨hm, hon⟩
  · exact .inl (hleft.concat hl)
  · exact .inr ⟨ht hm, he.elim (fun h => h ▸ hon) (absurd hm)⟩

/-- A switch that passes a tracked document over leaves what is shown. -/
theorem Accounted.of_passed (h : s.Accounted es uri) {settings : Json} {walk : Walk}
    (hr : e.request = .configure (some settings) walk)
    (hl : ((s.after es).serve e).left? uri = none) (hm : uri ∈ (s.after es).tracked)
    (he : (s.after es).enabled ≠ ((s.after es).serve e).session.enabled)
    (hb : Name.BehindNumber uri (walk.order (s.after es).names)) : s.Accounted (es ++ [e]) uri := by
  intro ds hds hne
  rw [run_concat, shown?_concat_of_none hl] at hds
  rcases h ds hds hne with hleft | ⟨-, hon⟩
  · exact .inl (hleft.concat hl)
  · -- Validation was on, so this is the switch that turns it off.
    have hoff : Settings.validationEnabled settings = false := by
      simpa only [serve, hr, step, hon, ne_eq, Bool.true_eq, Bool.not_eq_true] using he
    exact .inl ⟨es, e, [], rfl, .inr ⟨⟨settings, walk, hr, hoff, hb⟩, hon, hm, hds⟩, rfl⟩

/-- **No event makes a list unaccounted for.** -/
theorem Accounted.concat (h : s.Accounted es uri) (e : Event) : s.Accounted (es ++ [e]) uri := by
  have hafter : s.after (es ++ [e]) = ((s.after es).serve e).session := after_concat s es e
  rcases effect_serve (s.after es) e uri with
    ⟨hl, ht, he⟩ | ⟨hl, ht⟩ | ⟨hl, ht⟩ | ⟨hr, hl, hm, he, hb⟩ | ⟨hr, ht, he⟩
  · exact h.of_quiet hl (hafter ▸ ht.mpr) (hafter ▸ he)
  · intro ds hds hne
    rw [run_concat, shown?_concat_of_some hl, Option.some_inj] at hds
    rw [hafter]
    -- A verdict that is not empty is given only while validation is on.
    by_cases hon : ((s.after es).serve e).session.enabled = true
    · exact .inr ⟨ht, hon⟩
    · exact absurd (hds.symm.trans (if_neg hon)) hne
  · intro ds hds hne
    rw [run_concat, shown?_concat_of_some hl, Option.some_inj] at hds
    exact absurd hds.symm hne
  · exact h.of_passed hr hl hm he hb
  · rcases hl : ((s.after es).serve e).left? uri with _ | ds'
    · exact h.of_quiet hl (hafter ▸ ht.mpr) (.inl (hafter ▸ he))
    · intro ds hds hne
      rw [run_concat, shown?_concat_of_some hl, Option.some_inj] at hds
      exact .inl ⟨es, e, [], rfl, .inl ⟨⟨_, hr⟩, hds ▸ hl⟩, rfl⟩

theorem accounted (s : Session) (es : List Event) (uri : String) : s.Accounted es uri := by
  induction es using List.reverseRecOn with
  | nil =>
    intro ds hds
    exact absurd hds (by simp [run])
  | append_singleton es e ih => exact ih.concat e

end Session

/-- **While validation is off, a document shows something exactly if a survey of the workspace published
it, or the switch passed the document over while it was shown, and nothing was published for the document
since.** -/
theorem shown_while_disabled (documents : Store) (disk : Disk) (folders : Folders) {es : List Event}
    (hoff : ((Session.start documents disk folders).after es).enabled = false) (uri : String)
    (ds : List Diagnostic) :
    (shown? ((Session.start documents disk folders).run es) uri = some ds ∧ ds ≠ []) ↔
      ((Session.start documents disk folders).Left es uri ds ∧ ds ≠ []) := by
  constructor
  · intro ⟨hds, hne⟩
    rcases Session.accounted _ es uri ds hds hne with hleft | ⟨-, hon⟩
    · exact ⟨hleft, hne⟩
    · rw [hoff] at hon
      exact absurd hon Bool.false_ne_true
  · intro ⟨hleft, hne⟩
    exact ⟨hleft.shown, hne⟩

/-- A disk with one schema, in which a number is used twice. -/
def flawedDisk : Disk :=
  (Disk.empty ["w".toList]).put ["w".toList, "bad.sproto".toList]
    (.file ("a 1 \x7b\n\x7d\nb 1 \x7b\n\x7d\n".toList.map fun c => c.toNat.toUInt8))

/-- The session of a workspace on this disk, with no document known. -/
def flawedSession : Session := .start (.absent "no such document") flawedDisk (some [])

/-- The workspace is surveyed, a document with the same flaw is opened, a document is named by a number,
and validation is switched off with that number coming first. -/
def leftoverEvents : List Event :=
  [⟨none, .command .validateWorkspace [.obj [("workspaceRoot", .str "/w")]]⟩,
   ⟨some ("a", .ok "a 1 \x7b\n\x7d\nb 1 \x7b\n\x7d\n".toList), .touched "a"⟩,
   ⟨none, .command .validateDocument [.obj [("uri", .int 8)]]⟩,
   ⟨none, .configure (some (.obj [("sproto", .obj [("validation", .obj [("enabled", .bool false)])])]))
      .backwards⟩]

/-- With validation off, the flaws of the surveyed schema and of the open document are still shown. -/
theorem shown_leftoverEvents :
    (flawedSession.after leftoverEvents).enabled = false ∧
    ∀ uri ∈ ["file:///w/bad.sproto", "a"], ∃ ds, ds.length = 1 ∧
      shown? (flawedSession.run leftoverEvents) uri = some ds ∧
      flawedSession.Left leftoverEvents uri ds := by
  have hoff : (flawedSession.after leftoverEvents).enabled = false := by decide +kernel
  refine ⟨hoff, fun uri huri => ?_⟩
  have hlength : ∀ uri ∈ ["file:///w/bad.sproto", "a"],
      (shown? (flawedSession.run leftoverEvents) uri).map List.length = some 1 := by
    decide +kernel
  obtain ⟨ds, hds, hl⟩ := Option.map_eq_some_iff.mp (hlength uri huri)
  have hne : ds ≠ [] := List.ne_nil_of_length_pos (by omega)
  exact ⟨ds, hl, hds, ((shown_while_disabled _ _ _ hoff uri ds).mp ⟨hds, hne⟩).1⟩

/-- **While validation is off nothing is shown**, after every run of events that concern one document or the
settings. -/
theorem silent_while_disabled (documents : Store) (disk : Disk) (folders : Folders) {es : List Event}
    (h : ∀ e ∈ es, e.isLocal = true)
    (hoff : ((Session.start documents disk folders).after es).enabled = false) {uri : String}
    {ds : List Diagnostic} (hds : shown? ((Session.start documents disk folders).run es) uri = some ds) :
    ds = [] := by
  by_contra hne
  rcases Session.accounted _ es uri ds hds hne with hleft | ⟨-, hon⟩
  · obtain ⟨before, e, later, rfl, ⟨⟨args, hr⟩, -⟩ | hpassed, -⟩ := hleft
    · exact Event.request_ne_survey (h e (by simp)) args hr
    · obtain ⟨-, walk, -, -, hb⟩ := hpassed.request
      exact Session.numbers_ne_nil_of_behindNumber hb
        (Session.numbers_after fun e' he' => h e' (List.mem_append_left _ he'))
  · rw [hoff] at hon
    exact absurd hon Bool.false_ne_true

end Sproto
