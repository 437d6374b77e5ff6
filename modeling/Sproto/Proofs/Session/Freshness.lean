import Sproto.Proofs.Session.Step

/-! # What is shown stays up to date

An editor shows for a document the list that was published last.  As long as a document's text changes
only when the session is told so, and the workspace as a whole is left alone, that list is never stale:
while validation is on, a tracked document shows the diagnostics of the text it has now, and a document
that is not tracked shows none (`shown_fresh`).

The invariant (`Session.Fresh`) is kept document by document.  A document that a request leaves alone
keeps both its text and its list; every other request publishes its verdict or clears it.  Switching
validation off breaks nothing, since then nothing is promised for tracked documents, and switching it on
judges all of them again: as no number is tracked, none of them is passed over. -/
namespace Sproto

/-- Whether an event concerns one document or the settings: the only text that it may change is that of
the document it says was opened, changed, saved or closed, it does not ask for the whole workspace, and
it does not name a document by a number. -/
def Event.isLocal (e : Event) : Bool :=
  match e.request with
  | .touched uri | .closed uri => e.change.all (·.1 == uri)
  | .command .validateDocument args =>
      e.change.isNone &&
        match Name.ofJson? (param (namedArguments args) "uri") with
        | .ok (.number _) => false
        | _ => true
  | .command .validateWorkspace _ => false
  | _ => e.change.isNone

namespace Event

variable {e : Event}

theorem request_of_change {name : String} {answer : Except String Text} (h : e.isLocal = true)
    (hc : e.change = some (name, answer)) : e.request = .touched name ∨ e.request = .closed name := by
  unfold isLocal at h
  rw [hc] at h
  split at h
  · rename_i uri hr
    have hname : name = uri := by simpa using h
    exact .inl (hname ▸ hr)
  · rename_i uri hr
    have hname : name = uri := by simpa using h
    exact .inr (hname ▸ hr)
  · simp at h
  · simp at h
  · simp at h

theorem request_ne_survey (h : e.isLocal = true) (args : List Json) :
    e.request ≠ .command .validateWorkspace args := by
  intro hr
  simp [isLocal, hr] at h

theorem name_ne_number {args : List Json} (h : e.isLocal = true)
    (hr : e.request = .command .validateDocument args) (n : NumberName) :
    Name.ofJson? (param (namedArguments args) "uri") ≠ .ok (.number n) := by
  intro hn
  simp [isLocal, hr, hn] at h

end Event

namespace Session

variable {s t : Session} {uri : String} {os : List Outcome} {o : Outcome}

/-! ## What a document should show -/

/-- The diagnostics that a document's text has.  A document that cannot be read or validated has one
general remark that says why. -/
inductive Judges (s : Session) (uri : String) : List Diagnostic → Prop where
  | sound {report : Report} (h : s.document? uri >>= validate = .ok report) :
      Judges s uri (report.issues.map Diagnostic.ofIssue)
  | failed {f : Fault} (h : s.document? uri >>= validate = .error f) :
      Judges s uri [.general ("Internal error while validating: " ++ f.message)]

theorem Judges.congr {ds : List Diagnostic} (h : s.Judges uri ds)
    (hd : t.document? uri = s.document? uri) : t.Judges uri ds := by
  rcases h with h | h
  · exact .sound (hd ▸ h)
  · exact .failed (hd ▸ h)

theorem judges_diagnose (s : Session) (uri : String) : s.Judges uri (s.diagnose uri) := by
  have hsource : s.document? uri >>= Diagnostic.ofSource =
      (s.document? uri >>= validate).map fun r => r.issues.map Diagnostic.ofIssue := by
    rcases s.document? uri with f | text <;> rfl
  rw [diagnose, hsource]
  rcases h : s.document? uri >>= validate with f | report
  · exact .failed h
  · exact .sound h

/-- What is shown for a document is up to date. -/
structure Fresh (s : Session) (os : List Outcome) (uri : String) : Prop where
  /-- While validation is on, a tracked document shows the diagnostics it has. -/
  tracked : uri ∈ s.tracked → s.enabled = true → ∃ ds, shown? os uri = some ds ∧ s.Judges uri ds
  /-- Nothing is shown for a document that is not tracked. -/
  untracked : uri ∉ s.tracked → ∀ ds, shown? os uri = some ds → ds = []

/-! ## One step -/

/-- A document is up to date once its verdict is published. -/
theorem fresh_of_judged (hl : o.left? uri = some (o.session.verdict uri))
    (ht : uri ∈ o.session.tracked) : o.session.Fresh (os ++ [o]) uri where
  tracked _ hon := by
    refine ⟨_, shown?_concat_of_some hl, ?_⟩
    rw [verdict, if_pos hon]
    exact judges_diagnose o.session uri
  untracked hn := absurd ht hn

/-- A document is up to date once it is cleared and no longer tracked. -/
theorem fresh_of_cleared (hl : o.left? uri = some []) (ht : uri ∉ o.session.tracked) :
    o.session.Fresh (os ++ [o]) uri where
  tracked hm := absurd hm ht
  untracked _ ds hds := by
    rw [shown?_concat_of_some hl] at hds
    exact (Option.some_inj.mp hds).symm

/-- A request that is no survey keeps a document up to date whose text is as it was, as long as no number
is tracked. -/
theorem Fresh.step {r : Request} (h : s.Fresh os uri) (hn : s.numbers = []) (hstep : Step s r o)
    (hr : ∀ args, r ≠ .command .validateWorkspace args) : o.session.Fresh (os ++ [o]) uri := by
  rcases hstep.effect uri with
    ⟨hl, ht, he⟩ | ⟨hl, ht⟩ | ⟨hl, ht⟩ | ⟨-, -, -, -, hb⟩ | ⟨hsurvey, -⟩
  · constructor
    · intro hm hon
      -- A tracked document that is left alone has seen no switch, so validation was on before.
      have hm' : uri ∈ s.tracked := ht.mp hm
      have hon' : s.enabled = true := he.elim (fun h => h ▸ hon) (absurd hm')
      obtain ⟨ds, hds, hj⟩ := h.tracked hm' hon'
      refine ⟨ds, ?_, hj.congr (hstep.sameStore.document?_eq uri)⟩
      rw [shown?_concat_of_none hl, hds]
    · intro hn ds hds
      rw [shown?_concat_of_none hl] at hds
      exact h.untracked (fun hm => hn (ht.mpr hm)) ds hds
  · exact fresh_of_judged hl ht
  · exact fresh_of_cleared hl ht
  · exact absurd hn (numbers_ne_nil_of_behindNumber hb)
  · exact absurd hsurvey (hr _)

/-- A change to another document, or to none, keeps a document up to date. -/
theorem Fresh.change {c : Option (String × Except String Text)} (h : s.Fresh os uri)
    (hc : ∀ answer, c ≠ some (uri, answer)) : (s.change c).Fresh os uri := by
  rcases c with _ | ⟨name, answer⟩
  · exact h
  · have hne : uri ≠ name := fun heq => hc answer (by rw [heq])
    constructor
    · intro hm hon
      obtain ⟨ds, hds, hj⟩ := h.tracked hm hon
      exact ⟨ds, hds, hj.congr (document?_change_of_ne hne)⟩
    · exact h.untracked

/-- **An event that concerns one document or the settings keeps every document up to date.** -/
theorem Fresh.serve {e : Event} (h : s.Fresh os uri) (hn : s.numbers = []) (he : e.isLocal = true) :
    (s.serve e).session.Fresh (os ++ [s.serve e]) uri := by
  by_cases hc : ∃ answer, e.change = some (uri, answer)
  · obtain ⟨answer, hc⟩ := hc
    rw [Session.serve]
    rcases Event.request_of_change he hc with hr | hr
    · rw [hr]
      apply fresh_of_judged
      · show Outcome.left? _ uri = some (((s.change e.change).track uri).verdict uri)
        rw [verdict_track]
        exact Outcome.left?_self
      · exact mem_track.mpr (.inl rfl)
    · rw [hr]
      exact fresh_of_cleared Outcome.left?_self fun hm => (mem_untrack.mp hm).2 rfl
  · exact (h.change fun answer hc' => hc ⟨answer, hc'⟩).step ((numbers_change s _).trans hn)
      (step_cases _ _) (Event.request_ne_survey he)

/-- No number is tracked unless a document is named by one. -/
theorem numbers_serve {e : Event} (he : e.isLocal = true) :
    (s.serve e).session.numbers = s.numbers := by
  rw [← numbers_change s e.change]
  have hstep : Step (s.change e.change) e.request (s.serve e) := step_cases _ _
  generalize s.serve e = o at hstep
  rcases hstep with _ | ⟨name⟩ | _ | _ | ⟨hr, hn⟩ | _
  · rfl
  · exact numbers_track _ name
  · rfl
  · rfl
  · exact absurd hn (Event.name_ne_number he hr _)
  · rfl

/-! ## Every run -/

variable {es : List Event}

theorem numbers_after (h : ∀ e ∈ es, e.isLocal = true) : (s.after es).numbers = s.numbers := by
  induction es using List.reverseRecOn with
  | nil => rfl
  | append_singleton es e ih =>
    rw [after_concat, numbers_serve (h e (by simp))]
    exact ih fun e' he' => h e' (List.mem_append_left _ he')

theorem fresh_after (hs : s.Fresh [] uri) (hn : s.numbers = []) (h : ∀ e ∈ es, e.isLocal = true) :
    (s.after es).Fresh (s.run es) uri := by
  induction es using List.reverseRecOn with
  | nil => exact hs
  | append_singleton es e ih =>
    have hes : ∀ e' ∈ es, e'.isLocal = true := fun e' he' => h e' (List.mem_append_left _ he')
    rw [after_concat, run_concat]
    exact (ih hes).serve ((numbers_after hes).trans hn) (h e (by simp))

theorem fresh_start (documents : Store) (disk : Disk) (folders : Folders) (uri : String) :
    (start documents disk folders).Fresh [] uri where
  tracked hm := absurd hm List.not_mem_nil
  untracked _ ds hds := by simp at hds

end Session

/-- **What is shown is up to date after every run** of events that concern one document or the settings,
so after each step of one: no number is tracked, so the open documents are the tracked ones; while
validation is on each of them shows the diagnostics of its text, and all other documents show none. -/
theorem shown_fresh (documents : Store) (disk : Disk) (folders : Folders) {es : List Event}
    (h : ∀ e ∈ es, e.isLocal = true) :
    let start := Session.start documents disk folders
    (start.after es).numbers = [] ∧ ∀ uri, (start.after es).Fresh (start.run es) uri := by
  intro start
  exact ⟨Session.numbers_after h, fun uri =>
    Session.fresh_after (Session.fresh_start documents disk folders uri) rfl h⟩

/-- A document is opened with a flaw, validation is switched off, the document changes and another one
comes and goes, and validation is switched on again. -/
def switchedEvents : List Event :=
  let switch (on : Bool) : Json :=
    .obj [("sproto", .obj [("validation", .obj [("enabled", .bool on)])])]
  [⟨some ("a", .ok "login 1 \x7b\n\x7d\nlogout 1 \x7b\n\x7d\n".toList), .touched "a"⟩,
   ⟨none, .configure (some (switch false)) .asListed⟩,
   ⟨some ("a", .ok "login 2 \x7b\n\x7d\nlogout 2 \x7b\n\x7d\n".toList), .touched "a"⟩,
   ⟨some ("b", .ok "login 3 \x7b\n\x7d\n".toList), .touched "b"⟩,
   ⟨some ("b", .error "closed"), .closed "b"⟩,
   ⟨none, .configure (some (switch true)) .backwards⟩,
   ⟨none, .command .validateDocument [.obj [("uri", .str "a")]]⟩,
   ⟨none, .format "a"⟩]

/-- The session in which they happen: no document is known before. -/
def emptySession : Session := .start (.absent "no such document") ⟨[], []⟩ (some [])

theorem shown_switchedEvents :
    ((emptySession.after switchedEvents).tracked = ["a"] ∧
      (shown? (emptySession.run switchedEvents) "a").map List.length = some 1) ∧
    (emptySession.after switchedEvents).numbers = [] ∧
    ∀ uri, (emptySession.after switchedEvents).Fresh (emptySession.run switchedEvents) uri :=
  ⟨by decide +kernel,
    shown_fresh (.absent "no such document") ⟨[], []⟩ (some []) (by decide +kernel)⟩

end Sproto
