import Mathlib.Data.List.Induction
import Sproto.Session.Basic

/-! # What a session shows for a document

Publishing replaces what was published before, so an editor shows for a document the list that came
last.  `Outcome.left?` is the list that one step leaves for a document and `shown?` the one that a run
of steps leaves.

A request acts on each document in one of five ways (`Effect`): nothing is published for it and it
stays as it is; its verdict is published and it is tracked; it is cleared and no longer tracked;
validation is switched but a number comes before the document, which is then passed over; or the request
is a survey of the workspace.  `Step.effect` says so once for all requests, and what holds throughout a
run is read off it. -/
namespace Sproto

/-! ## Names behind a number -/

namespace Name

variable {uri : String} {names : List Name}

/-- A number comes before a document among names. -/
def BehindNumber (uri : String) (names : List Name) : Prop :=
  ∃ front n back, names = front ++ .number n :: back ∧ .text uri ∉ front

theorem text_mem_of_mem_leadingTexts (h : uri ∈ leadingTexts names) : .text uri ∈ names := by
  induction names with
  | nil => exact absurd h List.not_mem_nil
  | cons name names ih =>
    rcases name with name | n
    · rcases List.mem_cons.mp h with rfl | h
      · exact List.mem_cons_self
      · exact List.mem_cons_of_mem _ (ih h)
    · exact absurd h List.not_mem_nil

theorem BehindNumber.notMem_leadingTexts (h : BehindNumber uri names) : uri ∉ leadingTexts names := by
  obtain ⟨front, n, back, rfl, hfront⟩ := h
  induction front with
  | nil => exact List.not_mem_nil
  | cons name front ih =>
    obtain ⟨hname, hrest⟩ := List.ne_and_not_mem_of_not_mem_cons hfront
    rcases name with name | m
    · exact List.not_mem_cons_of_ne_of_not_mem (fun heq => hname (heq ▸ rfl)) (ih hrest)
    · exact List.not_mem_nil

/-- A document that is not among the leading texts stands behind a number. -/
theorem behindNumber_of_notMem (hm : .text uri ∈ names) (h : uri ∉ leadingTexts names) :
    BehindNumber uri names := by
  induction names with
  | nil => exact absurd hm List.not_mem_nil
  | cons name names ih =>
    rcases name with name | n
    · obtain ⟨hne, hrest⟩ := List.ne_and_not_mem_of_not_mem_cons h
      have hname : Name.text uri ≠ .text name := fun heq => hne (Name.text.inj heq)
      obtain ⟨front, n, back, rfl, hfront⟩ := ih (List.mem_of_ne_of_mem hname hm) hrest
      exact ⟨.text name :: front, n, back, rfl,
        List.not_mem_cons_of_ne_of_not_mem hname hfront⟩
    · exact ⟨[], n, names, rfl, List.not_mem_nil⟩

end Name

/-! ## What is shown -/

/-- The list that an outcome leaves published for a document, if it publishes one. -/
def Outcome.left? (o : Outcome) (uri : String) : Option (List Diagnostic) :=
  o.published.reverse.lookup uri

/-- The list that was published last for a document, if one ever was. -/
def shown? (os : List Outcome) (uri : String) : Option (List Diagnostic) :=
  os.reverse.findSome? (·.left? uri)

@[simp] theorem shown?_nil (uri : String) : shown? [] uri = none := rfl

theorem shown?_append (os os' : List Outcome) (uri : String) :
    shown? (os ++ os') uri = (shown? os' uri).or (shown? os uri) := by
  simp only [shown?, List.reverse_append, List.findSome?_append]

@[simp] theorem shown?_singleton (o : Outcome) (uri : String) : shown? [o] uri = o.left? uri := by
  simp [shown?]

theorem shown?_concat_of_some {os : List Outcome} {o : Outcome} {uri : String}
    {ds : List Diagnostic} (h : o.left? uri = some ds) : shown? (os ++ [o]) uri = some ds := by
  rw [shown?_append, shown?_singleton, h, Option.some_or]

theorem shown?_concat_of_none {os : List Outcome} {o : Outcome} {uri : String}
    (h : o.left? uri = none) : shown? (os ++ [o]) uri = shown? os uri := by
  rw [shown?_append, shown?_singleton, h, Option.none_or]

namespace Outcome

variable {s : Session} {reply : Except Fault Reply} {uri : String}

@[simp] theorem left?_nil : left? ⟨s, [], reply⟩ uri = none := rfl

@[simp] theorem left?_self {ds : List Diagnostic} : left? ⟨s, [(uri, ds)], reply⟩ uri = some ds := by
  simp [left?]

theorem left?_of_ne {name : String} {ds : List Diagnostic} (h : uri ≠ name) :
    left? ⟨s, [(name, ds)], reply⟩ uri = none := by
  have hb : (uri == name) = false := beq_false_of_ne h
  rw [left?, List.reverse_singleton, List.lookup_cons, hb]
  rfl

theorem lookup_map_of_mem {names : List String} {f : String → List Diagnostic} (h : uri ∈ names) :
    (names.map fun name => (name, f name)).lookup uri = some (f uri) := by
  induction names with
  | nil => exact absurd h List.not_mem_nil
  | cons name names ih =>
    rw [List.map_cons, List.lookup_cons]
    by_cases hn : uri = name
    · subst hn
      rw [beq_self_eq_true]
    · rw [beq_false_of_ne hn]
      exact ih (List.mem_of_ne_of_mem hn h)

/-- A list for each of several documents leaves each of them its own. -/
theorem left?_map_of_mem {names : List String} {f : String → List Diagnostic} (h : uri ∈ names) :
    left? ⟨s, names.map fun name => (name, f name), reply⟩ uri = some (f uri) := by
  rw [left?, ← List.map_reverse]
  exact lookup_map_of_mem (List.mem_reverse.mpr h)

theorem left?_map_of_notMem {names : List String} {f : String → List Diagnostic}
    (h : uri ∉ names) :
    left? ⟨s, names.map fun name => (name, f name), reply⟩ uri = none := by
  rw [left?, List.lookup_eq_none_iff]
  intro p hp
  obtain ⟨name, hn, rfl⟩ := List.mem_map.mp (List.mem_reverse.mp hp)
  exact bne_iff_ne.mpr fun heq => h (heq ▸ hn)

end Outcome

namespace Session

variable {s : Session} {uri : String}

/-! ## The parts of a session -/

theorem mem_track {name : String} : uri ∈ (s.track name).tracked ↔ uri = name ∨ uri ∈ s.tracked := by
  unfold track
  split
  · rename_i h
    have hm : name ∈ s.tracked := List.contains_iff_mem.mp h
    exact ⟨.inr, fun h => h.elim (fun e => e ▸ hm) id⟩
  · exact Order.mem_insert

theorem mem_untrack {name : String} : uri ∈ (s.untrack name).tracked ↔ uri ∈ s.tracked ∧ uri ≠ name := by
  simp [untrack, List.mem_filter]

/-- Two sessions that differ in what they track alone. -/
structure SameStore (s t : Session) : Prop where
  documents : t.documents = s.documents
  disk : t.disk = s.disk
  folders : t.folders = s.folders

theorem SameStore.refl (s : Session) : SameStore s s := ⟨rfl, rfl, rfl⟩

theorem SameStore.track (s : Session) (name : String) : SameStore s (s.track name) := by
  unfold Session.track
  split <;> exact ⟨rfl, rfl, rfl⟩

theorem SameStore.trackNumber (s : Session) (n : NumberName) : SameStore s (s.trackNumber n) := by
  unfold Session.trackNumber
  split <;> exact ⟨rfl, rfl, rfl⟩

theorem SameStore.document?_eq {t : Session} (h : SameStore s t) (uri : String) :
    t.document? uri = s.document? uri := by
  rw [document?, document?, namedDocument?, namedDocument?, h.documents]

theorem SameStore.diagnose_eq {t : Session} (h : SameStore s t) (uri : String) :
    t.diagnose uri = s.diagnose uri := by
  rw [diagnose, diagnose, h.document?_eq]

@[simp] theorem enabled_track (s : Session) (name : String) : (s.track name).enabled = s.enabled := by
  unfold track
  split <;> rfl

@[simp] theorem numbers_track (s : Session) (name : String) : (s.track name).numbers = s.numbers := by
  unfold track
  split <;> rfl

@[simp] theorem verdict_track (s : Session) (name : String) :
    (s.track name).verdict uri = s.verdict uri := by
  rw [verdict, verdict, enabled_track, (SameStore.track s name).diagnose_eq]

@[simp] theorem tracked_trackNumber (s : Session) (n : NumberName) :
    (s.trackNumber n).tracked = s.tracked := by
  unfold trackNumber
  split <;> rfl

@[simp] theorem enabled_trackNumber (s : Session) (n : NumberName) :
    (s.trackNumber n).enabled = s.enabled := by
  unfold trackNumber
  split <;> rfl

@[simp] theorem tracked_change (s : Session) (c : Option (String × Except String Text)) :
    (s.change c).tracked = s.tracked := by
  rcases c with _ | c <;> rfl

@[simp] theorem enabled_change (s : Session) (c : Option (String × Except String Text)) :
    (s.change c).enabled = s.enabled := by
  rcases c with _ | c <;> rfl

@[simp] theorem numbers_change (s : Session) (c : Option (String × Except String Text)) :
    (s.change c).numbers = s.numbers := by
  rcases c with _ | c <;> rfl

@[simp] theorem names_change (s : Session) (c : Option (String × Except String Text)) :
    (s.change c).names = s.names := by
  rw [names, names, tracked_change, numbers_change]

/-- A change to one document leaves the others. -/
theorem document?_change_of_ne {name : String} {answer : Except String Text} (h : uri ≠ name) :
    (s.change (some (name, answer))).document? uri = s.document? uri := by
  have hstore : s.documents.set name answer (.str uri) = s.documents (.str uri) := if_neg h
  show (s.documents.set name answer (.str uri)).mapError _ = _
  rw [hstore]
  rfl

theorem text_mem_names : .text uri ∈ s.names ↔ uri ∈ s.tracked := by
  simp [names]

theorem number_mem_names {n : NumberName} : .number n ∈ s.names ↔ n ∈ s.numbers := by
  simp [names]

/-- A document is passed over only if a number is tracked. -/
theorem numbers_ne_nil_of_behindNumber {walk : Walk}
    (h : Name.BehindNumber uri (walk.order s.names)) : s.numbers ≠ [] := by
  obtain ⟨front, n, back, horder, -⟩ := h
  have hm : .number n ∈ walk.order s.names := horder ▸ List.mem_append_right _ List.mem_cons_self
  exact List.ne_nil_of_mem (number_mem_names.mp ((walk.perm _).mem_iff.mp hm))

/-! ## What a step can do -/

/-- What a request can lead to. -/
inductive Step (s : Session) (r : Request) : Outcome → Prop where
  /-- Only an answer is given. -/
  | idle (reply : Except Fault Reply) : Step s r ⟨s, [], reply⟩
  /-- A document is validated. -/
  | validated (name : String) (reply : Except Fault Reply) :
      Step s r ⟨s.track name, [(name, s.verdict name)], reply⟩
  /-- A document is closed. -/
  | closed (name : String) (reply : Except Fault Reply) :
      Step s r ⟨s.untrack name, [(name, [])], reply⟩
  /-- The settings are read. -/
  | configured {settings : Json} {walk : Walk} (hr : r = .configure (some settings) walk)
      (enabled : Bool) (reply : Except Fault Reply) :
      Step s r ⟨{ s with enabled := enabled }, s.republished walk enabled, reply⟩
  /-- A command is given a name that is no text. -/
  | numbered {args : List Json} {n : NumberName} (hr : r = .command .validateDocument args)
      (hn : Name.ofJson? (param (namedArguments args) "uri") = .ok (.number n))
      (reply : Except Fault Reply) : Step s r ⟨s.trackNumber n, [], reply⟩
  /-- The workspace is surveyed. -/
  | surveyed {args : List Json} (hr : r = .command .validateWorkspace args)
      (published : List Publication) (reply : Except Fault Reply) : Step s r ⟨s, published, reply⟩

theorem step_validateDocument (s : Session) (args : List Json) :
    Step s (.command .validateDocument args) (s.validateDocument (namedArguments args)) := by
  simp only [validateDocument]
  split_ifs
  · exact .idle _
  · exact .idle _
  · rcases hn : Name.ofJson? (param (namedArguments args) "uri") with f | name | n
    · exact .idle _
    · exact .validated name _
    · exact .numbered rfl hn _

theorem step_validateWorkspace (s : Session) (args : List Json) :
    Step s (.command .validateWorkspace args) (s.validateWorkspace (namedArguments args)) := by
  unfold validateWorkspace
  split
  · exact .idle _
  · exact .idle _
  · exact .surveyed rfl _ _

theorem step_cases (s : Session) (r : Request) : Step s r (s.step r) := by
  rcases r with name | name | name | name | name | ⟨name, ds⟩ | ⟨settings, walk⟩ | ⟨c, args⟩
  · exact .validated name _
  · exact .closed name _
  · exact .validated name _
  · exact .idle _
  · exact .idle _
  · exact .idle _
  · rcases settings with _ | settings
    · exact .idle _
    · exact .configured rfl _ _
  · rcases c with _ | _ | _
    · exact step_validateDocument s args
    · exact .idle _
    · exact step_validateWorkspace s args

/-- No request changes the client's documents or the disk. -/
theorem Step.sameStore {r : Request} {o : Outcome} (h : Step s r o) : SameStore s o.session := by
  rcases h with _ | ⟨name⟩ | _ | _ | ⟨_, _⟩ | _
  · exact .refl s
  · exact .track s name
  · exact ⟨rfl, rfl, rfl⟩
  · exact ⟨rfl, rfl, rfl⟩
  · exact .trackNumber s _
  · exact .refl s

/-! ## The effect of a request on a document -/

/-- What a request does to a document. -/
inductive Effect (s : Session) (r : Request) (uri : String) (o : Outcome) : Prop where
  /-- Nothing is published for it, and it is tracked as before.  If validation is switched, it is
  not tracked. -/
  | quiet (hl : o.left? uri = none) (ht : uri ∈ o.session.tracked ↔ uri ∈ s.tracked)
      (he : o.session.enabled = s.enabled ∨ uri ∉ s.tracked)
  /-- Its verdict is published, and it is tracked. -/
  | judged (hl : o.left? uri = some (o.session.verdict uri)) (ht : uri ∈ o.session.tracked)
  /-- It is cleared and not tracked. -/
  | cleared (hl : o.left? uri = some []) (ht : uri ∉ o.session.tracked)
  /-- Validation is switched, and the document is tracked and passed over: a number comes before it. -/
  | passed {settings : Json} {walk : Walk} (hr : r = .configure (some settings) walk)
      (hl : o.left? uri = none) (hm : uri ∈ s.tracked) (he : s.enabled ≠ o.session.enabled)
      (hb : Name.BehindNumber uri (walk.order s.names))
  /-- The workspace is surveyed, and the document is tracked as before. -/
  | surveyed {args : List Json} (hr : r = .command .validateWorkspace args)
      (ht : uri ∈ o.session.tracked ↔ uri ∈ s.tracked) (he : o.session.enabled = s.enabled)

variable {r : Request} {reply : Except Fault Reply}

theorem effect_validated (name : String) :
    Effect s r uri ⟨s.track name, [(name, s.verdict name)], reply⟩ := by
  by_cases h : uri = name
  · subst h
    apply Effect.judged
    · rw [Outcome.left?_self, verdict_track]
    · exact mem_track.mpr (.inl rfl)
  · apply Effect.quiet (Outcome.left?_of_ne h)
    · rw [mem_track, or_iff_right h]
    · exact .inl (enabled_track s name)

theorem effect_closed (name : String) :
    Effect s r uri ⟨s.untrack name, [(name, [])], reply⟩ := by
  by_cases h : uri = name
  · subst h
    exact .cleared Outcome.left?_self fun hm => (mem_untrack.mp hm).2 rfl
  · apply Effect.quiet (Outcome.left?_of_ne h)
    · rw [mem_untrack, and_iff_left h]
    · exact .inl rfl

theorem republished_self (s : Session) (walk : Walk) : s.republished walk s.enabled = [] := by
  unfold republished
  rcases s.enabled with _ | _ <;> rfl

/-- When validation is switched, each tracked document that is reached gets the verdict that now
holds. -/
theorem republished_of_ne {walk : Walk} {enabled : Bool} (h : s.enabled ≠ enabled) :
    s.republished walk enabled =
      (Name.leadingTexts (walk.order s.names)).map fun name =>
        (name, ({ s with enabled := enabled } : Session).verdict name) := by
  rcases s with ⟨documents, disk, folders, _ | _, tracked, numbers⟩ <;> rcases enabled with _ | _
  · exact absurd rfl h
  · rfl
  · rfl
  · exact absurd rfl h

theorem effect_configured {settings : Json} {walk : Walk} (hr : r = .configure (some settings) walk)
    (enabled : Bool) :
    Effect s r uri ⟨{ s with enabled := enabled }, s.republished walk enabled, reply⟩ := by
  by_cases heq : s.enabled = enabled
  · subst heq
    rw [republished_self]
    exact .quiet rfl Iff.rfl (.inl rfl)
  rw [republished_of_ne heq]
  have hwalk : .text uri ∈ walk.order s.names ↔ uri ∈ s.tracked :=
    (walk.perm _).mem_iff.trans text_mem_names
  by_cases hreached : uri ∈ Name.leadingTexts (walk.order s.names)
  · exact .judged (Outcome.left?_map_of_mem hreached)
      (hwalk.mp (Name.text_mem_of_mem_leadingTexts hreached))
  by_cases hm : uri ∈ s.tracked
  · exact .passed hr (Outcome.left?_map_of_notMem hreached) hm heq
      (Name.behindNumber_of_notMem (hwalk.mpr hm) hreached)
  · exact .quiet (Outcome.left?_map_of_notMem hreached) Iff.rfl (.inr hm)

/-- **Every request acts on every document in one of five ways.** -/
theorem Step.effect {o : Outcome} (h : Step s r o) (uri : String) : Effect s r uri o := by
  rcases h with _ | ⟨name⟩ | ⟨name⟩ | ⟨hr, enabled⟩ | ⟨_, _⟩ | ⟨hr⟩
  · exact .quiet rfl Iff.rfl (.inl rfl)
  · exact effect_validated name
  · exact effect_closed name
  · exact effect_configured hr enabled
  · apply Effect.quiet rfl
    · rw [tracked_trackNumber]
    · exact .inl (enabled_trackNumber s _)
  · exact .surveyed hr Iff.rfl rfl

theorem effect_serve (s : Session) (e : Event) (uri : String) :
    Effect s e.request uri (s.serve e) := by
  rcases (step_cases (s.change e.change) e.request).effect uri with
    ⟨hl, ht, he⟩ | ⟨hl, ht⟩ | ⟨hl, ht⟩ | ⟨hr, hl, hm, he, hb⟩ | ⟨hr, ht, he⟩
  · rw [tracked_change] at ht he
    rw [enabled_change] at he
    exact .quiet hl ht he
  · exact .judged hl ht
  · exact .cleared hl ht
  · rw [tracked_change] at hm
    rw [enabled_change] at he
    rw [names_change] at hb
    exact .passed hr hl hm he hb
  · rw [tracked_change] at ht
    rw [enabled_change] at he
    exact .surveyed hr ht he

/-! ## Runs -/

/-- The session that a list of events leaves. -/
def after (s : Session) (es : List Event) : Session := es.foldl (fun s e => (s.serve e).session) s

@[simp] theorem after_nil (s : Session) : s.after [] = s := rfl

@[simp] theorem after_concat (s : Session) (es : List Event) (e : Event) :
    s.after (es ++ [e]) = ((s.after es).serve e).session := by
  rw [after, after, List.foldl_append, List.foldl_cons, List.foldl_nil]

theorem run_append (s : Session) (es es' : List Event) :
    s.run (es ++ es') = s.run es ++ (s.after es).run es' := by
  induction es generalizing s with
  | nil => rfl
  | cons e es ih =>
    show s.serve e :: run _ (es ++ es') = s.serve e :: (run _ es ++ _)
    rw [ih]
    rfl

theorem run_concat (s : Session) (es : List Event) (e : Event) :
    s.run (es ++ [e]) = s.run es ++ [(s.after es).serve e] := run_append s es [e]

end Session
end Sproto
