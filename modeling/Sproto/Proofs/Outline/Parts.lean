import Sproto.Proofs.Outline.Protocols

/-! # The parts of an outline and their symbols

Fields, blocks, protocols and modules are the parts of an outline, each with the lines it covers and the
parts directly in it.  Every part has one symbol and every symbol is that of a part
(`Symbol.exists_part`, `Symbol.exists_symbol`), so what is said of the ranges of symbols can be said of
the lines of parts: a symbol holds the ranges of its children exactly when its part covers the lines of
the parts in it (`Symbol.inside_iff_encloses`). -/
namespace Sproto

/-- Whether a place is not behind another. -/
def Position.AtMost (p q : Position) : Prop :=
  p.line < q.line ∨ p.line = q.line ∧ p.character ≤ q.character

/-- Whether a range lies in another. -/
def Range.Inside (r s : Range) : Prop := s.start.AtMost r.start ∧ r.stop.AtMost s.stop

/-- The symbols of a list and all that are below them. -/
inductive Symbol.Among (ss : List Symbol) : Symbol → Prop
  | root {s : Symbol} (h : s ∈ ss) : Among ss s
  | child {s c : Symbol} (h : Among ss s) (hc : c ∈ s.children) : Among ss c

namespace Outline

/-- A part of an outline. -/
inductive Part where
  | field (f : Field)
  | block (b : Block)
  | protocol (p : Protocol)
  | group (g : Group)

namespace Part

/-- The part that a member of a protocol is. -/
def ofMember : Member → Part
  | .block b => block b
  | .field f => field f

/-- The first line of a part. -/
def line : Part → Nat
  | field f => f.line
  | block b => b.line
  | protocol p => p.line
  | group g => g.line

/-- The last line of a part. -/
def stop : Part → Nat
  | field f => f.line
  | block b => b.stop
  | protocol p => p.stop
  | group g => g.stop

/-- The kind of a part's symbol. -/
def kind : Part → SymbolKind
  | field _ => .field
  | block _ => .block
  | protocol p => if p.name.head? = some '.' then .type else .protocol
  | group _ => .group

/-- The parts directly in a part. -/
def children : Part → List Part
  | field _ => []
  | block b => b.fields.map field
  | protocol p => p.members.map ofMember
  | group g => g.protocols.map protocol

/-- The symbol of a part. -/
def symbol (width : Nat → Nat) : Part → Except Fault Symbol
  | field f => Symbol.ofField width f
  | block b => Symbol.ofBlock width b
  | protocol p => Symbol.ofProtocol width p
  | group g => Symbol.ofGroup width g

/-- Whether a part covers the lines of the parts in it. -/
def Encloses (x : Part) : Prop := ∀ y ∈ x.children, x.line ≤ y.line ∧ y.stop ≤ x.stop

end Part

/-- The parts of an outline that are in no other. -/
def roots (o : Outline) : List Part := o.leading.map .protocol ++ o.groups.map .group

/-- The parts of an outline. -/
inductive HasPart (o : Outline) : Part → Prop
  | root {x : Part} (h : x ∈ o.roots) : HasPart o x
  | child {x y : Part} (h : HasPart o x) (hy : y ∈ x.children) : HasPart o y

end Outline

/-- The range of whole lines. -/
def Range.ofLines (width : Nat → Nat) (line stop : Nat) : Range := ⟨⟨line, 0⟩, ⟨stop, width stop⟩⟩

theorem Range.inside_ofLines_iff {width : Nat → Nat} {line stop line' stop' : Nat} :
    (ofLines width line stop).Inside (ofLines width line' stop') ↔ line' ≤ line ∧ stop ≤ stop' := by
  have hstart : Position.AtMost ⟨line', 0⟩ ⟨line, 0⟩ ↔ line' ≤ line := by
    simp only [Position.AtMost]
    omega
  have hstop : Position.AtMost ⟨stop, width stop⟩ ⟨stop', width stop'⟩ ↔ stop ≤ stop' := by
    simp only [Position.AtMost]
    constructor
    · omega
    · intro hle
      rcases Nat.lt_or_eq_of_le hle with hlt | rfl
      · exact .inl hlt
      · exact .inr ⟨rfl, Nat.le_refl _⟩
  exact and_congr hstart hstop

/-- A place that can be made is the one that is asked for. -/
theorem Position.eq_of_make? {line character : Nat} {p : Position}
    (h : make? line character = .ok p) : p = ⟨line, character⟩ := by
  obtain ⟨l, hl, h⟩ := Symbol.exists_of_bind_eq_ok h
  obtain ⟨c, hc, h⟩ := Symbol.exists_of_bind_eq_ok h
  cases h
  obtain ⟨hline, -⟩ := coordinate?_eq_ok_iff.mp hl
  obtain ⟨hcharacter, -⟩ := coordinate?_eq_ok_iff.mp hc
  rw [Position.mk.injEq]
  omega

theorem Range.eq_of_make? {width : Nat → Nat} {line stop : Nat} {r : Range}
    (h : make? line 0 stop (width stop) = .ok r) : r = ofLines width line stop := by
  obtain ⟨start, hstart, h⟩ := Symbol.exists_of_bind_eq_ok h
  obtain ⟨finish, hfinish, h⟩ := Symbol.exists_of_bind_eq_ok h
  cases h
  have hzero : ((0 : Nat) : Int) = 0 := rfl
  rw [← hzero] at hstart
  rw [Position.eq_of_make? hstart, Position.eq_of_make? hfinish, ofLines]

namespace Symbol

open Outline

variable {width : Nat → Nat} {s : Symbol}

/-- A list of computations that succeed gives their results, and no others. -/
theorem mem_of_mapM {α : Type} {f : α → Except Fault Symbol} {l : List α} {ss : List Symbol}
    (h : l.mapM f = .ok ss) :
    (∀ s ∈ ss, ∃ a ∈ l, f a = .ok s) ∧ ∀ a ∈ l, ∃ s ∈ ss, f a = .ok s := by
  induction l generalizing ss with
  | nil =>
    cases h
    exact ⟨fun s hs => (by cases hs), fun a ha => (by cases ha)⟩
  | cons a l ih =>
    rw [List.mapM_cons] at h
    obtain ⟨s, hs, h⟩ := exists_of_bind_eq_ok h
    obtain ⟨ss', hss, h⟩ := exists_of_bind_eq_ok h
    cases h
    obtain ⟨hback, hforth⟩ := ih hss
    constructor
    · intro s' hs'
      rcases List.mem_cons.mp hs' with rfl | hs'
      · exact ⟨a, List.mem_cons_self, hs⟩
      · obtain ⟨b, hb, hfb⟩ := hback s' hs'
        exact ⟨b, List.mem_cons_of_mem _ hb, hfb⟩
    · intro b hb
      rcases List.mem_cons.mp hb with rfl | hb
      · exact ⟨s, List.mem_cons_self, hs⟩
      · obtain ⟨s', hs', hfb⟩ := hforth b hb
        exact ⟨s', List.mem_cons_of_mem _ hs', hfb⟩

/-- The symbol of a part covers the lines of the part, is selected by the first of them, and has the
symbols of the parts in it. -/
structure Shows (width : Nat → Nat) (s : Symbol) (x : Part) : Prop where
  kind : s.kind = x.kind
  selection : s.selection = Range.ofLines width x.line x.line
  range : s.range = Range.ofLines width x.line x.stop
  children : x.children.mapM (Part.symbol width) = .ok s.children

theorem shows_of_symbol {x : Part} (h : x.symbol width = .ok s) : s.Shows width x := by
  have hmake : ∃ name detail, make? width name x.kind detail x.line x.stop
      (x.children.mapM (Part.symbol width)) = .ok s := by
    rcases x with f | b | p | g
    · exact ⟨_, _, h⟩
    · refine ⟨b.kind.word, none, ?_⟩
      rw [Part.children, List.mapM_map]
      exact h
    · refine ⟨p.name, p.number.map decimal, ?_⟩
      have hmember : Part.symbol width ∘ Part.ofMember = ofMember width := by
        funext m
        rcases m with b | f <;> rfl
      rw [Part.children, List.mapM_map, hmember]
      exact h
    · refine ⟨g.title, none, ?_⟩
      rw [Part.children, List.mapM_map]
      exact h
  obtain ⟨name, detail, hmake⟩ := hmake
  obtain ⟨selection, hselection, hmake⟩ := exists_of_bind_eq_ok hmake
  obtain ⟨range, hrange, hmake⟩ := exists_of_bind_eq_ok hmake
  obtain ⟨cs, hchildren, hmake⟩ := exists_of_bind_eq_ok hmake
  cases hmake
  exact ⟨rfl, Range.eq_of_make? hselection, Range.eq_of_make? hrange, hchildren⟩

theorem ofOutline_eq_mapM (width : Nat → Nat) (o : Outline) :
    ofOutline width o = o.roots.mapM (Part.symbol width) := by
  rw [roots, List.mapM_append, List.mapM_map, List.mapM_map]
  rfl

variable {o : Outline} {ss : List Symbol}

/-- **Every symbol of an outline is that of a part.** -/
theorem exists_part (h : ofOutline width o = .ok ss) (hs : Among ss s) :
    ∃ x, o.HasPart x ∧ x.symbol width = .ok s := by
  rw [ofOutline_eq_mapM] at h
  induction hs with
  | root hs =>
    obtain ⟨x, hx, hsymbol⟩ := (mem_of_mapM h).1 _ hs
    exact ⟨x, .root hx, hsymbol⟩
  | child _ hc ih =>
    obtain ⟨x, hx, hsymbol⟩ := ih
    obtain ⟨y, hy, hsymbol'⟩ := (mem_of_mapM (shows_of_symbol hsymbol).children).1 _ hc
    exact ⟨y, .child hx hy, hsymbol'⟩

/-- **Every part of an outline has a symbol.** -/
theorem exists_symbol (h : ofOutline width o = .ok ss) {x : Part} (hx : o.HasPart x) :
    ∃ s, Among ss s ∧ x.symbol width = .ok s := by
  rw [ofOutline_eq_mapM] at h
  induction hx with
  | root hx =>
    obtain ⟨s, hs, hsymbol⟩ := (mem_of_mapM h).2 _ hx
    exact ⟨s, .root hs, hsymbol⟩
  | child _ hy ih =>
    obtain ⟨s, hs, hsymbol⟩ := ih
    obtain ⟨c, hc, hsymbol'⟩ := (mem_of_mapM (shows_of_symbol hsymbol).children).2 _ hy
    exact ⟨c, .child hs hc, hsymbol'⟩

theorem selection_inside_iff {x : Part} (h : x.symbol width = .ok s) :
    s.selection.Inside s.range ↔ x.line ≤ x.stop := by
  have hs := shows_of_symbol h
  rw [hs.selection, hs.range, Range.inside_ofLines_iff]
  simp

/-- **The ranges of a symbol's children lie in its own exactly when its part covers the parts in it.** -/
theorem inside_iff_encloses {x : Part} (h : x.symbol width = .ok s) :
    (∀ c ∈ s.children, c.range.Inside s.range) ↔ x.Encloses := by
  have hs := shows_of_symbol h
  obtain ⟨hback, hforth⟩ := mem_of_mapM hs.children
  have hchild : ∀ {c : Symbol} {y : Part}, y.symbol width = .ok c →
      (c.range.Inside s.range ↔ x.line ≤ y.line ∧ y.stop ≤ x.stop) := by
    intro c y hc
    rw [(shows_of_symbol hc).range, hs.range, Range.inside_ofLines_iff]
  constructor
  · intro hinside y hy
    obtain ⟨c, hc, hsymbol⟩ := hforth y hy
    exact (hchild hsymbol).mp (hinside c hc)
  · intro hencloses c hc
    obtain ⟨y, hy, hsymbol⟩ := hback c hc
    exact (hchild hsymbol).mpr (hencloses y hy)

end Symbol
end Sproto
