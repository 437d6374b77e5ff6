import Sproto.Layout.Section

/-! # Formatting

The canonical layout of a document: its sections, laid out, with a banner in front when no banner of
the document announces a number range.  The range of that banner is the hundred in which the first
numbered protocol lies. -/
namespace Sproto

open Text

/-- The range that a banner in front announces: the hundred of the first numbered protocol. -/
def frontRange (ts : List Token) : Text :=
  match ts.findSome? protocolNumber? with
  | some n => decimal (n / 100 * 100) ++ '-' :: decimal (n / 100 * 100 + 99)
  | none => "2500-2599".toList
where
  /-- The number of a numbered protocol declaration. -/
  protocolNumber? (t : Token) : Option Nat :=
    match t.shape with
    | .protocol _ (some number) _ => some number.value
    | _ => none

/-- The banner in front of a document that has none with a range. -/
def frontBanner (s : Style) (ts : List Token) : Section :=
  .banner (s.banner ("Protocol Module ".toList ++ frontRange ts))

/-- Whether some banner announces a range.  The banners are looked at in order up to the first that
does, and a bound among them that cannot be converted is a fault. -/
def hasRange : List Token → Except Fault Bool
  | [] => .ok false
  | t :: ts =>
      if t.shape = .banner then
        match Banner.rangeValue? t.text with
        | .error f => .error f
        | .ok (some _) => .ok true
        | .ok none => hasRange ts
      else hasRange ts

namespace Style

/-- The sections of the formatted document. -/
def sections (s : Style) (ts : List Token) (ranged : Bool) : List Section :=
  if ranged then Section.ofTokens ts else frontBanner s ts :: Section.ofTokens ts

/-- Formats a document. -/
def format (s : Style) (source : Text) : Except Fault Text := do
  let ts ← Token.ofLines? ((lines source).map trimRight)
  let ranged ← hasRange ts
  return unlines (Section.layOut s (s.sections ts ranged))

end Style

/-- Formats a document in the standard style. -/
def format (source : Text) : Except Fault Text := ({} : Style).format source

end Sproto
