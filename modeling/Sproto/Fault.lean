import Sproto.Text.Quoted

/-! # Faults

Everything that can go wrong while a text is read or a request is served, as a cause; the wording
stands in `Fault.message` alone. -/
namespace Sproto

/-- One of the two coordinates of a position. -/
inductive Coordinate where
  | line
  | character
  deriving DecidableEq, Repr

/-- The causes of failure. -/
inductive Fault where
  /-- A number is spelled with more digits than are converted; `digits` of them. -/
  | numeralTooLong (digits : Nat)
  /-- A position's coordinate does not fit the protocol's range. -/
  | positionOutOfRange (coordinate : Coordinate) (value : Int)
  /-- The authority of a file URI has brackets that do not enclose its host. -/
  | malformedAuthority
  /-- The host of a file URI stands in brackets and is no address. -/
  | notAddress (host : Text)
  /-- The host of a file URI stands in brackets and is an address of version four. -/
  | bracketedFour
  /-- The host of a file URI stands in brackets and begins like an address of a later version, but
  is none. -/
  | malformedLaterAddress
  /-- The authority of a file URI hides a delimiter in an equivalent character. -/
  | disguisedAuthority (authority : Text)
  /-- The client's store of documents gives no text for a name, for a reason of its own. -/
  | unavailable (reason : String)
  /-- A list was given where a document's name is needed. -/
  | listAsName
  /-- A record was given where a document's name is needed. -/
  | recordAsName
  /-- A value that must be a text is not one; no reply quotes the wording. -/
  | notText
  deriving DecidableEq, Repr

namespace Fault

/-- The most digits that a number may be spelled with. -/
def maxDigits : Nat := 4300

/-- The greatest line and the greatest character of a position. -/
def maxCoordinate : Nat := 2147483647

/-- The name of a coordinate, as messages give it. -/
def coordinateName : Coordinate → String
  | .line => "line"
  | .character => "character"

/-- The wording of a fault. -/
def message : Fault → String
  | numeralTooLong digits =>
      "Exceeds the limit (" ++ toString maxDigits ++
        " digits) for integer string conversion: value has " ++ toString digits ++
        " digits; use sys.set_int_max_str_digits() to increase the limit"
  | positionOutOfRange coordinate value =>
      "Position." ++ coordinateName coordinate ++ " should be in range [0:" ++
        toString maxCoordinate ++ "], but was " ++ toString value ++ "."
  | malformedAuthority => "Invalid IPv6 URL"
  | notAddress host =>
      String.ofList (Text.quoted host) ++ " does not appear to be an IPv4 or IPv6 address"
  | bracketedFour => "An IPv4 address cannot be in brackets"
  | malformedLaterAddress => "IPvFuture address is invalid"
  | disguisedAuthority authority =>
      "netloc \x27" ++ String.ofList authority ++
        "\x27 contains invalid characters under NFKC normalization"
  | unavailable reason => reason
  | listAsName => "unhashable type: \x27list\x27"
  | recordAsName => "unhashable type: \x27dict\x27"
  | notText => "a text is needed"

end Fault
end Sproto
