import Sproto.Uri.Address

/-! # Authorities

The authority of a URI names a host, with a user before it and a port after it.  Brackets are for
addresses that have colons of their own: they must enclose the whole host, and the host must then be an
address of version six or later.  An authority without brackets is hardly looked at, except that it may
not hide a delimiter of the URI in a character that is equivalent to it. -/
namespace Sproto.Authority

open Text

/-- What follows the last `c` of a text: the whole text if there is none. -/
def afterLast (c : Char) (t : Text) : Text := (t.reverse.takeWhile (· != c)).reverse

/-- Whether what follows a bracketed host is nothing or a port. -/
def isPort : Text → Bool
  | [] => true
  | c :: _ => c == ':'

/-- The host of an authority that has brackets.  They count only behind the user; there they open the
host, and at most a port follows them. -/
def host? (authority : Text) : Except Fault Text :=
  let place := afterLast '@' authority
  if !place.contains '[' then .ok (place.takeWhile (· != ':'))
  else
    match place with
    | '[' :: rest =>
        if isPort ((rest.dropWhile (· != ']')).drop 1) then .ok (rest.takeWhile (· != ']'))
        else .error .malformedAuthority
    | _ => .error .malformedAuthority

/-- The fault of a host that stands in brackets. -/
def hostFault? (host : Text) : Option Fault :=
  match host with
  | 'v' :: rest => if Address.isLater rest then none else some .malformedLaterAddress
  | host =>
      if Address.isFour host then some .bracketedFour
      else if Address.isSix host then none
      else some (.notAddress host)

/-- The fault of the brackets of an authority. -/
def bracketFault? (authority : Text) : Option Fault :=
  match authority.contains '[', authority.contains ']' with
  | false, false => none
  | true, true =>
      match host? authority with
      | .error f => some f
      | .ok host => hostFault? host
  | _, _ => some .malformedAuthority

/-- The code points beyond ASCII whose compatibility form has one of the delimiters `/`, `?`, `#`, `@`
and `:` in it. -/
def disguises : List Nat :=
  [0x2047, 0x2048, 0x2049, 0x2100, 0x2101, 0x2105, 0x2106, 0x2A74, 0xFE13, 0xFE16, 0xFE55, 0xFE56,
   0xFE5F, 0xFE6B, 0xFF03, 0xFF0F, 0xFF1A, 0xFF1F, 0xFF20]

/-- Whether an authority hides a delimiter. -/
def isDisguised (authority : Text) : Bool := authority.any fun c => disguises.contains c.toNat

/-- The fault of an authority; its brackets are looked at first. -/
def fault? (authority : Text) : Option Fault :=
  (bracketFault? authority).or
    (if isDisguised authority then some (.disguisedAuthority authority) else none)

@[simp] theorem fault?_nil : fault? [] = none := rfl

end Sproto.Authority
