import Sproto.Disk.Path
import Sproto.Uri.Authority

/-! # File URIs

An absolute path is written as a URI with percent escapes, and a URI is read back as a path.  Reading
takes more than writing produces: an authority before the path names a network share, a query and a
fragment are ignored, tabs and line ends are dropped, and the slash before a drive letter goes.  A URI
whose authority is malformed is refused. -/
namespace Sproto

open Text

namespace FileUri

/-- What a file URI begins with. -/
def scheme : Text := "file://".toList

/-- The URI of an absolute path. -/
def ofPath? (p : Path) : Option Text :=
  if p.isAbsolute then some (scheme ++ Percent.encode p.toText) else none

/-- Whether a character is dropped from a URI wherever it stands. -/
def isDropped (c : Char) : Bool := c == '\t' || c == '\n' || c == '\r'

/-- Whether a character ends the authority. -/
def endsAuthority (c : Char) : Bool := c == '/' || c == '?' || c == '#'

/-- A path without the slash before a drive letter. -/
def dropDriveSlash : Text → Text
  | '/' :: c :: ':' :: t => c :: ':' :: t
  | t => t

/-- The path of a URI, once what it begins with is taken off. -/
def path? (afterScheme : Text) : Except Fault Path :=
  let t := afterScheme.filter (!isDropped ·)
  let authority := t.takeWhile (!endsAuthority ·)
  match Authority.fault? authority with
  | some f => .error f
  | none =>
    let path := ((t.dropWhile (!endsAuthority ·)).takeWhile (· != '#')).takeWhile (· != '?')
    let decoded := Percent.decode path
    .ok (Path.ofText (dropDriveSlash
      (if authority = [] then decoded else '/' :: '/' :: authority ++ decoded)))

/-- The path that a text names: the path of a file URI, or the text itself as a path. -/
def pathOfText (t : Text) : Except Fault Path :=
  match scheme.isPrefixOf? t with
  | some r => path? r
  | none => .ok (Path.ofText t)

end FileUri
end Sproto
