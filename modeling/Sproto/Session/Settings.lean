import Sproto.Json

/-! # Settings and command arguments

What clients send is read with care: a value of an unexpected form counts as absent. -/
namespace Sproto

namespace Settings

/-- Whether the settings leave validation on.  They may be given as a whole or as the section for
schemas alone; validation is on unless `validation.enabled` says otherwise. -/
def validationEnabled (settings : Json) : Bool :=
  match settings with
  | .obj entries => ofSection ((Json.lookup? "sproto" entries).getD settings)
  | _ => true
where
  /-- Whether the section for schemas leaves validation on. -/
  ofSection : Json → Bool
    | .obj entries => ofValidation ((Json.lookup? "validation" entries).getD (.obj []))
    | _ => true
  /-- Whether the part on validation leaves it on. -/
  ofValidation : Json → Bool
    | .obj entries => ((Json.lookup? "enabled" entries).getD (.bool true)).isTruthy
    | _ => true

end Settings

/-- The named parameters of a command: its first argument, or the first item of that, if it is a
record. -/
def namedArguments (args : List Json) : List (String × Json) :=
  match args with
  | .obj entries :: _ => entries
  | .arr (.obj entries :: _) :: _ => entries
  | _ => []

/-- The value of a parameter; null when it is not given. -/
def param (params : List (String × Json)) (key : String) : Json :=
  (Json.lookup? key params).getD .null

/-- The folders that a client has opened, in order, each with its URI; `none` when there is no
workspace at all. -/
abbrev Folders := Option (List (Option String))

/-- The root that a command works on: the first parameter that names one, else the first folder. -/
def chosenRoot (params : List (String × Json)) (folders : Folders) : Json :=
  match (["workspaceRoot", "rootUri", "rootPath"].map (param params)).find? Json.isTruthy with
  | some root => root
  | none =>
      match folders with
      | some (some uri :: _) => .str uri
      | _ => .null

end Sproto
