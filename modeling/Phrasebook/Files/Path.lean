import Phrasebook.Text.Split

/-!
# Phrasebook.Files.Path

Paths as texts.

A path is a text whose parts stand between slashes.  Empty parts and single dots
mean nothing, but for a dot at the very front; they are passed over wherever a
part is looked for.  The extension of a file name begins after its last dot,
unless that dot is its first character.
-/

namespace Phrasebook.Path

/-- The parts between the slashes of a path. -/
def parts (path : String) : List String := Text.splitString '/' path

/-- Whether a path starts at the root. -/
def isAbsolute (path : String) : Bool := path.toList.head? == some '/'

/-- A name inside a directory. -/
def join (dir name : String) : String :=
  if isAbsolute name || dir = "" then name
  else if dir.toList.getLast? = some '/' then dir ++ name
  else dir ++ "/" ++ name

/-- Parts, last first, without those at the end that mean nothing. -/
def dropIdle : List String → List String
  | [] => []
  | [part] => [part]
  | part :: rest => if part = "" ∨ part = "." then dropIdle rest else part :: rest

/-- The last part that means something, unless it leads upwards. -/
def fileName? (path : String) : Option String :=
  match dropIdle (parts path).reverse with
  | [] => none
  | name :: _ => if name = "" ∨ name = "." ∨ name = ".." then none else some name

/-- The path without its last part. -/
def parent (path : String) : String :=
  match dropIdle (dropIdle (parts path).reverse).tail with
  | [""] => "/"
  | rest => "/".intercalate rest.reverse

/-- A file name before and after its last dot. -/
def splitName (name : String) : String × Option String :=
  let s := name.toList.reverse
  let after := s.takeWhile (· ≠ '.')
  match s.dropWhile (· ≠ '.') with
  | [] => (name, none)
  | [_] => (name, none)
  | _ :: before => (String.ofList before.reverse, some (String.ofList after.reverse))

/-- The file name of a path without its extension; empty if there is no file name. -/
def stem (path : String) : String := ((fileName? path).map fun n => (splitName n).1).getD ""

/-- The extension of the file name of a path. -/
def extension? (path : String) : Option String := (fileName? path).bind fun n => (splitName n).2

example : join "d/" "en.json" = "d/en.json" := by decide +kernel
example : join "" "en.json" = "en.json" := by decide +kernel
example : stem "a/./en.US.json/" = "en.US" := by decide +kernel
example : stem "d/.json" = ".json" := by decide +kernel
example : extension? "d/.json" = none := by decide +kernel
example : ["en.json", "d//en.json", "./en.json", "/en.json", "d/./en.json"].map parent =
    ["", "d", ".", "/", "d"] := by decide +kernel

end Phrasebook.Path
