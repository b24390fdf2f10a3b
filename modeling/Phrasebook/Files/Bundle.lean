import Phrasebook.Files.Basic
import Phrasebook.Bundle
import Phrasebook.Json.Reader

/-!
# Phrasebook.Files.Bundle

Bundles in files.

The name of a file, without extension, names the locale; the content is a JSON
object.  Nested objects flatten to keys with dots between the names, the members
in ascending order of their names, and of two values for one key the later stays.
Lists become texts of several lines and null the empty text; numbers, truth values
and the objects in lists keep their JSON text.

A directory is loaded by its files with the extension `json`, in ascending order;
those whose names are no locales are passed over.
-/

namespace Phrasebook

/-! ## from JSON to templates -/

namespace Json

mutual

/-- The template that a value stands for. -/
def entryText : Json → String
  | .null => ""
  | .string s => s
  | .array items => "\n".intercalate (entryTexts items)
  | v => v.compact

/-- The templates that the items of a list stand for. -/
def entryTexts : List Json → List String
  | [] => []
  | v :: vs => v.entryText :: entryTexts vs

end

/-- The key of a name in an object that has a key itself. -/
def keyUnder (outer name : String) : String := if outer = "" then name else outer ++ "." ++ name

mutual

/-- Entries with those of an object's members. -/
def flattenMembers (outer : String) (entries : Entries) : List (String × Json) → Entries
  | [] => entries
  | (name, v) :: rest => flattenMembers outer (v.flatten (keyUnder outer name) entries) rest

/-- Entries with those of a value that has a key. -/
def flatten (key : String) (entries : Entries) : Json → Entries
  | .object members => flattenMembers key entries members
  | v => entries.insert key v.entryText

end

/-- The entries of an object's members. -/
def entriesOf (members : List (String × Json)) : Entries := flattenMembers "" ∅ members

end Json

/-! ## from text to bundles -/

namespace BundleSource

/-- The bundle of a JSON text; the path is for messages. -/
def decode (l : Locale) (path text : String) : Except LoadError BundleSource :=
  match Json.parse text with
  | .error fault => .error (.json path fault)
  | .ok (.object members) => .ok ⟨l, Json.entriesOf members⟩
  | .ok _ => .error (.notAnObject path)

/-- The bundle of a locale tag and a JSON text. -/
def parse (tag text : String) : Except LoadError BundleSource :=
  match Locale.parse tag with
  | .error e => .error (.locale e)
  | .ok l => decode l ("<" ++ tag ++ ">") text

/-- The bundle in a file. -/
def ofFile (fs : Files) (path : String) : Except LoadError BundleSource :=
  match Locale.parse (Path.stem path) with
  | .error e => .error (.locale e)
  | .ok l =>
    match fs.read path with
    | .error e => .error (.io path e.message)
    | .ok text => decode l path text

/-- The bundles in files; those without a locale are passed over. -/
def ofFiles (fs : Files) : List String → Except LoadError (List BundleSource)
  | [] => .ok []
  | path :: rest =>
    match ofFile fs path with
    | .ok b => (ofFiles fs rest).map (b :: ·)
    | .error (.locale _) => ofFiles fs rest
    | .error e => .error e

/-- The paths of the bundles in a directory. -/
def pathsIn (fs : Files) (dir : String) : Except LoadError (List String) :=
  match fs.list dir with
  | .error e => .error (.io dir e.message)
  | .ok names =>
    .ok ((names.map (Path.join dir)).filter fun path =>
      fs.isFile path && Path.extension? path == some "json")

/-- The bundles in a directory. -/
def ofDirectory (fs : Files) (dir : String) : Except LoadError (List BundleSource) :=
  (pathsIn fs dir).bind (ofFiles fs)

end BundleSource

end Phrasebook
