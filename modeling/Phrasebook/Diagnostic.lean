import Phrasebook.Bundle

/-!
# Phrasebook.Diagnostic

Faults of bundle files, with the place in the text that they point at.

A place is a byte offset and a length: one byte, or none at the end of the text.
A JSON fault points at the line and column where reading stopped.  An invalid
template is looked for by the choice that is at fault, and if that is not found
by the last name of its key.  All other faults point at the start.
-/

namespace Phrasebook

/-- A fault of a bundle file. -/
structure Diagnostic where
  message : String
  help : Option String
  offset : Nat
  length : Nat
deriving DecidableEq, Repr

namespace Diagnostic

/-- The name of this kind of diagnostic. -/
def code : String := "weft::bundle"

/-- What is written at the place that a diagnostic points at. -/
def label : String := "here"

/-- A diagnostic that points at an offset of a text, or at its end beyond that. -/
def pointing (content : String) (offset : Nat) (message : String) (help : Option String) :
    Diagnostic :=
  let size := Text.byteLength content.toList
  ⟨message, help, min offset size, if offset < size then 1 else 0⟩

/-- The byte offset of a line and column, both counted from one.  Every line before
counts one byte for its end.

A place where reading stopped is counted in lines and bytes of a text in memory, so that line,
column and their sum stay in a machine word. -/
def lineColumnOffset (content : String) (line column : Nat) : Nat :=
  ((Text.lines content.toList).take (line - 1)).foldl (fun n l => n + Text.byteLength l + 1) 0 +
    (column - 1)

/-- The last name of a key. -/
def leaf (key : String) : String := ((Text.splitString '.' key).getLast?).getD key

/-- The diagnostic of an invalid template. -/
def ofTemplateError (content key : String) : Template.Error → Diagnostic
  | .missingOther source =>
    let offset :=
      match Text.find? source content with
      | some i => i
      | none => (Text.find? ("\"" ++ leaf key ++ "\"") content).getD 0
    .pointing content offset ("'" ++ key ++ "': " ++ (Template.Error.missingOther source).message)
      (some "every plural needs an `other\x7b...\x7d` branch")

/-- The diagnostic of a failed load. -/
def ofLoadError (content : String) : LoadError → Diagnostic
  | .json _ fault =>
    .pointing content (lineColumnOffset content fault.line fault.column)
      ("invalid JSON: " ++ fault.message) none
  | .invalidTemplate _ key e => ofTemplateError content key e
  | .notAnObject _ =>
    .pointing content 0 "expected a JSON object at the top level"
      (some "bundles map message keys to templates: \x7b \"key\": \"text\" \x7d")
  | .locale e =>
    .pointing content 0 e.message (some "name bundle files after their locale, e.g. en_US.json")
  | .io path reason => .pointing content 0 (LoadError.io path reason).message none
  | .emptyKey tag => .pointing content 0 (LoadError.emptyKey tag).message none
  | .idCollision tag first second =>
    .pointing content 0 (LoadError.idCollision tag first second).message none

/-- The diagnostics of the invalid templates of a bundle. -/
def ofEntries (content : String) (entries : Entries) : List Diagnostic :=
  entries.toList.filterMap fun e =>
    (Template.parse e.2).error?.map (ofTemplateError content e.1)

end Diagnostic

end Phrasebook
