import Phrasebook.Command.Options
import Phrasebook.Command.Outcome
import Phrasebook.Engine.Loading
import Phrasebook.Engine.Resolution
import Phrasebook.Files.Bundle

/-!
# Phrasebook.Command.Check

Checking bundle files.

A file passes if its name is a locale, its content a JSON object, and every
template in it valid.  With a source to compare with, it must also have the keys
of the source, and its templates the arguments; a file of the locale of the
source, and a file that cannot be loaded, are not compared.
-/

namespace Phrasebook.Command

/-- What was found in a file. -/
structure FileReport where
  file : String
  errors : List Diagnostic
  warnings : List Finding
deriving DecidableEq

namespace FileReport

/-- Nothing was found. -/
def isClean (r : FileReport) : Bool := r.errors.isEmpty && r.warnings.isEmpty

/-- A report as a JSON value. -/
def toJson (r : FileReport) : Json :=
  .object
    [("file", .string r.file), ("errors", .array (r.errors.map fun d => .string d.message)),
     ("warnings", .array (r.warnings.map fun w => .string w.message))]

/-- The line about a file in which nothing was found. -/
def okLine (r : FileReport) : String := coloured "32" "ok" ++ " " ++ r.file

/-- The line about a warning. -/
def warningLine (r : FileReport) (w : Finding) : String :=
  coloured "33" "warning:" ++ " " ++ r.file ++ ": " ++ w.message

/-- The lines about an error, indented. -/
def errorLines (r : FileReport) (d : Diagnostic) : List String :=
  let lines := (Text.lines (r.file ++ ": " ++ d.message).toList).map String.ofList
  (lines ++ (d.help.map fun h => "help: " ++ h).toList).map fun l => "  " ++ l

/-- The lines about all that was found in a file. -/
def lines (r : FileReport) : List String :=
  r.errors.flatMap r.errorLines ++ r.warnings.map r.warningLine

end FileReport

/-- The errors in a file. -/
def checkFile (fs : Files) (path : String) : Except Failure (List Diagnostic) :=
  match fs.read path with
  | .error fault => .error (.file path fault)
  | .ok content =>
    match BundleSource.ofFile fs path with
    | .error e => .ok [.ofLoadError content e]
    | .ok b => .ok (Diagnostic.ofEntries content b.entries)

/-- What is to be said about a file beside the source. -/
def compareFile (fs : Files) (source : BundleSource) (path : String) :
    Except Failure (List Finding) :=
  match BundleSource.ofFile fs path with
  | .error _ => .ok []
  | .ok target =>
    match (Engine.new (.ofDefault source.locale)).load source.locale source.entries.toList
        .replaceAll with
    | (.error e, _) => .error (.load e)
    | (.ok _, engine) =>
      if target.locale = source.locale then .ok []
      else
        match engine.load target.locale target.entries.toList .replaceAll with
        | (.error _, _) => .ok []
        | (.ok _, engine) => .ok (engine.compare source.locale target.locale)

/-- Checks a file, and compares it with the source if there is one. -/
def reportOn (fs : Files) (source : Option BundleSource) (path : String) :
    Except Failure FileReport := do
  let errors ← checkFile fs path
  let warnings ←
    match source with
    | some s => compareFile fs s path
    | none => .ok []
  return ⟨path, errors, warnings⟩

namespace CheckOptions

/-- The source to compare with. -/
def readSource (o : CheckOptions) (fs : Files) : Except Failure (Option BundleSource) :=
  match o.strict with
  | none => .ok none
  | some path =>
    match BundleSource.ofFile fs path with
    | .ok b => .ok (some b)
    | .error e => .error (.source path e)

/-- What was found in all files. -/
def reports (o : CheckOptions) (fs : Files) : Except Failure (List FileReport) := do
  let source ← o.readSource fs
  o.files.mapM (reportOn fs source)

/-- Whether the reports make the check fail: by an error, or under comparison by a
warning. -/
def fails (o : CheckOptions) (rs : List FileReport) : Bool :=
  rs.any fun r => !r.errors.isEmpty || (o.strict.isSome && !r.warnings.isEmpty)

/-- Runs the check. -/
def run (o : CheckOptions) (fs : Files) : Except Failure Output := do
  let rs ← o.reports fs
  let code := if o.fails rs then dataCode else okCode
  if o.json then return ⟨code, unlines [(Json.array (rs.map FileReport.toJson)).pretty], ""⟩
  else
    return ⟨code, unlines ((rs.filter FileReport.isClean).map FileReport.okLine),
      unlines (rs.flatMap FileReport.lines)⟩

end CheckOptions

end Phrasebook.Command
