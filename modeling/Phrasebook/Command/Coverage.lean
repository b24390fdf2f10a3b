import Phrasebook.Command.Options
import Phrasebook.Command.Outcome
import Phrasebook.Coverage

/-!
# Phrasebook.Command.Coverage

Reporting how much of a source the given locales translate.  The targets
are looked for in a directory of their own, or beside the source.
-/

namespace Phrasebook.Command

/-- The bundle in a file; where that fails, the text of the file shows the place. -/
def readBundle (fs : Files) (path : String) : Except Failure BundleSource :=
  match BundleSource.ofFile fs path with
  | .ok b => .ok b
  | .error (.io p reason) => .error (.bundleFile path (.io p reason))
  | .error e =>
    match fs.read path with
    | .ok content => .error (.diagnosed (.ofLoadError content e))
    | .error _ => .error (.load e)

namespace CoverageOptions

/-- The directory of the targets. -/
def directory (o : CoverageOptions) : String := o.targets.getD (Path.parent o.source)

/-- What a locale translates of the source. -/
def coverageOf (o : CoverageOptions) (fs : Files) (source : Entries) (tag : String) :
    Except Failure Coverage :=
  match Locale.parse tag with
  | .error e => .error (.locale e)
  | .ok l =>
    match Coverage.findBundle? fs o.directory tag l with
    | none => .ok (.absent l source)
    | some path => (readBundle fs path).map fun b => .measure l source b.entries

/-- The number of keys in the source, and what the locales translate of it. -/
def coverages (o : CoverageOptions) (fs : Files) : Except Failure (Nat × List Coverage) := do
  let source ← readBundle fs o.source
  let cs ← o.tags.mapM (o.coverageOf fs source.entries)
  return (source.entries.size, cs)

/-- Runs the report. -/
def run (o : CoverageOptions) (fs : Files) : Except Failure Output := do
  let (total, cs) ← o.coverages fs
  let incomplete := cs.any fun c => !c.missing.isEmpty
  let code := if o.strict && incomplete then dataCode else okCode
  if o.json then return ⟨code, unlines [(Json.array (cs.map (Coverage.toJson total))).pretty], ""⟩
  else return ⟨code, unlines (Coverage.report total cs), ""⟩

end CoverageOptions

end Phrasebook.Command
