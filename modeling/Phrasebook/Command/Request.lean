import Phrasebook.Command.Check
import Phrasebook.Command.Coverage
import Phrasebook.Command.Eval

/-!
# Phrasebook.Command.Request

Running what is asked for, and the paths that a run can look at.
-/

namespace Phrasebook.Command.Request

/-- Runs a request on the files it can see. -/
def run (r : Request) (fs : Files) : Except Failure Output :=
  match r with
  | .check o => o.run fs
  | .coverage o => o.run fs
  | .eval o => o.run fs

/-- The paths that a request names: it looks at nothing but these, the directories
around them and the files directly inside. -/
def paths : Request → List String
  | .check o => o.files ++ o.strict.toList
  | .coverage o => [o.source, o.directory]
  | .eval o => o.dir.toList

end Phrasebook.Command.Request
