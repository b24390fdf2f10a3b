import Phrasebook.Diagnostic
import Phrasebook.Files.Basic

/-!
# Phrasebook.Command.Outcome

What a command leaves behind: an exit code and its two texts, or the reason why
it gave up.
-/

namespace Phrasebook.Command

/-- What a finished command wrote, and its exit code. -/
structure Output where
  code : UInt32
  out : String
  err : String
deriving DecidableEq, Repr

/-- The exit code of a command that found nothing wrong. -/
def okCode : UInt32 := 0

/-- The exit code of a command that found something wrong with the data. -/
def dataCode : UInt32 := 65

/-- The exit code of a command that gave up. -/
def failureCode : UInt32 := 70

/-- Lines as a text. -/
def unlines (ls : List String) : String := String.join (ls.map fun l => l ++ "\n")

/-- A text in bold and a colour, given by its number. -/
def coloured (colour : String) (s : String) : String :=
  "\x1b[1m\x1b[" ++ colour ++ "m" ++ s ++ "\x1b[39m\x1b[0m"

/-- Why a command gives up. -/
inductive Failure where
  /-- The source to compare with is not read. -/
  | source (path : String) (error : LoadError)
  /-- A file is not read. -/
  | file (path : String) (fault : FileFault)
  /-- The file of a bundle is not read. -/
  | bundleFile (path : String) (error : LoadError)
  /-- A directory of bundles is not loaded. -/
  | directory (path : String) (error : LoadError)
  /-- A bundle is not loaded. -/
  | load (error : LoadError)
  /-- A bundle is not loaded, and its text shows where. -/
  | diagnosed (diagnostic : Diagnostic)
  | locale (error : Locale.Error)
  /-- A position is given twice. -/
  | repeatedPosition (position : Nat)
  /-- A position is not given although a later one is. -/
  | missingPosition (missing given : Nat)
deriving DecidableEq

namespace Failure

/-- A position as a reference. -/
def braced (position : Nat) : String := "\x7b" ++ Number.render position ++ "\x7d"

/-- The wording of a failure. -/
def message : Failure → String
  | .source path e => "cannot load source bundle " ++ path ++ ": " ++ e.message
  | .file path fault => "failed to read " ++ path ++ ": " ++ fault.message
  | .bundleFile path e => "failed to read " ++ path ++ ": " ++ e.message
  | .directory path e => "failed to load bundles from " ++ path ++ ": " ++ e.message
  | .load e => e.message
  | .diagnosed d => d.message
  | .locale e => e.message
  | .repeatedPosition i => "positional parameter " ++ braced i ++ " is given twice"
  | .missingPosition missing given =>
    "positional parameter " ++ braced missing ++ " is missing but " ++ braced given ++ " is given"

/-- What can be done about a failure. -/
def help : Failure → Option String
  | .diagnosed d => d.help
  | .missingPosition missing _ => some ("pass -p " ++ Number.render missing ++ "=<value>")
  | _ => none

/-- Where in a file a failure comes from. -/
def diagnostic? : Failure → Option Diagnostic
  | .diagnosed d => some d
  | _ => none

end Failure

end Phrasebook.Command
