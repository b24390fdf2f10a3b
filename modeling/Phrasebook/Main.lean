import Phrasebook.Command.Request

/-!
# Phrasebook.Main

The command line: reads the arguments, fetches the files that the request can
look at, runs it on them and writes what comes out.
-/

namespace Phrasebook.Command

/-- The text of a file, or what else is there. -/
def fetchFile (path : String) : IO FileEntry := do
  let bytes ← IO.FS.readBinFile path
  match String.fromUTF8? bytes with
  | some content => return .text content
  | none => return .binary

/-- Adds what is at paths that lead further and further, up to the first that leads to
a file or nowhere. -/
def fetchWay (fs : Files) : List String → IO Files
  | [] => return fs
  | path :: rest => do
    try
      let place ← IO.FS.realPath path
      if ← place.isDir then fetchWay (fs.insert path .directory) rest
      else return fs.insert path (← fetchFile path)
    catch _ => return fs

/-- The paths that lead to a path, the shortest first and the path itself last. -/
def waysTo (path : String) : List String :=
  let parts := Path.parts path
  ((List.range parts.length).map fun n => "/".intercalate (parts.take (n + 1))).filter (· != "")

/-- Adds what is on the way to a path, and the files at it if it is a directory. -/
def fetch (fs : Files) (path : String) : IO Files := do
  let mut fs ← fetchWay fs (waysTo path)
  try
    let place ← IO.FS.realPath path
    if ← place.isDir then
      for entry in ← place.readDir do
        unless ← entry.path.isDir do
          let inner := Path.join path entry.fileName
          fs := fs.insert inner (← fetchFile inner)
    return fs
  catch _ => return fs

/-- How the program is used. -/
def usage : String := unlines
  ["usage:",
   "  check FILE... [--strict FILE] [--json]",
   "  coverage --source FILE [--lang TAG,...] [--translations DIR] [--strict] [--json]",
   "  eval --locale TAG (--key KEY | --template TEXT) [--dir DIR] [--default-locale TAG]",
   "       [-p NAME=VALUE]... [--json]"]

/-- The wording of a usage error. -/
def UsageError.message : UsageError → String
  | .help => usage
  | .noCommand => usage
  | .unknownCommand => "error: unknown command\n" ++ usage
  | .unknownArgument => "error: unknown argument\n" ++ usage
  | .missingArgument => "error: an argument is missing\n" ++ usage
  | .conflict => "error: arguments exclude each other\n" ++ usage
  | .missingValue => "error: an argument has no value\n" ++ usage
  | .badValue => "error: a parameter is not of the form name=value\n" ++ usage
  | .unneededValue => "error: an argument takes no value\n" ++ usage

/-- Runs a request on the files of the system. -/
def perform (r : Request) : IO UInt32 := do
  let fs ← r.paths.foldlM fetch Files.empty
  match r.run fs with
  | .ok o =>
    IO.print o.out
    IO.eprint o.err
    return o.code
  | .error f =>
    IO.eprint (unlines (("error: " ++ f.message) :: (f.help.map fun h => "help: " ++ h).toList))
    return failureCode

end Phrasebook.Command

open Phrasebook.Command in
/-- Runs the program. -/
def main (arguments : List String) : IO UInt32 := do
  match Request.read arguments with
  | .ok r => perform r
  | .error .help =>
    IO.print UsageError.help.message
    return 0
  | .error e =>
    IO.eprint e.message
    return 2
