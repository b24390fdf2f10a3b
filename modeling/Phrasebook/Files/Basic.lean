import Phrasebook.Files.Path
import Std.Data.TreeMap

/-!
# Phrasebook.Files.Basic

The files that a command can see, with the directories they are in.

A path is followed part by part from the working directory, or from the root if
it is absolute.  Every part but the last must lead to a directory; a slash at the
end asks the same of the last.  The working directory, all above it and the root
are directories, whatever files there are.
-/

namespace Phrasebook

/-- Why a file or directory is not read. -/
inductive FileFault where
  | notFound
  | notDirectory
  | isDirectory
  | notText
deriving DecidableEq, Repr

/-- The wording of a fault. -/
def FileFault.message : FileFault → String
  | .notFound => "No such file or directory (os error 2)"
  | .notDirectory => "Not a directory (os error 20)"
  | .isDirectory => "Is a directory (os error 21)"
  | .notText => "stream did not contain valid UTF-8"

/-- What a path leads to. -/
inductive FileEntry where
  | directory
  /-- A file that holds a text. -/
  | text (content : String)
  /-- A file whose bytes are no text. -/
  | binary
deriving DecidableEq, Repr

/-! ## locations -/

/-- A location in the tree of directories: the names on the way to it, the innermost
first, from the root or from the working directory. -/
structure Location where
  absolute : Bool
  names : List String
deriving DecidableEq, Repr

namespace Location

/-- The location where a path starts. -/
def start (path : String) : Location := ⟨Path.isAbsolute path, []⟩

/-- The directory around a location. -/
def up (p : Location) : Location :=
  match p.names with
  | [] => if p.absolute then p else { p with names := [".."] }
  | ".." :: rest => { p with names := ".." :: ".." :: rest }
  | _ :: rest => { p with names := rest }

/-- The location that a part of a path leads to. -/
def enter (p : Location) (part : String) : Location :=
  if part = "" ∨ part = "." then p
  else if part = ".." then p.up
  else { p with names := part :: p.names }

/-- The location that a path leads to, if all on the way are directories. -/
def ofPath (path : String) : Location := (Path.parts path).foldl enter (start path)

/-- The root, the working directory or a directory above it. -/
def isTop (p : Location) : Bool := p.names.all (· == "..")

/-- The shortest path to a location. -/
def key (p : Location) : String :=
  (if p.absolute then "/" else "") ++ "/".intercalate p.names.reverse

/-- The shortest path to a name in a directory. -/
def childKey (dir : Location) (name : String) : String := (dir.enter name).key

end Location

/-! ## files -/

/-- Files and directories by the shortest paths to them. -/
structure Files where
  entries : Std.TreeMap String FileEntry

namespace Files

/-- No files. -/
def empty : Files := ⟨∅⟩

/-- What is at a location. -/
def entry? (fs : Files) (p : Location) : Option FileEntry :=
  if p.isTop then some .directory else fs.entries[p.key]?

/-- Adds the directories that parts of a path lead to, one after the other, from a
location; what is there already stays. -/
def addDirectories (fs : Files) (p : Location) : List String → Files
  | [] => fs
  | part :: rest =>
    let p := p.enter part
    let fs := if (fs.entry? p).isSome then fs else ⟨fs.entries.insert p.key .directory⟩
    fs.addDirectories p rest

/-- Adds a file or directory, and the directories on the way to it: of `d/../en.json`
also `d`. -/
def insert (fs : Files) (path : String) (e : FileEntry) : Files :=
  let way (path : String) := fs.addDirectories (Location.start path) (Path.parts path)
  match e with
  | .directory => way path
  | e => ⟨(way (Path.parent path)).entries.insert (Location.ofPath path).key e⟩

/-- The given files and directories. -/
def ofList (entries : List (String × FileEntry)) : Files :=
  entries.foldl (fun fs e => fs.insert e.1 e.2) empty

/-- Follows parts of a path from a location. -/
def follow (fs : Files) (p : Location) : List String → Except FileFault Location
  | [] => .ok p
  | part :: rest =>
    match fs.entry? p with
    | none => .error .notFound
    | some .directory => fs.follow (p.enter part) rest
    | some _ => .error .notDirectory

/-- What a path leads to, and where that is. -/
def locate (fs : Files) (path : String) : Except FileFault (Location × FileEntry) :=
  if path = "" then .error .notFound
  else
    match fs.follow (Location.start path) (Path.parts path) with
    | .error e => .error e
    | .ok p =>
      match fs.entry? p with
      | none => .error .notFound
      | some e => .ok (p, e)

/-- The text of a file. -/
def read (fs : Files) (path : String) : Except FileFault String :=
  match fs.locate path with
  | .error e => .error e
  | .ok (_, .text content) => .ok content
  | .ok (_, .binary) => .error .notText
  | .ok (_, .directory) => .error .isDirectory

/-- Whether a path leads to a file. -/
def isFile (fs : Files) (path : String) : Bool :=
  match fs.locate path with
  | .ok (_, .directory) => false
  | .ok _ => true
  | .error _ => false

/-- The name in a directory to which a shortest path leads, if it leads directly into
the directory. -/
def nameIn? (dir : Location) (key : String) : Option String :=
  (Path.parts key).getLast?.filter fun name => name != "" && dir.childKey name == key

/-- The names in a directory, ascending. -/
def list (fs : Files) (path : String) : Except FileFault (List String) :=
  match fs.locate path with
  | .error e => .error e
  | .ok (p, .directory) =>
    .ok ((fs.entries.keys.filterMap (nameIn? p)).mergeSort fun a b => decide (a ≤ b))
  | .ok _ => .error .notDirectory

end Files

end Phrasebook
