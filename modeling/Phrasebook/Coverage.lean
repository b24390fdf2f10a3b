import Phrasebook.Files.Bundle
import Phrasebook.Text.Split

/-!
# Phrasebook.Coverage

How much of a source is translated.

Of the keys of the source some are translated and the others missing; keys of the
target that the source does not have are extra.  The report is a table with
a line for each locale and columns as wide as their widest cell.
-/

namespace Phrasebook

/-- What a locale translates of a source. -/
structure Coverage where
  locale : String
  translated : Nat
  missing : List String
  extra : List String
deriving DecidableEq, Repr

namespace Coverage

/-- The coverage of a target. -/
def measure (l : Locale) (source target : Entries) : Coverage :=
  { locale := l.tag
    translated := source.keys.countP fun key => target.contains key
    missing := source.keys.filter fun key => !target.contains key
    extra := target.keys.filter fun key => !source.contains key }

/-- The coverage of a locale without a bundle. -/
def absent (l : Locale) (source : Entries) : Coverage := ⟨l.tag, 0, source.keys, []⟩

/-! ## where targets are -/

/-- The file names that may hold the bundle of a locale, given as a tag. -/
def fileNames (tag : String) (l : Locale) : List String :=
  [tag, l.tag, Text.replaceChar '-' '_' l.tag].map fun stem => stem ++ ".json"

/-- The file that holds the bundle of a locale in a directory. -/
def findBundle? (fs : Files) (dir tag : String) (l : Locale) : Option String :=
  ((fileNames tag l).map (Path.join dir)).find? fs.isFile

/-! ## the table -/

/-- The heads of the columns. -/
def heads : List String := ["Locale", "Coverage", "Missing", "Extra"]

/-- The cells of a line, against the number of keys in the source. -/
def cells (total : Nat) (c : Coverage) : List String :=
  [c.locale, Number.render c.translated ++ "/" ++ Number.render total,
   Number.render c.missing.length, Number.render c.extra.length]

/-- The widths of the columns of some lines. -/
def widths (lines : List (List String)) : List Nat :=
  lines.foldl (fun ws line => ws.zipWith max (line.map String.length)) (heads.map fun _ => 0)

/-- A text with blanks up to a width. -/
def padded (width : Nat) (s : String) : String :=
  s ++ String.ofList (List.replicate (width - s.length) ' ')

/-- A line of cells inside the borders. -/
def tableLine (ws : List Nat) (line : List String) : String :=
  "│" ++ " ".intercalate (ws.zipWith (fun w s => " " ++ padded w s ++ " ") line) ++ "│"

/-- A line of the border. -/
def borderLine (ws : List Nat) (left fill right : Char) : String :=
  let inner := ws.foldl (fun n w => n + w + 2) 0 + (ws.length - 1)
  String.ofList (left :: (List.replicate inner fill ++ [right]))

/-- The table of some coverages, in lines. -/
def table (total : Nat) (cs : List Coverage) : List String :=
  let lines := cs.map (cells total)
  let ws := widths (heads :: lines)
  [borderLine ws '┌' '─' '┐', tableLine ws heads, borderLine ws '╞' '═' '╡'] ++
    lines.map (tableLine ws) ++ [borderLine ws '└' '─' '┘']

/-- The missing keys, in lines. -/
def missingLines (c : Coverage) : List String :=
  if c.missing.isEmpty then []
  else ["", "Missing in " ++ c.locale ++ ":"] ++ c.missing.map fun key => "  - " ++ key

/-- The report on some coverages, in lines. -/
def report (total : Nat) (cs : List Coverage) : List String :=
  table total cs ++ cs.flatMap missingLines

/-- A coverage as a JSON value. -/
def toJson (total : Nat) (c : Coverage) : Json :=
  .object
    [("locale", .string c.locale), ("translated", .integer c.translated), ("total", .integer total),
     ("missing", .array (c.missing.map .string)), ("extra", .array (c.extra.map .string))]

end Coverage

end Phrasebook
