import Phrasebook.Command.Options
import Phrasebook.Command.Outcome
import Phrasebook.Engine.Loading
import Phrasebook.Engine.Resolution
import Phrasebook.Files.Bundle
import Phrasebook.Number.DoubleText

/-!
# Phrasebook.Command.Eval

Evaluating a message or a template on the command line.

A binding whose name is a number gives the argument of that position, any other
one by name.  Positions are given once each and without gaps, in any order; of
two values for one name the later counts.  A value is an integer if it can be
read as one, else a float if it has a point and can be read as one, else a text.
-/

namespace Phrasebook.Command

/-! ## bindings -/

/-- The value that a text on the command line stands for. -/
def valueOf (raw : String) : Value :=
  match Number.readInt64? raw.toList with
  | some n => .integer n
  | none =>
    if raw.toList.contains '.' then
      match Number.Double.read? raw.toList with
      | some x => .float x
      | none => .text raw
    else .text raw

/-- Bindings sorted out: the arguments by position, and the others by name. -/
structure Sorted where
  positional : Std.TreeMap Nat Value
  named : Arguments

/-- Sorts bindings out. -/
def Sorted.addAll (s : Sorted) : List (String × String) → Except Failure Sorted
  | [] => .ok s
  | (name, raw) :: rest =>
    match Number.readUInt64? name.toList with
    | some i =>
      if s.positional.contains i.toNat then .error (.repeatedPosition i.toNat)
      else addAll { s with positional := s.positional.insert i.toNat (valueOf raw) } rest
    | none => addAll { s with named := s.named.insert name (valueOf raw) } rest

/-- The values at the positions from `expected` on, which must follow each other. -/
def consecutive (expected : Nat) : List (Nat × Value) → Except Failure (List Value)
  | [] => .ok []
  | (i, v) :: rest =>
    if i = expected then (consecutive (expected + 1) rest).map (v :: ·)
    else .error (.missingPosition expected i)

/-- The arguments that bindings give. -/
def argumentsOf (bindings : List (String × String)) : Except Failure Arguments :=
  match Sorted.addAll ⟨∅, .empty⟩ bindings with
  | .error e => .error e
  | .ok s => (consecutive 0 s.positional.toList).map fun vs => { s.named with positional := vs }

/-! ## output -/

/-- A segment of a message as a JSON value. -/
def segmentJson : Segment Value → Json
  | .text s => .object [("text", .string s)]
  | .value v directive =>
    .object
      [("value", .string v.display), ("directive", (directive.map Json.string).getD .null)]

/-- A message as a JSON value. -/
def messageJson (m : Message) : Json :=
  .object [("result", .string m.display), ("segments", .array (m.segments.map segmentJson))]

/-- The output for a message, as a text or as JSON. -/
def messageOutput (json : Bool) (m : Message) : Output :=
  ⟨okCode, unlines [if json then (messageJson m).pretty else m.display], ""⟩

/-- The output for an error, as a text or as JSON. -/
def errorOutput (json : Bool) (e : ResolveError) : Output :=
  let text :=
    if json then (Json.object [("error", .string e.message)]).pretty
    else "Evaluation error: " ++ e.message
  ⟨dataCode, "", unlines [text]⟩

/-! ## evaluating -/

namespace EvalOptions

/-- The locale of a tag. -/
def localeOf (tag : String) : Except Failure Locale := (Locale.parse tag).mapError .locale

/-- The engine with the bundles of the directory, if one is named. -/
def load (o : EvalOptions) (fs : Files) (e : Engine) : Except Failure Engine :=
  match o.dir with
  | none => .ok e
  | some dir =>
    match e.loadFrom (BundleSource.ofDirectory fs dir) .replaceAll with
    | (.ok _, e) => .ok e
    | (.error err, _) => .error (.directory dir err)

/-- Resolves the key or evaluates the template. -/
def resolve (o : EvalOptions) (e : Engine) (l : Locale) (args : Arguments) :
    Except ResolveError Message :=
  match o.subject with
  | .key key => (e.resolve key l args).1
  | .template text => e.evaluateText text l args

/-- Runs the evaluation. -/
def run (o : EvalOptions) (fs : Files) : Except Failure Output := do
  let l ← localeOf o.locale
  let default ← localeOf o.defaultLocale
  let engine ← o.load fs (.new ⟨default, some l, .error, .leave⟩)
  let args ← argumentsOf o.bindings
  match o.resolve engine l args with
  | .ok m => return messageOutput o.json m
  | .error e => return errorOutput o.json e

end EvalOptions

end Phrasebook.Command
