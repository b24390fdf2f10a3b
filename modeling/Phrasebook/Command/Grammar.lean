import Std.Data.TreeMap
import Phrasebook.Text.Split

/-!
# Phrasebook.Command.Grammar

Reading the arguments of a command.

An argument that starts with two hyphens names an option by its long name, with
a value after an equals sign or, for an option that takes one, as the next
argument.  One hyphen and a letter name an option by its short name; the value
follows directly, after an equals sign or as the next argument, and options
without value can share the hyphen.  Two hyphens alone end the options.  All
other arguments are operands.

A value that looks like an option is none unless it is attached.  An option is
finished, and its value checked, only when the next begins or an operand or the
end comes; so an unknown argument is reported before a bad value ahead of it.
-/

namespace Phrasebook.Command

/-- Why arguments are refused. -/
inductive UsageError where
  /-- Help was asked for. -/
  | help
  | noCommand
  | unknownCommand
  | unknownArgument
  | missingArgument
  /-- Arguments that exclude each other, or an option given twice. -/
  | conflict
  | missingValue
  | badValue
  /-- A value for an option that takes none. -/
  | unneededValue
deriving DecidableEq, Repr

/-- What an option does. -/
inductive Action where
  | help
  /-- It is given or not. -/
  | flag
  /-- It has one value. -/
  | single
  /-- It has a value each time it is given. -/
  | many
deriving DecidableEq, Repr

/-- What a value must be. -/
inductive Check where
  | anyText
  /-- A path is not empty. -/
  | path
  /-- A binding has a name and a value with an equals sign between them. -/
  | binding
deriving DecidableEq, Repr

/-- The error of a value. -/
def Check.error? (c : Check) (value : String) : Option UsageError :=
  match c with
  | .anyText => none
  | .path => if value = "" then some .missingValue else none
  | .binding => if value.toList.contains '=' then none else some .badValue

/-- An option or the operands of a command. -/
structure Parameter where
  name : String
  short : Option Char
  action : Action
  check : Check
  /-- The character between the values of one argument. -/
  separator : Option Char
deriving DecidableEq, Repr

namespace Parameter

/-- The option that asks for help. -/
def help : Parameter := ⟨"help", some 'h', .help, .anyText, none⟩

/-- An option without value. -/
def flag (name : String) : Parameter := ⟨name, none, .flag, .anyText, none⟩

/-- An option with one value. -/
def single (name : String) (check : Check) : Parameter := ⟨name, none, .single, check, none⟩

/-- Whether an option takes a value. -/
def takesValue (p : Parameter) : Bool :=
  match p.action with
  | .single => true
  | .many => true
  | .flag => false
  | .help => false

/-- The values in an argument. -/
def values (p : Parameter) (argument : String) : List String :=
  match p.separator with
  | some c => Text.splitString c argument
  | none => [argument]

end Parameter

/-- The parameters of a command. -/
structure Grammar where
  options : List Parameter
  operands : Option Parameter

namespace Grammar

/-- The option of a long name. -/
def long? (g : Grammar) (name : String) : Option Parameter :=
  g.options.find? fun p => p.name == name

/-- The option of a short name. -/
def short? (g : Grammar) (c : Char) : Option Parameter := g.options.find? fun p => p.short == some c

end Grammar

/-- The parameters given, by name, with their values in order. -/
abbrev Given := Std.TreeMap String (List String)

/-- The arguments read so far: what was finished, the parameter begun with its
arguments, and whether the next argument is its value. -/
structure Reading where
  given : Given
  begun : Option (Parameter × List String)
  awaiting : Bool

namespace Reading

/-- Nothing read. -/
def empty : Reading := ⟨∅, none, false⟩

/-- The first error among values. -/
def checkValues (c : Check) (values : List String) : Except UsageError Unit :=
  match values.findSome? c.error? with
  | some e => .error e
  | none => .ok ()

/-- Records a parameter with its arguments. -/
def record (given : Given) (p : Parameter) (arguments : List String) : Except UsageError Given := do
  match p.action with
  | .help => throw .help
  | .flag => if given.contains p.name then throw .conflict
  | .single =>
    if arguments.isEmpty then throw .missingValue
    if given.contains p.name then throw .conflict
  | .many => if arguments.isEmpty then throw .missingValue
  let values := arguments.flatMap p.values
  checkValues p.check values
  return given.insert p.name (given.getD p.name [] ++ values)

/-- Finishes the parameter begun. -/
def finish (r : Reading) : Except UsageError Reading :=
  match r.begun with
  | none => .ok { r with awaiting := false }
  | some (p, arguments) => (record r.given p arguments).map fun given => ⟨given, none, false⟩

/-- Reads an option with the value attached to it, if there is one. -/
def option (r : Reading) (p : Parameter) (attached : Option String) :
    Except UsageError Reading := do
  let r ← r.finish
  match attached with
  | some v => return { r with given := ← record r.given p [v] }
  | none =>
    if p.takesValue then return ⟨r.given, some (p, []), true⟩
    else return { r with given := ← record r.given p [] }

/-- Reads an argument of a long name; the hyphens are gone. -/
def longOption (g : Grammar) (r : Reading) (argument : List Char) : Except UsageError Reading :=
  let name := argument.takeWhile (· ≠ '=')
  let attached :=
    match argument.dropWhile (· ≠ '=') with
    | [] => none
    | _ :: v => some (String.ofList v)
  match g.long? (String.ofList name) with
  | none => .error .unknownArgument
  | some p =>
    if attached.isSome && !p.takesValue then .error .unneededValue else r.option p attached

/-- Reads an argument of short names; the hyphen is gone. -/
def shortOptions (g : Grammar) (r : Reading) : List Char → Except UsageError Reading
  | [] => .ok r
  | c :: rest =>
    match g.short? c with
    | none => .error .unknownArgument
    | some p =>
      if p.takesValue then
        match rest with
        | [] => r.option p none
        | '=' :: v => r.option p (some (String.ofList v))
        | v => r.option p (some (String.ofList v))
      else
        match r.option p none with
        | .error e => .error e
        | .ok r => shortOptions g r rest

/-- Reads an operand. -/
def operand (g : Grammar) (r : Reading) (argument : String) : Except UsageError Reading :=
  match g.operands with
  | none => .error .unknownArgument
  | some p =>
    match r.begun with
    | some (q, arguments) =>
      if q = p then .ok ⟨r.given, some (p, arguments ++ [argument]), false⟩
      else r.finish.map fun r => ⟨r.given, some (p, [argument]), false⟩
    | none => .ok ⟨r.given, some (p, [argument]), false⟩

/-- Reads an argument that is neither an option nor behind the end of the options. -/
def plain (g : Grammar) (r : Reading) (argument : String) : Except UsageError Reading :=
  match r.awaiting, r.begun with
  | true, some (p, arguments) => .ok ⟨r.given, some (p, arguments ++ [argument]), false⟩
  | _, _ => r.operand g argument

/-- Reads an argument in front of the end of the options. -/
def argument (g : Grammar) (r : Reading) (a : String) : Except UsageError Reading :=
  match a.toList with
  | '-' :: '-' :: name => r.longOption g name
  | '-' :: c :: names => r.shortOptions g (c :: names)
  | _ => r.plain g a

/-- Reads arguments; `operandsOnly` tells that the options have ended. -/
def arguments (g : Grammar) (operandsOnly : Bool) (r : Reading) :
    List String → Except UsageError Reading
  | [] => r.finish
  | a :: rest =>
    if operandsOnly then
      match r.operand g a with
      | .error e => .error e
      | .ok r => arguments g true r rest
    else if a = "--" then arguments g true r rest
    else
      match r.argument g a with
      | .error e => .error e
      | .ok r => arguments g false r rest

end Reading

/-- The parameters that arguments give. -/
def Grammar.read (g : Grammar) (arguments : List String) : Except UsageError Given :=
  (Reading.arguments g false .empty arguments).map Reading.given

namespace Given

/-- Whether a parameter is given. -/
def has (given : Given) (name : String) : Bool := Std.TreeMap.contains given name

/-- The values of a parameter. -/
def values (given : Given) (name : String) : List String := Std.TreeMap.getD given name []

/-- The value of a parameter that has one. -/
def value? (given : Given) (name : String) : Option String := (given.values name).head?

end Given

end Phrasebook.Command
