import Phrasebook.Command.Grammar

/-!
# Phrasebook.Command.Options

The commands and what can be asked of them.

* `check FILE… [--strict FILE] [--json]`
* `coverage --source FILE [--lang TAG,…] [--strict] [--json]`, with an option for the
  directory in which the targets are
* `eval --locale TAG (--key KEY | --template TEXT) [--dir DIR] [--default-locale TAG]
  [-p NAME=VALUE] [--json]`
-/

namespace Phrasebook.Command

/-- What is asked of `check`. -/
structure CheckOptions where
  files : List String
  /-- The source to compare the files with. -/
  strict : Option String
  json : Bool
deriving DecidableEq, Repr

/-- What is asked of `coverage`. -/
structure CoverageOptions where
  source : String
  tags : List String
  /-- The directory of the targets. -/
  targets : Option String
  strict : Bool
  json : Bool
deriving DecidableEq, Repr

/-- What `eval` evaluates. -/
inductive Subject where
  | key (key : String)
  | template (text : String)
deriving DecidableEq, Repr

/-- What is asked of `eval`. -/
structure EvalOptions where
  locale : String
  subject : Subject
  dir : Option String
  defaultLocale : String
  /-- Names and values in the order given. -/
  bindings : List (String × String)
  json : Bool
deriving DecidableEq, Repr

/-- What is asked for. -/
inductive Request where
  | check (options : CheckOptions)
  | coverage (options : CoverageOptions)
  | eval (options : EvalOptions)
deriving DecidableEq, Repr

/-! ## grammars -/

/-- The files to check. -/
def filesOperand : Parameter := ⟨"files", none, .many, .path, none⟩

/-- The parameters of `check`. -/
def checkGrammar : Grammar :=
  ⟨[.help, .flag "json", .single "strict" .path], some filesOperand⟩

/-- The parameters of `coverage`. -/
def coverageGrammar : Grammar :=
  ⟨[.help, .single "source" .path, ⟨"lang", none, .many, .anyText, some ','⟩,
    .single "translations" .path, .flag "strict", .flag "json"], none⟩

/-- The parameters of `eval`. -/
def evalGrammar : Grammar :=
  ⟨[.help, .single "locale" .anyText, .single "key" .anyText, .single "template" .anyText,
    .single "dir" .path, .single "default-locale" .anyText,
    ⟨"param", some 'p', .many, .binding, none⟩, .flag "json"], none⟩

/-- What can stand in front of a command. -/
def outerGrammar : Grammar := ⟨[.help], none⟩

/-! ## reading -/

/-- The value of a parameter that must be given. -/
def Given.required (given : Given) (name : String) : Except UsageError String :=
  match given.value? name with
  | some v => .ok v
  | none => .error .missingArgument

/-- A binding cut at its first equals sign. -/
def splitBinding (binding : String) : String × String :=
  let s := binding.toList
  (String.ofList (s.takeWhile (· ≠ '=')), String.ofList ((s.dropWhile (· ≠ '=')).drop 1))

/-- Reads the arguments of `check`. -/
def CheckOptions.read (arguments : List String) : Except UsageError CheckOptions := do
  let given ← checkGrammar.read arguments
  let files := given.values filesOperand.name
  if files.isEmpty then throw .missingArgument
  return ⟨files, given.value? "strict", given.has "json"⟩

/-- Reads the arguments of `coverage`. -/
def CoverageOptions.read (arguments : List String) : Except UsageError CoverageOptions := do
  let given ← coverageGrammar.read arguments
  let source ← given.required "source"
  return ⟨source, given.values "lang", given.value? "translations", given.has "strict",
    given.has "json"⟩

/-- The subject, if there is exactly one. -/
def Given.subject (given : Given) : Except UsageError Subject :=
  match given.value? "key", given.value? "template" with
  | some _, some _ => .error .conflict
  | some key, none => .ok (.key key)
  | none, some text => .ok (.template text)
  | none, none => .error .missingArgument

/-- Reads the arguments of `eval`. -/
def EvalOptions.read (arguments : List String) : Except UsageError EvalOptions := do
  let given ← evalGrammar.read arguments
  let subject ← given.subject
  let locale ← given.required "locale"
  return ⟨locale, subject, given.value? "dir", (given.value? "default-locale").getD "en",
    (given.values "param").map splitBinding, given.has "json"⟩

/-- The names that can stand for a command. -/
def commandNames : List String := ["check", "coverage", "eval", "help"]

/-- The outcome of asking for help on commands. -/
def helpOn (names : List String) : UsageError :=
  match names with
  | [] => .help
  | [name] => if name ∈ commandNames then .help else .unknownCommand
  | _ => .unknownCommand

/-- The outcome of arguments none of which can be a command. -/
def withoutCommand : List String → UsageError
  | [] => .noCommand
  | name :: _ => if name ∈ commandNames then .unknownArgument else .unknownCommand

/-- Reads the arguments of the program. -/
def Request.read : List String → Except UsageError Request
  | [] => .error .noCommand
  | "--" :: rest => .error (withoutCommand rest)
  | name :: rest =>
    match name with
    | "check" => (CheckOptions.read rest).map .check
    | "coverage" => (CoverageOptions.read rest).map .coverage
    | "eval" => (EvalOptions.read rest).map .eval
    | "help" => .error (helpOn rest)
    | name =>
      match name.toList with
      | '-' :: _ :: _ =>
        match outerGrammar.read [name] with
        | .error e => .error e
        | .ok _ => .error .noCommand
      | _ => .error .unknownCommand

end Phrasebook.Command
