import Phrasebook.Settings.Basic
import Phrasebook.Json.Reader
import Phrasebook.Text.Visible

/-!
# Phrasebook.Settings.Reader

Reading settings from JSON text.

Settings are an object with the fields in any order, or a list of the fields in
the order of the structure.  Only the default locale must be given; of an object
other members are skipped, and no field may come twice.  A policy is an object
with the members `kind` and `text` in any order, or a list of the two.  Its kind
is a string; in an object it may also be an object with the kind as the only name
and null as its value.

The text is read from front to back, and the first thing wrong is reported:
either the text is no JSON, or it is JSON of the wrong shape.  So a fault of the
shape is found although JSON behind it may be malformed.
-/

namespace Phrasebook.Settings

/-! ## faults -/

/-- Why JSON is of the wrong shape. -/
inductive DataFault where
  | missingField (name : String)
  | repeatedField (name : String)
  | tooShort (length : Nat) (expected : String)
  | mismatch (found expected : String)
  | unknownKind (kind : String) (kinds : List String)
  | locale (error : Locale.Error)
deriving DecidableEq, Repr

/-- The wording of a fault. -/
def DataFault.message : DataFault → String
  | .missingField name => "missing field `" ++ name ++ "`"
  | .repeatedField name => "duplicate field `" ++ name ++ "`"
  | .tooShort length expected =>
    "invalid length " ++ Number.render length ++ ", expected " ++ expected
  | .mismatch found expected => "invalid type: " ++ found ++ ", expected " ++ expected
  | .unknownKind kind kinds =>
    "unknown variant `" ++ kind ++ "`, expected one of " ++
      ", ".intercalate (kinds.map fun k => "`" ++ k ++ "`")
  | .locale error => error.message

/-- Why a text is not read. -/
inductive Error where
  /-- It is JSON of the wrong shape. -/
  | data (fault : DataFault)
  /-- It is no JSON. -/
  | malformed (fault : Json.Fault)
deriving DecidableEq, Repr

/-- The wording of an error. -/
def Error.message : Error → String
  | .data fault => fault.message
  | .malformed fault => fault.message

/-- Where reading stops. -/
inductive Halt where
  | data (fault : DataFault)
  | malformed (stop : Json.Stop)

/-- A result with the text after it. -/
abbrev Read (α : Type) := Except Halt (α × List Char)

/-- A step of the JSON reader as a step of this one. -/
def step {α : Type} (r : Except Json.Stop α) : Except Halt α := r.mapError .malformed

/-! ## values -/

/-- How a value of the wrong type is named. -/
def described : Json → String
  | .null => "null"
  | .bool true => "boolean `true`"
  | .bool false => "boolean `false`"
  | .integer n => "integer `" ++ Number.renderInt n ++ "`"
  | .float x => "floating point `" ++ Json.floatText x ++ "`"
  | .string s => "string " ++ Text.quoted s
  | .array _ => "sequence"
  | .object _ => "map"

/-- The fault of a value that is not what is expected. -/
def wrongType (v : Json) (expected : String) : DataFault := .mismatch (described v) expected

/-- Stops at a value that is not what is expected.  Of a list or an object only the
bracket is read, any other value must be well formed. -/
def halt (expected : String) (s : List Char) : Halt :=
  let found (r : Json.Read Json) : Halt :=
    match r with
    | .ok (v, _) => .data (wrongType v expected)
    | .error e => .malformed e
  match Json.skipSpace s with
  | '[' :: _ => .data (wrongType (.array []) expected)
  | '{' :: _ => .data (wrongType (.object []) expected)
  | s => found (Json.readValue 1 Json.maxDepth s)

/-- Reads a string. -/
def readText (expected : String) (s : List Char) : Read String :=
  match Json.skipSpace s with
  | '"' :: s => step (Json.readString true [] s)
  | s => .error (halt expected s)

/-- Reads null. -/
def readNull (expected : String) (s : List Char) : Except Halt (List Char) :=
  match Json.skipSpace s with
  | 'n' :: s => step (Json.readIdent ['u', 'l', 'l'] s)
  | s => .error (halt expected s)

/-- Reads a locale. -/
def readLocale (s : List Char) : Read Locale :=
  match readText "a string" s with
  | .error e => .error e
  | .ok (tag, s) =>
    match Locale.parse tag with
    | .ok l => .ok (l, s)
    | .error e => .error (.data (.locale e))

/-- Reads a locale or null. -/
def readLocale? (s : List Char) : Read (Option Locale) :=
  match Json.skipSpace s with
  | 'n' :: s => (step (Json.readIdent ['u', 'l', 'l'] s)).map fun s => (none, s)
  | s => (readLocale s).map fun r => (some r.1, r.2)

/-- Reads the end of a list all of whose items were read. -/
def readListEnd (s : List Char) : Except Halt (List Char) :=
  match Json.skipSpace s with
  | [] => .error (.malformed (.atNext .endOfList []))
  | ']' :: s => .ok s
  | ',' :: s =>
    match Json.skipSpace s with
    | ']' :: s => .error (.malformed (.atNext .trailingComma (']' :: s)))
    | s => .error (.malformed (.atNext .trailingCharacters s))
  | s => .error (.malformed (.atNext .trailingCharacters s))

/-! ## policies -/

/-- What a kind of policy goes with. -/
inductive Kind (α : Type) where
  /-- No text; `title` names the kind in messages. -/
  | plain (title : String) (policy : α)
  /-- A text. -/
  | worded (policy : String → α)

/-- How a policy is written: its name in messages and its kinds. -/
structure Form (α : Type) where
  title : String
  kinds : List (String × Kind α)

/-- The form of the policy for a missing key. -/
def keyForm : Form MissingKeyPolicy :=
  { title := "MissingKeyPolicy"
    kinds :=
      [("return_key", .plain "ReturnKey" .returnKey), ("marker", .worded .marker),
       ("error", .plain "Error" .error)] }

/-- The form of the policy for a missing argument. -/
def argumentForm : Form MissingArgumentPolicy :=
  { title := "MissingPlaceholderPolicy"
    kinds :=
      [("leave_delimiters", .plain "LeaveDelimiters" .leave), ("marker", .worded .marker),
       ("error", .plain "Error" .error)] }

/-- A member of a policy. -/
inductive PolicyField where
  | kind
  | text
deriving DecidableEq

/-- The name of a member. -/
def PolicyField.name : PolicyField → String
  | .kind => "kind"
  | .text => "text"

section Policy

variable {α : Type}

/-- What is expected where a policy is. -/
def Form.expected (f : Form α) : String := "adjacently tagged enum " ++ f.title

/-- What is expected beside a kind without text. -/
def Form.expectedNull (f : Form α) (title : String) : String :=
  "unit variant " ++ f.title ++ "::" ++ title

/-- The kind of a name. -/
def Form.kind (f : Form α) (name : String) : Except Halt (Kind α) :=
  match f.kinds.lookup name with
  | some k => .ok k
  | none => .error (.data (.unknownKind name (f.kinds.map Prod.fst)))

/-- Reads the kind of a policy written as an object. -/
def readKind (f : Form α) (s : List Char) : Except Halt (Kind α × List Char) :=
  match Json.skipSpace s with
  | [] => .error (.malformed (.atNext .endOfValue []))
  | '"' :: s => do
    let (name, s) ← step (Json.readString true [] s)
    return (← f.kind name, s)
  | '{' :: s =>
    match Json.skipSpace s with
    | [] => .error (.malformed (.atNext .endOfObject []))
    | '}' :: s => .error (.malformed (.atNext .expectedValue ('}' :: s)))
    | '"' :: s => do
      let (name, s) ← step (Json.readString true [] s)
      let kind ← f.kind name
      let s ← step (Json.readColon s)
      let s ← readNull "unit" s
      match Json.skipSpace s with
      | '}' :: s => .ok (kind, s)
      | [] => .error (.malformed (.here .endOfObject []))
      | s => .error (.malformed (.here .expectedValue s))
    | s => .error (.malformed (.atNext .nameNotString s))
  | s => .error (.malformed (.atNext .expectedValue s))

/-- Reads the text that goes with a kind, or null for a kind without text. -/
def readWording (f : Form α) (s : List Char) : Kind α → Read α
  | .plain title policy => (readNull (f.expectedNull title) s).map fun s => (policy, s)
  | .worded policy => (readText "a string" s).map fun r => (policy r.1, r.2)

/-- The policy of a kind and the value that stood before it. -/
def wordedBy (f : Form α) (v : Json) : Kind α → Except Halt α
  | .plain title policy =>
    match v with
    | .null => .ok policy
    | v => .error (.data (wrongType v (f.expectedNull title)))
  | .worded policy =>
    match v with
    | .string s => .ok (policy s)
    | v => .error (.data (wrongType v "a string"))

/-- The policy of a kind with no text beside it. -/
def wordless : Kind α → Except Halt α
  | .plain _ policy => .ok policy
  | .worded _ => .error (.data (.missingField PolicyField.text.name))

/-- Reads up to the next of the two members of a policy, or the end of the object. -/
def readPolicyField (fuel : Nat) (first : Bool) (s : List Char) : Read (Option PolicyField) :=
  match fuel with
  | 0 => .error (.malformed (.here .endOfObject s))
  | fuel + 1 =>
    match Json.readName first s with
    | .error e => .error (.malformed e)
    | .ok (none, s) => .ok (none, s)
    | .ok (some name, s) =>
      if name = PolicyField.kind.name then .ok (some .kind, s)
      else if name = PolicyField.text.name then .ok (some .text, s)
      else
        match (Json.readColon s).bind (Json.skipValue (Json.fuelFor s)) with
        | .error e => .error (.malformed e)
        | .ok s => readPolicyField fuel false s

/-- Reads the end of the object of a policy, whose members must not come again. -/
def readPolicyEnd (s : List Char) : Except Halt (List Char) := do
  match ← readPolicyField (Json.fuelFor s) false s with
  | (none, s) => return s
  | (some field, _) => .error (.data (.repeatedField field.name))

/-- Reads a policy after the brace of its object. -/
def readPolicyMembers (f : Form α) (depth : Nat) (s : List Char) :
    Except Halt (α × List Char) := do
  match ← readPolicyField (Json.fuelFor s) true s with
  | (none, _) => .error (.data (.missingField PolicyField.kind.name))
  | (some .kind, s) =>
    let (kind, s) ← readKind f (← step (Json.readColon s))
    match ← readPolicyField (Json.fuelFor s) false s with
    | (none, s) => return (← wordless kind, s)
    | (some .kind, _) => .error (.data (.repeatedField PolicyField.kind.name))
    | (some .text, s) =>
      let (policy, s) ← readWording f (← step (Json.readColon s)) kind
      return (policy, ← readPolicyEnd s)
  | (some .text, s) =>
    let s ← step (Json.readColon s)
    let (v, s) ← step (Json.readValue (Json.fuelFor s) depth s)
    match ← readPolicyField (Json.fuelFor s) false s with
    | (none, _) => .error (.data (.missingField PolicyField.kind.name))
    | (some .text, _) => .error (.data (.repeatedField PolicyField.text.name))
    | (some .kind, s) =>
      let (kind, s) ← readKind f (← step (Json.readColon s))
      let policy ← wordedBy f v kind
      return (policy, ← readPolicyEnd s)

/-- Reads a policy after the bracket of its list. -/
def readPolicyItems (f : Form α) (s : List Char) : Except Halt (α × List Char) := do
  match ← step (Json.readComma true s) with
  | (false, _) => .error (.data (.tooShort 0 f.expected))
  | (true, s) =>
    let (name, s) ← readText "variant identifier" s
    let kind ← f.kind name
    match ← step (Json.readComma false s) with
    | (false, _) => .error (.data (.tooShort 1 f.expected))
    | (true, s) =>
      let (policy, s) ← readWording f s kind
      return (policy, ← readListEnd s)

/-- Reads a policy; `depth` is the number of levels left. -/
def readPolicy (f : Form α) (depth : Nat) (s : List Char) : Read α :=
  match Json.skipSpace s with
  | '{' :: s => readPolicyMembers f (depth - 1) s
  | '[' :: s => readPolicyItems f s
  | s => .error (halt f.expected s)

end Policy

/-! ## settings -/

/-- A field of the settings. -/
inductive Field where
  | defaultLocale
  | locale
  | missingKey
  | missingArgument
deriving DecidableEq

namespace Field

/-- The fields in order. -/
def all : List Field := [.defaultLocale, .locale, .missingKey, .missingArgument]

/-- The name of a field. -/
def name : Field → String
  | .defaultLocale => "default_locale"
  | .locale => "locale"
  | .missingKey => "missing_key_policy"
  | .missingArgument => "missing_placeholder_policy"

/-- The field of a name. -/
def ofName? (s : String) : Option Field := all.find? fun f => f.name == s

end Field

/-- The fields read so far. -/
structure Draft where
  defaultLocale : Option Locale
  locale : Option (Option Locale)
  missingKey : Option MissingKeyPolicy
  missingArgument : Option MissingArgumentPolicy

namespace Draft

/-- No fields. -/
def empty : Draft := ⟨none, none, none, none⟩

/-- Whether a field was read. -/
def has (p : Draft) : Field → Bool
  | .defaultLocale => p.defaultLocale.isSome
  | .locale => p.locale.isSome
  | .missingKey => p.missingKey.isSome
  | .missingArgument => p.missingArgument.isSome

/-- Reads the value of a field. -/
def readField (p : Draft) (s : List Char) : Field → Read Draft
  | .defaultLocale => (readLocale s).map fun r => ({ p with defaultLocale := some r.1 }, r.2)
  | .locale => (readLocale? s).map fun r => ({ p with locale := some r.1 }, r.2)
  | .missingKey =>
    (readPolicy keyForm (Json.maxDepth - 1) s).map fun r =>
      ({ p with missingKey := some r.1 }, r.2)
  | .missingArgument =>
    (readPolicy argumentForm (Json.maxDepth - 1) s).map fun r =>
      ({ p with missingArgument := some r.1 }, r.2)

/-- The settings with the fields read, the default locale among them. -/
def complete (p : Draft) (ifMissing : DataFault) : Except Halt Settings :=
  match p.defaultLocale with
  | none => .error (.data ifMissing)
  | some l =>
    .ok ⟨l, p.locale.getD none, p.missingKey.getD .returnKey, p.missingArgument.getD .leave⟩

/-- Reads the members of the object of settings. -/
def readMembers (fuel : Nat) (first : Bool) (p : Draft) (s : List Char) : Read Draft :=
  match fuel with
  | 0 => .error (.malformed (.here .endOfObject s))
  | fuel + 1 =>
    match Json.readName first s with
    | .error e => .error (.malformed e)
    | .ok (none, s) => .ok (p, s)
    | .ok (some name, s) =>
      match Field.ofName? name with
      | none =>
        match (Json.readColon s).bind (Json.skipValue (Json.fuelFor s)) with
        | .error e => .error (.malformed e)
        | .ok s => readMembers fuel false p s
      | some f =>
        if p.has f then .error (.data (.repeatedField f.name))
        else
          match Json.readColon s with
          | .error e => .error (.malformed e)
          | .ok s =>
            match p.readField s f with
            | .error e => .error e
            | .ok (p, s) => readMembers fuel false p s

/-- Reads the items of the list of settings, of which the last may be missing. -/
def readItems (first : Bool) (p : Draft) (s : List Char) : List Field → Read Draft
  | [] => (readListEnd s).map fun s => (p, s)
  | f :: fs =>
    match Json.readComma first s with
    | .error e => .error (.malformed e)
    | .ok (false, s) => .ok (p, s)
    | .ok (true, s) =>
      match p.readField s f with
      | .error e => .error e
      | .ok (p, s) => readItems false p s fs

end Draft

/-- What is expected where settings are. -/
def expected : String := "struct EngineConfig"

/-- Reads settings. -/
def readSettings (s : List Char) : Except Halt (Settings × List Char) :=
  match Json.skipSpace s with
  | '{' :: s => do
    let (p, s) ← Draft.empty.readMembers (Json.fuelFor s) true s
    return (← p.complete (.missingField Field.defaultLocale.name), s)
  | '[' :: s => do
    let (p, s) ← Draft.empty.readItems true s Field.all
    return (← p.complete (.tooShort 0 (expected ++ " with 4 elements")), s)
  | s => .error (halt expected s)

/-- The settings of a JSON document. -/
def read (text : String) : Except Error Settings :=
  let s := text.toList
  let result : Except Halt Settings := do
    let (settings, rest) ← readSettings s
    step (Json.readEnd rest)
    return settings
  result.mapError fun
    | .data fault => .data fault
    | .malformed stop => .malformed (stop.fault s)

end Phrasebook.Settings
