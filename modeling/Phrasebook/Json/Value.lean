import Phrasebook.Number.DoubleText

/-!
# Phrasebook.Json.Value

JSON values and how they are written.

* An object holds its members in ascending order of their names, each name once;
  `insertMember` keeps that form, and a later member replaces an earlier one.
* Numbers written without point and exponent stay integers if they fit 64 bits;
  all others are binary64 and shown with the shortest digits that read back.
* `compact` has no blanks; `pretty` indents by two spaces and keeps the members
  in the order given, which is how reports are printed.
-/

namespace Phrasebook

/-- A JSON value. -/
inductive Json where
  | null
  | bool (b : Bool)
  | integer (n : Int)
  | float (x : Number.Double)
  | string (s : String)
  | array (items : List Json)
  | object (members : List (String × Json))

namespace Json

/-- Members with one more, in ascending order of names; an old member of the
same name is replaced. -/
def insertMember (name : String) (value : Json) : List (String × Json) → List (String × Json)
  | [] => [(name, value)]
  | (n, v) :: rest =>
    if name < n then (name, value) :: (n, v) :: rest
    else if name = n then (name, value) :: rest
    else (n, v) :: insertMember name value rest

/-! ## scalars -/

/-- A hexadecimal digit in lower case. -/
def hexDigit (n : Nat) : Char := if n < 10 then Number.digitChar n else Char.ofNat (87 + n)

/-- A character inside a string literal. -/
def escapeChar (c : Char) : List Char :=
  match c with
  | '"' => ['\\', '"']
  | '\\' => ['\\', '\\']
  | '\n' => ['\\', 'n']
  | '\r' => ['\\', 'r']
  | '\t' => ['\\', 't']
  | '\x08' => ['\\', 'b']
  | '\x0c' => ['\\', 'f']
  | c =>
    if c.toNat < 32 then
      ['\\', 'u', '0', '0', hexDigit (c.toNat / 16), hexDigit (c.toNat % 16)]
    else [c]

/-- A string literal. -/
def quote (s : String) : String :=
  String.ofList ('"' :: (s.toList.flatMap escapeChar ++ ['"']))

/-- The text of a finite number that is no integer literal: positional from
`1e-5` to below `1e16` and with a fraction at least `.0`, otherwise one digit,
the others after the point, and a signed exponent. -/
def floatText (x : Number.Double) : String :=
  let d := Number.shortest .toEven x
  let ds := Number.digits d.coefficient
  let top : Int := d.exponent + ds.length - 1
  let body :=
    if -5 ≤ top ∧ top < 16 then
      Number.positional d ++ if 0 ≤ d.exponent then ['.', '0'] else []
    else
      ds.take 1 ++ (if ds.length = 1 then [] else '.' :: ds.drop 1) ++
        ['e', if top < 0 then '-' else '+'] ++ Number.digits top.natAbs
  (if x.isNegative then "-" else "") ++ String.ofList body

/-! ## documents -/

mutual

/-- A value on one line, without blanks. -/
def compact : Json → String
  | .null => "null"
  | .bool true => "true"
  | .bool false => "false"
  | .integer n => Number.renderInt n
  | .float x => floatText x
  | .string s => quote s
  | .array items => "[" ++ compactItems items ++ "]"
  | .object members => "\x7b" ++ compactMembers members ++ "\x7d"

/-- The items of an array, separated by commas. -/
def compactItems : List Json → String
  | [] => ""
  | [v] => v.compact
  | v :: vs => v.compact ++ "," ++ compactItems vs

/-- The members of an object, separated by commas. -/
def compactMembers : List (String × Json) → String
  | [] => ""
  | [(n, v)] => quote n ++ ":" ++ v.compact
  | (n, v) :: ms => quote n ++ ":" ++ v.compact ++ "," ++ compactMembers ms

end

/-- A line break and the indentation of a nesting level. -/
def newline (level : Nat) : String := "\n" ++ String.ofList (List.replicate (2 * level) ' ')

mutual

/-- A value over several lines, its inner lines indented to `level + 1`. -/
def prettyAt (level : Nat) : Json → String
  | .array [] => "[]"
  | .object [] => "\x7b\x7d"
  | .array (v :: vs) =>
    "[" ++ prettyItems (level + 1) (v :: vs) ++ newline level ++ "]"
  | .object (m :: ms) =>
    "\x7b" ++ prettyMembers (level + 1) (m :: ms) ++ newline level ++ "\x7d"
  | .null => "null"
  | .bool true => "true"
  | .bool false => "false"
  | .integer n => Number.renderInt n
  | .float x => floatText x
  | .string s => quote s

/-- The items of an array, each on a line of its own. -/
def prettyItems (level : Nat) : List Json → String
  | [] => ""
  | [v] => newline level ++ prettyAt level v
  | v :: vs => newline level ++ prettyAt level v ++ "," ++ prettyItems level vs

/-- The members of an object, each on a line of its own. -/
def prettyMembers (level : Nat) : List (String × Json) → String
  | [] => ""
  | [(n, v)] => newline level ++ quote n ++ ": " ++ prettyAt level v
  | (n, v) :: ms =>
    newline level ++ quote n ++ ": " ++ prettyAt level v ++ "," ++ prettyMembers level ms

end

/-- A value over several lines, indented by two spaces a level. -/
def pretty (v : Json) : String := prettyAt 0 v

example : (object [("a", array [integer 1, null]), ("b", string "x\n")]).compact =
    "\x7b\"a\":[1,null],\"b\":\"x\\n\"\x7d" := by decide +kernel
example : floatText (Number.Double.ofRatio false 1 100000) = "0.00001" := by decide +kernel
example : floatText (Number.Double.ofRatio false 1 1000000) = "1e-6" := by decide +kernel
example : floatText (Number.Double.ofNat (Number.pow10 17)) = "1e+17" := by decide +kernel
example : floatText (Number.Double.ofRatio true 0 1) = "-0.0" := by decide +kernel

end Json

end Phrasebook
