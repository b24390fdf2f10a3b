import Phrasebook.Text.Split
import Phrasebook.Number.Digits

/-!
# Phrasebook.Json.Fault

Where and why reading JSON text stops.

A reader reports a `Stop`: the cause, the text it had not read, and whether it
had looked one character further.  Against the whole text a stop becomes a
`Fault`, the cause with its line and column: lines count from one, columns are
the bytes read since the last newline.
-/

namespace Phrasebook.Json

/-- Why JSON text is not accepted. -/
inductive Cause where
  | endOfValue
  | endOfObject
  | endOfList
  | endOfString
  | expectedValue
  | expectedIdent
  | expectedColon
  | expectedObjectEnd
  | expectedListEnd
  | nameNotString
  | trailingComma
  | trailingCharacters
  | invalidNumber
  | numberOutOfRange
  | invalidEscape
  | loneSurrogate
  | endOfHexEscape
  | controlCharacter
  | tooDeep
deriving DecidableEq, Repr

/-- The wording of a cause. -/
def Cause.message : Cause → String
  | .endOfValue => "EOF while parsing a value"
  | .endOfObject => "EOF while parsing an object"
  | .endOfList => "EOF while parsing a list"
  | .endOfString => "EOF while parsing a string"
  | .expectedValue => "expected value"
  | .expectedIdent => "expected ident"
  | .expectedColon => "expected `:`"
  | .expectedObjectEnd => "expected `,` or `\x7d`"
  | .expectedListEnd => "expected `,` or `]`"
  | .nameNotString => "key must be a string"
  | .trailingComma => "trailing comma"
  | .trailingCharacters => "trailing characters"
  | .invalidNumber => "invalid number"
  | .numberOutOfRange => "number out of range"
  | .invalidEscape => "invalid escape"
  | .loneSurrogate => "lone leading surrogate in hex escape"
  | .endOfHexEscape => "unexpected end of hex escape"
  | .controlCharacter => "control character (\\u0000-\\u001F) found while parsing a string"
  | .tooDeep => "recursion limit exceeded"

/-- A failed reading: the cause, the text not yet read, and how many bytes of it
were looked at. -/
structure Stop where
  cause : Cause
  rest : List Char
  ahead : Nat

/-- Stops in front of the rest. -/
def Stop.here (cause : Cause) (rest : List Char) : Stop := ⟨cause, rest, 0⟩

/-- Stops at the next character, or at the end if there is none. -/
def Stop.atNext (cause : Cause) (rest : List Char) : Stop :=
  ⟨cause, rest, if rest.isEmpty then 0 else 1⟩

/-- A cause with the line and column where reading stopped. -/
structure Fault where
  cause : Cause
  line : Nat
  column : Nat
deriving DecidableEq, Repr

/-- The line and column after the first `offset` bytes of a text, counted on from
a line and column. -/
def advance (line column offset : Nat) : List Char → Nat × Nat
  | [] => (line, column)
  | c :: s =>
    if offset = 0 then (line, column)
    else if c = '\n' then advance (line + 1) 0 (offset - 1) s
    else if offset < c.utf8Size then (line, column + offset)
    else advance line (column + c.utf8Size) (offset - c.utf8Size) s

/-- The fault of a stop in a text. -/
def Stop.fault (text : List Char) (s : Stop) : Fault :=
  let offset := Text.byteLength text - Text.byteLength s.rest + s.ahead
  let position := advance 1 0 offset text
  ⟨s.cause, position.1, position.2⟩

/-- The wording of a fault. -/
def Fault.message (f : Fault) : String :=
  f.cause.message ++ " at line " ++ Number.render f.line ++ " column " ++ Number.render f.column

end Phrasebook.Json
