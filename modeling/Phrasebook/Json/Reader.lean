import Phrasebook.Json.Value
import Phrasebook.Json.Fault

/-!
# Phrasebook.Json.Reader

Reading JSON text.

The grammar is the standard one: four blanks, no comments, no trailing commas,
literals in lower case, surrogate escapes in pairs.  Arrays and objects nest at
most 127 deep.  Where text is not accepted the reader says why and where
(`Phrasebook.Json.Fault`).

Integers keep their value if they fit 64 bits, signed or unsigned.  For any other
number the digits that fit 64 bits unsigned are taken, converted to binary64,
and multiplied or divided once by a power of ten; `-0` is a float, and a number
beyond the finite ones is refused.

Values whose content does not matter are skipped (`skipValue`): there any nesting,
any size of number and any surrogate is accepted.
-/

namespace Phrasebook.Json

open Phrasebook.Number (Double digitValue pow2 pow10)

/-- A result with the text after it. -/
abbrev Read (α : Type) := Except Stop (α × List Char)

/-- The levels of nesting, counting one for the value outside all brackets. -/
def maxDepth : Nat := 128

/-- A blank between tokens. -/
def isSpace (c : Char) : Bool := c = ' ' || c = '\n' || c = '\t' || c = '\r'

/-- What is left after blanks. -/
def skipSpace (s : List Char) : List Char := s.dropWhile isSpace

/-- Reads the remaining letters of a literal name. -/
def readIdent : List Char → List Char → Except Stop (List Char)
  | [], s => .ok s
  | _ :: _, [] => .error (.here .endOfValue [])
  | e :: es, c :: s => if c = e then readIdent es s else .error ⟨.expectedIdent, c :: s, 1⟩

/-! ## strings -/

/-- The character that a one-letter escape stands for. -/
def simpleEscape? : Char → Option Char
  | '"' => some '"'
  | '\\' => some '\\'
  | '/' => some '/'
  | 'b' => some '\x08'
  | 'f' => some '\x0c'
  | 'n' => some '\n'
  | 'r' => some '\r'
  | 't' => some '\t'
  | _ => none

/-- The value of a hexadecimal digit. -/
def hexValue? (c : Char) : Option Nat :=
  if c.isDigit then some (digitValue c)
  else if 'a' ≤ c ∧ c ≤ 'f' then some (c.toNat - 87)
  else if 'A' ≤ c ∧ c ≤ 'F' then some (c.toNat - 55)
  else none

/-- The value of four hexadecimal digits. -/
def hexValue4? (a b c d : Char) : Option Nat := do
  let a ← hexValue? a
  let b ← hexValue? b
  let c ← hexValue? c
  let d ← hexValue? d
  return 4096 * a + 256 * b + 16 * c + d

/-- A hexadecimal escape that lacks digits: four bytes are looked at if there are
so many. -/
def shortEscape (s : List Char) : Stop :=
  if Text.byteLength s < 4 then .here .endOfString [] else ⟨.invalidEscape, s, 4⟩

/-- Reads a string after its opening quote; `done` holds what was read so far,
newest character first.  A `checked` string must pair its surrogates, any other
string leaves out its hexadecimal escapes.  At a control character a `checked`
string stops behind it, any other before it. -/
def readString (checked : Bool) (done : List Char) : List Char → Read String
  | [] => .error (.here .endOfString [])
  | '"' :: s => .ok (String.ofList done.reverse, s)
  | '\\' :: [] => .error (.here .endOfString [])
  | '\\' :: 'u' :: a :: b :: c :: d :: s =>
    match hexValue4? a b c d with
    | none => .error ⟨.invalidEscape, a :: b :: c :: d :: s, 4⟩
    | some n =>
      if !checked then readString checked done s
      else if 0xDC00 ≤ n ∧ n ≤ 0xDFFF then .error (.here .loneSurrogate s)
      else if n < 0xD800 ∨ 0xDBFF < n then readString checked (Char.ofNat n :: done) s
      else
        match s with
        | [] => .error (.here .endOfString [])
        | '\\' :: [] => .error (.here .endOfString [])
        | '\\' :: 'u' :: e :: f :: g :: h :: t =>
          match hexValue4? e f g h with
          | none => .error ⟨.invalidEscape, e :: f :: g :: h :: t, 4⟩
          | some m =>
            if m < 0xDC00 ∨ 0xDFFF < m then .error (.here .loneSurrogate t)
            else
              let scalar := 0x10000 + 1024 * (n - 0xD800) + (m - 0xDC00)
              readString checked (Char.ofNat scalar :: done) t
        | '\\' :: 'u' :: t => .error (shortEscape t)
        | '\\' :: t => .error ⟨.endOfHexEscape, t, 1⟩
        | s => .error ⟨.endOfHexEscape, s, 1⟩
  | '\\' :: 'u' :: s => .error (shortEscape s)
  | '\\' :: c :: s =>
    match simpleEscape? c with
    | some d => readString checked (d :: done) s
    | none => .error ⟨.invalidEscape, c :: s, 1⟩
  | c :: s =>
    if c.toNat < 32 then .error ⟨.controlCharacter, c :: s, if checked then 1 else 0⟩
    else readString checked (c :: done) s

/-! ## numbers -/

/-- Appends digits to a number as long as it stays below `2 ^ 64`, and tells how
many digits were taken. -/
def takeDigits (n taken : Nat) : List Char → Nat × Nat
  | [] => (n, taken)
  | c :: s =>
    let n' := 10 * n + digitValue c
    if n' < pow2 64 then takeDigits n' (taken + 1) s else (n, taken)

/-- A significand times a power of ten, or nothing beyond the finite numbers;
`fuel` bounds the steps of `308` by which large powers are taken. -/
def scaled? (fuel : Nat) (x : Double) (exponent : Int) : Option Double :=
  match fuel with
  | 0 => some x
  | fuel + 1 =>
    if exponent.natAbs ≤ 308 then
      let power := Double.ofNat (pow10 exponent.natAbs)
      if 0 ≤ exponent then
        let y := x * power
        if y.isFinite then some y else none
      else some (x / power)
    else if x.units = 0 then some x
    else if 0 ≤ exponent then none
    else scaled? fuel (x / Double.ofNat (pow10 308)) (exponent + 308)

/-- The float of a sign, a significand and a power of ten. -/
def floatOf (negative : Bool) (significand : Nat) (exponent : Int) (s : List Char) : Read Json :=
  match scaled? 8 (Double.ofNat significand) exponent with
  | none => .error (.here .numberOutOfRange s)
  | some x => .ok (.float (if negative then x.neg else x), s)

/-- Adds exponent digits up to `2 ^ 31 - 1`; beyond that the digits read so far
are given up at the digit that does not fit. -/
def takeExponent (n : Nat) : List Char → Except (List Char) (Nat × List Char)
  | [] => .ok (n, [])
  | c :: s =>
    if c.isDigit then
      let n' := 10 * n + digitValue c
      if n' < pow2 31 then takeExponent n' s else .error s
    else .ok (n, c :: s)

/-- Reads an exponent after its letter. -/
def readExponent (negative : Bool) (significand : Nat) (exponent : Int) (s : List Char) :
    Read Json :=
  let (down, s) :=
    match s with
    | '+' :: s => (false, s)
    | '-' :: s => (true, s)
    | s => (false, s)
  match s with
  | [] => .error (.here .endOfValue [])
  | c :: _ =>
    if !c.isDigit then .error ⟨.invalidNumber, s, 1⟩
    else
      match takeExponent 0 s with
      | .ok (n, s) => floatOf negative significand (if down then exponent - n else exponent + n) s
      | .error s =>
        if significand ≠ 0 ∧ !down then .error (.here .numberOutOfRange s)
        else floatOf negative 0 0 (s.dropWhile Char.isDigit)

/-- Reads what may follow a significand: an exponent or nothing. -/
def readScale (negative : Bool) (significand : Nat) (exponent : Int) (s : List Char) : Read Json :=
  match s with
  | 'e' :: s => readExponent negative significand exponent s
  | 'E' :: s => readExponent negative significand exponent s
  | s => floatOf negative significand exponent s

/-- Reads a fraction after its point. -/
def readFraction (negative : Bool) (significand : Nat) (exponent : Int) (s : List Char) :
    Read Json :=
  let ds := s.takeWhile Char.isDigit
  let rest := s.dropWhile Char.isDigit
  if ds.isEmpty then
    .error (.atNext (if rest.isEmpty then .endOfValue else .invalidNumber) rest)
  else
    let (n, taken) := takeDigits significand 0 ds
    readScale negative n (exponent - taken) rest

/-- Reads a number after its minus sign, if it has one. -/
def readNumber (negative : Bool) (s : List Char) : Read Json :=
  let ds := s.takeWhile Char.isDigit
  let rest := s.dropWhile Char.isDigit
  match ds with
  | [] => .error (if rest.isEmpty then .here .endOfValue [] else ⟨.invalidNumber, rest, 1⟩)
  | '0' :: _ :: _ => .error ⟨.invalidNumber, s.drop 1, 1⟩
  | ds =>
    let (n, taken) := takeDigits 0 0 ds
    let dropped : Int := ds.length - taken
    match rest with
    | '.' :: rest => readFraction negative n dropped rest
    | rest =>
      let plain := match rest with
        | c :: _ => c ≠ 'e' && c ≠ 'E'
        | [] => true
      if plain && taken = ds.length then
        if !negative then .ok (.integer n, rest)
        else if n ≠ 0 ∧ n ≤ pow2 63 then .ok (.integer (-n), rest)
        else .ok (.float (Double.ofNat n).neg, rest)
      else readScale negative n dropped rest

/-! ## values -/

/-- Reads the colon between a name and its value. -/
def readColon (s : List Char) : Except Stop (List Char) :=
  match skipSpace s with
  | [] => .error (.atNext .endOfObject [])
  | ':' :: s => .ok s
  | s => .error (.atNext .expectedColon s)

/-- Reads up to the next name of an object, or its end; `first` tells that no
member came before. -/
def readName (first : Bool) (s : List Char) : Read (Option String) :=
  let name (s : List Char) : Read (Option String) :=
    match s with
    | '"' :: s => (readString true [] s).map fun r => (some r.1, r.2)
    | s => .error (.atNext .nameNotString s)
  match skipSpace s with
  | [] => .error (.atNext .endOfObject [])
  | '}' :: s => .ok (none, s)
  | c :: s =>
    if first then name (c :: s)
    else if c = ',' then
      match skipSpace s with
      | [] => .error (.atNext .endOfValue [])
      | '}' :: s => .error (.atNext .trailingComma ('}' :: s))
      | s => name s
    else .error (.atNext .expectedObjectEnd (c :: s))

/-- Reads up to the next item of a list, or its end; `first` tells that no item
came before.  The result tells whether an item follows. -/
def readComma (first : Bool) (s : List Char) : Read Bool :=
  match skipSpace s with
  | [] => .error (.atNext .endOfList [])
  | ']' :: s => .ok (false, s)
  | c :: s =>
    if first then .ok (true, c :: s)
    else if c = ',' then
      match skipSpace s with
      | [] => .error (.atNext .endOfValue [])
      | ']' :: s => .error (.atNext .trailingComma (']' :: s))
      | s => .ok (true, s)
    else .error (.atNext .expectedListEnd (c :: s))

mutual

/-- Reads a value; `depth` is the number of levels left. -/
def readValue (fuel depth : Nat) (s : List Char) : Read Json :=
  match fuel with
  | 0 => .error (.here .endOfValue s)
  | fuel + 1 =>
    match skipSpace s with
    | [] => .error (.atNext .endOfValue [])
    | 'n' :: s => (readIdent ['u', 'l', 'l'] s).map fun s => (.null, s)
    | 't' :: s => (readIdent ['r', 'u', 'e'] s).map fun s => (.bool true, s)
    | 'f' :: s => (readIdent ['a', 'l', 's', 'e'] s).map fun s => (.bool false, s)
    | '"' :: s => (readString true [] s).map fun r => (.string r.1, r.2)
    | '-' :: s => readNumber true s
    | '[' :: s =>
      if depth ≤ 1 then .error (.atNext .tooDeep ('[' :: s))
      else (readItems fuel (depth - 1) [] s).map fun r => (.array r.1, r.2)
    | '{' :: s =>
      if depth ≤ 1 then .error (.atNext .tooDeep ('{' :: s))
      else (readMembers fuel (depth - 1) true [] s).map fun r => (.object r.1, r.2)
    | c :: s =>
      if c.isDigit then readNumber false (c :: s) else .error (.atNext .expectedValue (c :: s))

/-- Reads the items of a list after its bracket, `done` holding those read so far,
newest first. -/
def readItems (fuel depth : Nat) (done : List Json) (s : List Char) : Read (List Json) :=
  match fuel with
  | 0 => .error (.here .endOfList s)
  | fuel + 1 =>
    match readComma done.isEmpty s with
    | .error e => .error e
    | .ok (false, s) => .ok (done.reverse, s)
    | .ok (true, s) =>
      match readValue fuel depth s with
      | .error e => .error e
      | .ok (v, s) => readItems fuel depth (v :: done) s

/-- Reads the members of an object after its brace; `done` holds those read so
far. -/
def readMembers (fuel depth : Nat) (first : Bool) (done : List (String × Json))
    (s : List Char) : Read (List (String × Json)) :=
  match fuel with
  | 0 => .error (.here .endOfObject s)
  | fuel + 1 =>
    match readName first s with
    | .error e => .error e
    | .ok (none, s) => .ok (done, s)
    | .ok (some name, s) =>
      match readColon s with
      | .error e => .error e
      | .ok s =>
        match readValue fuel depth s with
        | .error e => .error e
        | .ok (v, s) => readMembers fuel depth false (insertMember name v done) s

end

/-- A bound on the steps of reading a text: every step but one in three takes a
character. -/
def fuelFor (s : List Char) : Nat := 3 * s.length + 3

/-- Only blanks may follow a document. -/
def readEnd (s : List Char) : Except Stop Unit :=
  match skipSpace s with
  | [] => .ok ()
  | s => .error (.atNext .trailingCharacters s)

/-- The value of a JSON document. -/
def parse (text : String) : Except Fault Json :=
  let s := text.toList
  let result : Except Stop Json := do
    let (v, rest) ← readValue (fuelFor s) maxDepth s
    readEnd rest
    return v
  result.mapError (Stop.fault s)

/-! ## skipping -/

/-- Skips the digits that must follow, if there are any. -/
def skipDigits (s : List Char) : Except Stop (List Char) :=
  match s with
  | c :: s =>
    if c.isDigit then .ok (s.dropWhile Char.isDigit) else .error ⟨.invalidNumber, c :: s, 1⟩
  | [] => .error (.here .invalidNumber [])

/-- Skips a number after its minus sign, if it has one. -/
def skipNumber (s : List Char) : Except Stop (List Char) := do
  let s ←
    match s with
    | '0' :: c :: s => if c.isDigit then .error ⟨.invalidNumber, c :: s, 1⟩ else .ok (c :: s)
    | s => skipDigits s
  let s ←
    match s with
    | '.' :: s => skipDigits s
    | s => .ok s
  match s with
  | c :: s =>
    if c = 'e' ∨ c = 'E' then
      match s with
      | '+' :: s => skipDigits s
      | '-' :: s => skipDigits s
      | s => skipDigits s
    else .ok (c :: s)
  | [] => .ok []

mutual

/-- Skips a value. -/
def skipValue (fuel : Nat) (s : List Char) : Except Stop (List Char) :=
  match fuel with
  | 0 => .error (.here .endOfValue s)
  | fuel + 1 =>
    match skipSpace s with
    | [] => .error (.atNext .endOfValue [])
    | 'n' :: s => readIdent ['u', 'l', 'l'] s
    | 't' :: s => readIdent ['r', 'u', 'e'] s
    | 'f' :: s => readIdent ['a', 'l', 's', 'e'] s
    | '"' :: s => (readString false [] s).map Prod.snd
    | '-' :: s => skipNumber s
    | '[' :: s => skipItems fuel true s
    | '{' :: s => skipMembers fuel true s
    | c :: s =>
      if c.isDigit then skipNumber (c :: s) else .error (.atNext .expectedValue (c :: s))

/-- Skips the items of a list. -/
def skipItems (fuel : Nat) (first : Bool) (s : List Char) : Except Stop (List Char) :=
  match fuel with
  | 0 => .error (.here .endOfList s)
  | fuel + 1 =>
    let item (s : List Char) :=
      match skipValue fuel s with
      | .error e => .error e
      | .ok s => skipItems fuel false s
    match skipSpace s with
    | [] => .error (.atNext .endOfList [])
    | ']' :: s => .ok s
    | c :: s =>
      if first then item (c :: s)
      else if c = ',' then item s
      else .error (.atNext .expectedListEnd (c :: s))

/-- Skips the members of an object. -/
def skipMembers (fuel : Nat) (first : Bool) (s : List Char) : Except Stop (List Char) :=
  match fuel with
  | 0 => .error (.here .endOfObject s)
  | fuel + 1 =>
    let member (s : List Char) :=
      match skipSpace s with
      | [] => .error (.atNext .endOfObject [])
      | '"' :: s =>
        match (readString false [] s).bind fun r => readColon r.2 with
        | .error e => .error e
        | .ok s =>
          match skipValue fuel s with
          | .error e => .error e
          | .ok s => skipMembers fuel false s
      | s => .error (.atNext .nameNotString s)
    match skipSpace s with
    | [] => .error (.atNext .endOfObject [])
    | '}' :: s => .ok s
    | c :: s =>
      if first then member (c :: s)
      else if c = ',' then member s
      else .error (.atNext .expectedObjectEnd (c :: s))

end

end Phrasebook.Json
