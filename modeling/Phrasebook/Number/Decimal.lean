import Phrasebook.Number.DoubleText

/-!
# Phrasebook.Number.Decimal

Decimals that keep their digits as written: plural rules look at the visible
fraction digits, so `1`, `1.0` and `1.00` are three different quantities.

A `Decimal` is a sign, a coefficient, and how many digits stand on either side
of the point; its size is `coefficient / 10 ^ fraction`.

Reading rules:

* at most one sign, then digits with at most one point; the point may come
  first but not last; an exponent `e` with an optional minus sign may follow;
* without an exponent all digits are kept, zeros at either end included;
* an exponent moves the digits of a number other than zero.  The digits shown
  are those moved: they reach up to the units at least, start at the leading
  digit when that is above the units, and end at the last non-zero digit when
  that is below them;
* an exponent does not change a zero; any other number fails with an exponent
  outside `-32768` to `32767`;
* digits beyond the position `32767` above or `32768` below the point fail.
-/

namespace Phrasebook.Number

/-- The sign as written. -/
inductive Sign where
  | unsigned
  | negative
  | positive
deriving DecidableEq, Repr

/-- A decimal as it is displayed. -/
structure Decimal where
  sign : Sign
  coefficient : Nat
  whole : Nat
  fraction : Nat
deriving DecidableEq, Repr

namespace Decimal

/-- A row of digits of at least the given width. -/
def padded (width n : Nat) : List Char :=
  let ds := digits n
  List.replicate (width - ds.length) '0' ++ ds

/-- The text of a sign. -/
def signText : Sign → String
  | .unsigned => ""
  | .negative => "-"
  | .positive => "+"

/-- The text of a decimal, with all its digits. -/
def render (d : Decimal) : String :=
  let ds := padded (d.whole + d.fraction) d.coefficient
  let body :=
    if d.fraction = 0 then ds
    else ds.take (ds.length - d.fraction) ++ '.' :: ds.drop (ds.length - d.fraction)
  signText d.sign ++ String.ofList body

/-- A whole number as a decimal, unsigned unless it is negative. -/
def ofInt64 (n : Int64) : Decimal :=
  { sign := if n.toInt < 0 then .negative else .unsigned
    coefficient := n.toInt.natAbs
    whole := (digits n.toInt.natAbs).length
    fraction := 0 }

/-! ## reading -/

/-- The highest digit position of a decimal, counted from the units. -/
def highest : Nat := 32767

/-- The lowest digit position of a decimal, counted down from the units. -/
def lowest : Nat := 32768

/-- The digits of an unsigned decimal on either side of the point, and its
exponent if it has one. -/
structure Written where
  whole : List Char
  fraction : List Char
  exponent : Option Int

/-- The parts of an unsigned decimal as written. -/
def readWritten? (s : List Char) : Option Written :=
  let whole := s.takeWhile Char.isDigit
  let rest := s.dropWhile Char.isDigit
  let (pointed, fraction, rest) :=
    match rest with
    | '.' :: rest => (true, rest.takeWhile Char.isDigit, rest.dropWhile Char.isDigit)
    | rest => (false, [], rest)
  if whole.isEmpty && !pointed then none
  else
    match rest with
    | [] => if pointed && fraction.isEmpty then none else some ⟨whole, fraction, none⟩
    | c :: rest =>
      if c = 'e' ∨ c = 'E' then
        match rest with
        | '-' :: rest =>
          (readNat? rest).map fun n => ⟨whole, fraction, some (-(n : Int))⟩
        | rest => (readNat? rest).map fun n => ⟨whole, fraction, some (n : Int)⟩
      else none

/-- The number of zeros at the end of a positive number. -/
def trailingZeros (n : Nat) : Nat :=
  if h : n ≠ 0 ∧ n % 10 = 0 then trailingZeros (n / 10) + 1 else 0
termination_by n
decreasing_by omega

/-- A decimal other than zero with its digits moved by `e` positions. -/
def moved? (d : Decimal) (e : Int) : Option Decimal :=
  let top : Int := max 0 (d.whole - 1 + e)
  let leading : Int := Shortest.log10 d.coefficient - d.fraction + e
  let top := if 0 < leading then leading else top
  let bottom : Int := min 0 (e - d.fraction)
  let last : Int := trailingZeros d.coefficient - d.fraction + e
  let bottom := if last < 0 then last else bottom
  if highest < e ∨ lowest < -e ∨ highest < d.whole - 1 + e ∨ lowest < d.fraction - e then
    none
  else
    let grow := e - d.fraction - bottom
    some
      { d with
        coefficient := d.coefficient * pow10 grow.toNat / pow10 (-grow).toNat
        whole := top.toNat + 1
        fraction := (-bottom).toNat }

/-- The decimal that a text denotes, if it denotes one. -/
def read? (s : List Char) : Option Decimal :=
  let (sign, s) :=
    match s with
    | '-' :: s => (Sign.negative, s)
    | '+' :: s => (Sign.positive, s)
    | s => (Sign.unsigned, s)
  (readWritten? s).bind fun w =>
    if highest < w.whole.length - 1 ∨ lowest < w.fraction.length then none
    else
      let d : Decimal :=
        { sign := sign
          coefficient := ofDigits (w.whole ++ w.fraction)
          whole := max 1 w.whole.length
          fraction := w.fraction.length }
      match w.exponent with
      | none => some d
      | some e => if d.coefficient = 0 then some d else d.moved? e

example : (read? "1.0e6".toList).map render = some "1000000" := by decide +kernel
example : (read? "1.5E-2".toList).map render = some "0.015" := by decide +kernel
example : (read? "12.50e1".toList).map render = some "125.0" := by decide +kernel
example : (read? "0.001e3".toList).map render = some "0001" := by decide +kernel
example : (read? "+.5".toList).map render = some "+0.5" := by decide +kernel
example : (read? "-00.10".toList).map render = some "-00.10" := by decide +kernel
example : read? "1.".toList = none ∧ read? "1e".toList = none := by decide +kernel

end Decimal

end Phrasebook.Number
