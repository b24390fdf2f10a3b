import Phrasebook.Number.Shortest

/-!
# Phrasebook.Number.DoubleText

Binary64 numbers as message text.

Written: the shortest digits that read back, always positional, without a point
for whole numbers; `-0`, `NaN`, `inf` and `-inf`.

Read: an optional sign; then `inf`, `infinity` or `nan` in any case, or digits
with an optional point (one digit at least, on either side) and an optional
exponent `e` with an optional sign and digits.  The result is the nearest
number; what is too large becomes infinite, what is too small zero.
-/

namespace Phrasebook.Number

/-! ## writing -/

/-- A decimal written without an exponent. -/
def positional (d : Scientific) : List Char :=
  let ds := digits d.coefficient
  if 0 ≤ d.exponent then ds ++ List.replicate d.exponent.toNat '0'
  else
    let places := (-d.exponent).toNat
    if places < ds.length then
      ds.take (ds.length - places) ++ '.' :: ds.drop (ds.length - places)
    else '0' :: '.' :: (List.replicate (places - ds.length) '0' ++ ds)

/-- The text of a number in a message. -/
def Double.render (x : Double) : String :=
  if x.isNaN then "NaN"
  else
    let body :=
      if x.isFinite then String.ofList (positional (shortest .away x)) else "inf"
    if x.isNegative then "-" ++ body else body

/-! ## reading -/

/-- The exponent part of a decimal: nothing, or `e`, an optional sign and digits. -/
def readExponent? : List Char → Option Int
  | [] => some 0
  | c :: s =>
    if c = 'e' ∨ c = 'E' then
      match s with
      | '-' :: s => (readNat? s).map fun n => -(n : Int)
      | '+' :: s => (readNat? s).map Int.ofNat
      | s => (readNat? s).map Int.ofNat
    else none

/-- An unsigned decimal: digits with an optional point and exponent. -/
def readScientific? (s : List Char) : Option Scientific :=
  let whole := s.takeWhile Char.isDigit
  let rest := s.dropWhile Char.isDigit
  let (fraction, rest) :=
    match rest with
    | '.' :: rest => (rest.takeWhile Char.isDigit, rest.dropWhile Char.isDigit)
    | rest => ([], rest)
  if whole.isEmpty && fraction.isEmpty then none
  else (readExponent? rest).map fun e => ⟨ofDigits (whole ++ fraction), e - fraction.length⟩

/-- The number that `nearest` gives for a decimal.  A leading digit beyond
`10 ^ 320` is infinite and one below `10 ^ -330` zero whatever the precision, so
no power of ten grows out of bounds. -/
def Scientific.toDouble (nearest : Bool → Nat → Nat → Double) (negative : Bool)
    (d : Scientific) : Double :=
  let top : Int := d.exponent + Shortest.log10 d.coefficient
  if d.coefficient = 0 ∨ top < -330 then nearest negative 0 1
  else if 320 < top then Double.infinity negative
  else nearest negative (d.coefficient * pow10 d.exponent.toNat) (pow10 (-d.exponent).toNat)

/-- A signed decimal or one of the special values, rounded by `nearest`. -/
def readBinary? (nearest : Bool → Nat → Nat → Double) (s : List Char) : Option Double :=
  let (negative, s) :=
    match s with
    | '-' :: s => (true, s)
    | '+' :: s => (false, s)
    | s => (false, s)
  match readScientific? s with
  | some d => some (d.toDouble nearest negative)
  | none =>
    match String.ofList (s.map Char.toLower) with
    | "inf" => some (Double.infinity negative)
    | "infinity" => some (Double.infinity negative)
    | "nan" => some Double.nan
    | _ => none

/-- The double nearest to a decimal. -/
def Double.read? (s : List Char) : Option Double := readBinary? Double.ofRatio s

/-- The double equal to the single-precision number nearest to a decimal. -/
def Double.readSingle? (s : List Char) : Option Double := readBinary? Double.ofRatioSingle s

example : (Double.read? "1e21".toList).map Double.render = some "1000000000000000000000" := by
  decide +kernel
example : (Double.read? "-.50".toList).map Double.render = some "-0.5" := by decide +kernel
example : (Double.read? "1e400".toList).map Double.render = some "inf" := by decide +kernel
example : (Double.readSingle? "0.1".toList).map Double.render = some "0.10000000149011612" := by
  decide +kernel
example : Double.read? ['.'] = none := by decide +kernel

end Phrasebook.Number
