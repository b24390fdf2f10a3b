import Phrasebook.Number.Power
/-!
# Phrasebook.Number.Double

Binary64 numbers as 64-bit words, with exact arithmetic on their values.

Every finite number is a whole multiple of the least positive one, `2 ^ -1074`;
`units` is that multiple, so the module computes with natural numbers only:

* `units x = significand x * 2 ^ shift x` with `significand x < 2 ^ 53`
  (`significand_lt`);
* `ofUnits` rounds a quotient of units to the nearest number, a tie to the even
  significand, and everything from `2 ^ 1024` on to infinity; reading decimals,
  converting integers and the four operations are all `ofUnits` of an exact
  quotient, so each rounds once.
-/

namespace Phrasebook.Number

/-- A binary64 number, given by its word. -/
structure Double where
  bits : UInt64
deriving DecidableEq, Inhabited

namespace Double

/-! ## the parts of a word -/

/-- The sign bit. -/
def isNegative (x : Double) : Bool := pow2 63 ≤ x.bits.toNat

/-- The word without its sign. -/
def magnitude (x : Double) : Nat := x.bits.toNat % pow2 63

/-- The exponent field. -/
def field (x : Double) : Nat := x.magnitude / pow2 52

/-- Neither infinite nor not-a-number. -/
def isFinite (x : Double) : Bool := x.magnitude < 2047 * pow2 52

/-- Not a number. -/
def isNaN (x : Double) : Bool := 2047 * pow2 52 < x.magnitude

/-- The significand of a finite number, with the leading bit of a normal one. -/
def significand (x : Double) : Nat :=
  if x.field = 0 then x.magnitude % pow2 52 else pow2 52 + x.magnitude % pow2 52

/-- The power of two by which the significand counts, in units of `2 ^ -1074`. -/
def shift (x : Double) : Nat := x.field - 1

/-- The size of a finite number in units of `2 ^ -1074`. -/
def units (x : Double) : Nat := x.significand * pow2 x.shift

/-- The signed value of a finite number in units of `2 ^ -1074`. -/
def signedUnits (x : Double) : Int := if x.isNegative then -(x.units : Int) else x.units

/-- The number of units in one. -/
def one : Nat := pow2 1074

theorem significand_lt (x : Double) : x.significand < pow2 53 := by
  unfold significand
  have := Nat.mod_lt x.magnitude (pow2_pos 52)
  have : pow2 53 = pow2 52 * 2 := pow2_succ 52
  split <;> omega

/-! ## rounding -/

/-- The quotient `num / den` rounded to the nearest whole number, a tie to the
even one. -/
def roundDiv (num den : Nat) : Nat :=
  let q := num / den
  let r := num % den
  if 2 * r < den then q
  else if den < 2 * r then q + 1
  else if q % 2 = 0 then q else q + 1

/-- How many low bits a quotient loses when it is rounded to `precision` bits,
at least `lowest`. -/
def lostBits (precision lowest num den : Nat) : Nat :=
  max lowest ((num / den).log2 + 1 - precision)

/-- The word with a sign and a magnitude; magnitudes beyond the finite ones are
infinite. -/
def ofMagnitude (negative : Bool) (magnitude : Nat) : Double :=
  let m := min magnitude (2047 * pow2 52)
  ⟨UInt64.ofNat (if negative then pow2 63 + m else m)⟩

/-- The number nearest to `num / den` units. -/
def ofUnits (negative : Bool) (num den : Nat) : Double :=
  let s := lostBits 53 0 num den
  ofMagnitude negative (s * pow2 52 + roundDiv num (den * pow2 s))

/-- The number nearest to the quotient `num / den`. -/
def ofRatio (negative : Bool) (num den : Nat) : Double := ofUnits negative (num * one) den

/-- The number nearest to `num / den` among those of single precision: 24 bits,
the least unit `2 ^ -149`, infinite from `2 ^ 128` on. -/
def ofRatioSingle (negative : Bool) (num den : Nat) : Double :=
  let num := num * one
  let s := lostBits 24 925 num den
  let u := roundDiv num (den * pow2 s) * pow2 s
  if pow2 128 * one ≤ u then ofMagnitude negative (2047 * pow2 52) else ofUnits negative u 1

/-- Positive or negative infinity. -/
def infinity (negative : Bool) : Double := ofMagnitude negative (2047 * pow2 52)

/-- Not a number. -/
def nan : Double := ⟨0x7FF8000000000000⟩

/-! ## arithmetic on finite numbers -/

/-- The number nearest to a signed quotient of units. -/
def ofSigned (num : Int) (den : Nat) : Double := ofUnits (num < 0) num.natAbs den

/-- The sum of two finite numbers. -/
def add (x y : Double) : Double := ofSigned (x.signedUnits + y.signedUnits) 1

/-- The difference of two finite numbers. -/
def sub (x y : Double) : Double := ofSigned (x.signedUnits - y.signedUnits) 1

/-- The product of two finite numbers. -/
def mul (x y : Double) : Double := ofSigned (x.signedUnits * y.signedUnits) one

/-- The quotient of a finite number by a positive one. -/
def div (x y : Double) : Double := ofSigned (x.signedUnits * one) y.units

instance : Add Double := ⟨add⟩
instance : Sub Double := ⟨sub⟩
instance : Mul Double := ⟨mul⟩
instance : Div Double := ⟨div⟩

/-- The number nearest to a natural number. -/
def ofNat (n : Nat) : Double := ofRatio false n 1

/-- The number of the opposite sign. -/
def neg (x : Double) : Double := ofMagnitude (!x.isNegative) x.magnitude

/-- Whether one finite number is at most another. -/
def le (x y : Double) : Bool := x.signedUnits ≤ y.signedUnits

/-- Whether one finite number is less than another. -/
def lt (x y : Double) : Bool := x.signedUnits < y.signedUnits

/-- The place of a word in the total order of words: negative ones first, the
larger the magnitude the earlier, then the others by magnitude. -/
def orderKey (x : Double) : Int :=
  if x.isNegative then -(x.magnitude : Int) - 1 else x.magnitude

/-! ## integers -/

/-- The number nearest to an integer. -/
def ofInt64 (n : Int64) : Double := ofRatio (n.toInt < 0) n.toInt.natAbs 1

/-- A finite number without a fraction. -/
def isWhole (x : Double) : Bool := x.isFinite && x.units % one == 0

/-- The integer part of a finite number, the nearest 64-bit integer if it does
not fit. -/
def toInt64Clamped (x : Double) : Int64 :=
  let n : Int := if x.isNegative then -((x.units / one : Nat) : Int) else (x.units / one : Nat)
  Int64.ofInt (max (-(pow2 63 : Int)) (min n (pow2 63 - 1)))

example : ofRatio false 1 10 = ⟨0x3FB999999999999A⟩ := by decide +kernel
example : ofRatio true 3 1 = ⟨0xC008000000000000⟩ := by decide +kernel
example : ofNat (pow2 53 + 1) = ofNat (pow2 53) := by decide +kernel
example : ofRatio false 1 10 + ofRatio false 2 10 = ⟨0x3FD3333333333334⟩ := by decide +kernel

end Double

end Phrasebook.Number
