import Phrasebook.Number.Digits
import Phrasebook.Number.Double

/-!
# Phrasebook.Number.Shortest

The shortest decimal that reads back to a binary64 number.

A decimal reads back to `x` when it lies in the interval of the reals that round
to `x`: half a gap on either side, the ends included if the significand is even.
For one digit, two digits and so on the search looks at the two neighbours of
`x` on the decimal grid of that many digits; the first grid with a neighbour
inside the interval wins, of two neighbours inside the nearer one, and an exact
tie goes by the `Tie` rule.

All quantities are counted in units of `2 ^ -1076 * 10 ^ -400`, so that interval
ends and grid points are natural numbers.
-/

namespace Phrasebook.Number

/-- The decimal `coefficient * 10 ^ exponent`. -/
structure Scientific where
  coefficient : Nat
  exponent : Int
deriving DecidableEq, Repr

/-- Which of two decimals at the same distance is taken. -/
inductive Tie where
  | toEven
  | away
deriving DecidableEq, Repr

namespace Shortest

/-- The number of decimal digits beyond the first. -/
def log10 (n : Nat) : Nat := if n < 10 then 0 else log10 (n / 10) + 1
termination_by n

/-- A finite number with the interval of the reals that round to it. -/
structure Interval where
  lower : Nat
  value : Nat
  upper : Nat
  closed : Bool

/-- The interval of a finite number other than zero.  The gap below a power of
two is half as wide as the gap above it. -/
def interval (x : Double) : Interval :=
  let quarter := pow2 x.shift * pow10 400
  let value := 4 * x.significand * quarter
  let below := if x.significand = pow2 52 ∧ x.shift ≠ 0 then 1 else 2
  { lower := value - below * quarter
    value := value
    upper := value + 2 * quarter
    closed := x.significand % 2 == 0 }

/-- Whether a point lies in an interval. -/
def Interval.contains (i : Interval) (p : Nat) : Bool :=
  if i.closed then i.lower ≤ p && p ≤ i.upper else i.lower < p && p < i.upper

/-- The distance between neighbours on the grid of multiples of `10 ^ (k - 400)`. -/
def step (k : Nat) : Nat := pow10 k * pow2 1076

/-- The neighbour of the value on a grid that lies in the interval, if any. -/
def onGrid (tie : Tie) (i : Interval) (k : Nat) : Option Nat :=
  let d := i.value / step k
  let below := i.contains (d * step k)
  let above := i.contains ((d + 1) * step k)
  if below && above then
    let toBelow := i.value - d * step k
    let toAbove := (d + 1) * step k - i.value
    if toBelow < toAbove then some d
    else if toAbove < toBelow then some (d + 1)
    else
      match tie with
      | .away => some (d + 1)
      | .toEven => some (if d % 2 = 0 then d else d + 1)
  else if below then some d
  else if above then some (d + 1)
  else none

/-- A decimal without trailing zeros in its coefficient; `fuel` bounds their
number. -/
def strip (fuel : Nat) (d : Scientific) : Scientific :=
  match fuel with
  | 0 => d
  | fuel + 1 =>
    if d.coefficient % 10 = 0 ∧ d.coefficient ≠ 0 then
      strip fuel ⟨d.coefficient / 10, d.exponent + 1⟩
    else d

end Shortest

/-- The shortest decimal that reads back to the size of a finite number; zero is
`0`. -/
def shortest (tie : Tie) (x : Double) : Scientific :=
  if x.units = 0 then ⟨0, 0⟩
  else
    let i := Shortest.interval x
    let top := Shortest.log10 (i.value / pow2 1076)
    let found := (List.range 17).findSome? fun n =>
      (Shortest.onGrid tie i (top - n)).map fun d => (⟨d, (top - n : Int) - 400⟩ : Scientific)
    Shortest.strip 20 (found.getD ⟨i.value / Shortest.step (top - 16), (top - 16 : Int) - 400⟩)

example : shortest .away (.ofRatio false 1 10) = ⟨1, -1⟩ := by decide +kernel
example : shortest .away ⟨1⟩ = ⟨5, -324⟩ := by decide +kernel
example : shortest .away (.ofRatio false 1 (pow2 25)) = ⟨29802322387695313, -24⟩ := by
  decide +kernel
example : shortest .toEven (.ofRatio false 1 (pow2 25)) = ⟨29802322387695312, -24⟩ := by
  decide +kernel
example : shortest .away (.ofNat (pow10 21)) = ⟨1, 21⟩ := by decide +kernel

end Phrasebook.Number
