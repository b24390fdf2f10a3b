import Phrasebook.Number.Decimal
import Phrasebook.Plural.Category
import Phrasebook.Locale.Basic

/-!
# Phrasebook.Plural.Rules

The cardinal plural rules of the supported languages, looked up by the language
subtag alone.

A rule looks at the operands of a quantity: its integer part `i`, the number `v`
of visible fraction digits, and whether the fraction is zero.  The sign plays no
part.  Conditions on the number itself (`n = 1`) hold only for a zero fraction.

Operands of a decimal are taken from a window of 18 digits on either side of the
point; integer digits above the window count as one at the position `10 ^ 18`.
-/

namespace Phrasebook.Plural

open Phrasebook.Number (Decimal pow10)

/-! ## operands -/

/-- What plural rules see of a quantity. -/
structure Operands where
  /-- The integer part. -/
  i : Nat
  /-- The number of visible fraction digits. -/
  v : Nat
  /-- The fraction digits are all zero. -/
  whole : Bool
deriving DecidableEq, Repr

/-- The digits seen on either side of the point. -/
def window : Nat := 18

/-- The operands of an integer. -/
def Operands.ofInt (n : Int) : Operands := ⟨n.natAbs, 0, true⟩

/-- The operands of a decimal. -/
def Operands.ofDecimal (d : Decimal) : Operands :=
  let seen := d.coefficient / pow10 d.fraction % pow10 window
  let v := min d.fraction window
  let fraction := d.coefficient % pow10 d.fraction / pow10 (d.fraction - v)
  { i := if window < d.whole then pow10 window + seen else seen
    v := v
    whole := fraction == 0 }

namespace Operands

/-- The number itself is `n`. -/
def is (o : Operands) (n : Nat) : Bool := o.whole && o.i == n

/-- The number itself lies in a range, modulo `m`. -/
def modIn (o : Operands) (m low high : Nat) : Bool :=
  o.whole && low ≤ o.i % m && o.i % m ≤ high

/-- The integer part is `n` and no fraction digit is visible. -/
def plain (o : Operands) (n : Nat) : Bool := o.v == 0 && o.i == n

/-- A whole number of millions, other than zero, without fraction digits. -/
def millions (o : Operands) : Bool := o.i != 0 && o.i % 1000000 == 0 && o.v == 0

/-- The last integer digit is 2, 3 or 4, but not in 12, 13 or 14. -/
def few234 (o : Operands) : Bool :=
  2 ≤ o.i % 10 && o.i % 10 ≤ 4 && !(12 ≤ o.i % 100 && o.i % 100 ≤ 14)

end Operands

/-! ## rules -/

/-- The rule of a language. -/
abbrev Rule := Operands → Category

namespace Rule

/-- One form for everything. -/
def uniform : Rule := fun _ => .other

/-- `one` for 1 written without fraction digits. -/
def plainOne : Rule := fun o => if o.plain 1 then .one else .other

/-- `one` for the number 1 however it is written. -/
def numberOne : Rule := fun o => if o.is 1 then .one else .other

/-- `one` for everything from 0 to 1. -/
def zeroOrOne : Rule := fun o => if o.i == 0 || o.is 1 then .one else .other

/-- `one` for an integer part of 0 or 1, `many` for millions. -/
def oneOrMillions : Rule := fun o =>
  if o.i ≤ 1 then .one else if o.millions then .many else .other

/-- `one` for the number 1, `many` for millions. -/
def numberOneOrMillions : Rule := fun o =>
  if o.is 1 then .one else if o.millions then .many else .other

/-- `one` for a plain 1, `many` for millions. -/
def plainOneOrMillions : Rule := fun o =>
  if o.plain 1 then .one else if o.millions then .many else .other

/-- All six categories. -/
def arabic : Rule := fun o =>
  if o.is 0 then .zero
  else if o.is 1 then .one
  else if o.is 2 then .two
  else if o.modIn 100 3 10 then .few
  else if o.modIn 100 11 99 then .many
  else .other

/-- `few` for 2 to 4, `many` for fractions. -/
def czech : Rule := fun o =>
  if o.plain 1 then .one
  else if o.v == 0 && 2 ≤ o.i && o.i ≤ 4 then .few
  else if o.v != 0 then .many
  else .other

/-- `one` also for fractions below 1, and a dual. -/
def hebrew : Rule := fun o =>
  if o.plain 1 || (o.i == 0 && o.v != 0) then .one
  else if o.plain 2 then .two
  else .other

/-- `one` for 1 alone, `few` and `many` by the last digits. -/
def polish : Rule := fun o =>
  if o.v != 0 then .other
  else if o.i == 1 then .one
  else if o.few234 then .few
  else .many

/-- `few` for 0, fractions, and 1 to 19 modulo 100. -/
def romanian : Rule := fun o =>
  if o.plain 1 then .one
  else if o.v != 0 || o.is 0 || (!o.is 1 && o.modIn 100 1 19) then .few
  else .other

/-- `one`, `few` and `many` by the last digits. -/
def eastSlavic : Rule := fun o =>
  if o.v != 0 then .other
  else if o.i % 10 == 1 && o.i % 100 != 11 then .one
  else if o.few234 then .few
  else .many

end Rule

/-- The supported languages with their rules. -/
def rules : List (String × Rule) :=
  [("ar", .arabic), ("bn", .zeroOrOne), ("cs", .czech), ("de", .plainOne), ("el", .numberOne),
   ("en", .plainOne), ("es", .numberOneOrMillions), ("fa", .zeroOrOne), ("fr", .oneOrMillions),
   ("he", .hebrew), ("hi", .zeroOrOne), ("id", .uniform), ("it", .plainOneOrMillions),
   ("ja", .uniform), ("ko", .uniform), ("nl", .plainOne), ("pl", .polish),
   ("pt", .oneOrMillions), ("ro", .romanian), ("ru", .eastSlavic), ("th", .uniform),
   ("tr", .numberOne), ("uk", .eastSlavic), ("vi", .zeroOrOne), ("zh", .uniform)]

/-- The rule of a language, if it is supported. -/
def rule? (language : String) : Option Rule := rules.lookup language

/-- Whether the language of a locale is supported. -/
def hasRules (l : Locale) : Bool := (rule? l.language).isSome

/-! ## categories -/

/-- The category of an integer in a language without rules: `one` for exactly 1. -/
def defaultCategory (n : Int64) : Category := if n = 1 then .one else .other

/-- The category of an integer in a locale. -/
def category (l : Locale) (n : Int64) : Category :=
  match rule? l.language with
  | some rule => rule (.ofInt n.toInt)
  | none => defaultCategory n

/-- The category of a decimal in a locale; a language without rules is treated
like English. -/
def decimalCategory (l : Locale) (d : Decimal) : Category :=
  ((rule? l.language).getD .plainOne) (.ofDecimal d)

end Phrasebook.Plural
