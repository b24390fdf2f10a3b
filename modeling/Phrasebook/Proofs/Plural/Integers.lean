import Phrasebook.Plural.Rules
import Phrasebook.Proofs.Number.Numerals

/-!
# Phrasebook.Proofs.Plural.Integers

Integers as such and as decimals.

The operands of a decimal come from a window of 18 digits, so an integer of 19 digits and
its decimal differ in their integer parts.  No rule sees the difference: what lies above
the last six digits of an integer part does not matter to it, as long as there is
something (`Operands.Alike`, `Operands.Alike.rule_eq`).

In a language without rules the two ways differ, and at -1 alone: the default compares
the integer with 1, while the English rule looks at its absolute value
(`category_eq_decimalCategory_iff`).
-/

namespace Phrasebook

namespace Plural

open Phrasebook.Number (Decimal digits pow10 pow10_zero length_digits_le_iff)

/-! ## what rules see -/

namespace Operands

/-- Operands that no rule tells apart: the fractions are alike, and the integer parts are
the same or end in the same six digits below a higher one. -/
structure Alike (o p : Operands) : Prop where
  v_eq : o.v = p.v
  whole_eq : o.whole = p.whole
  i_eq : o.i = p.i ∨ 1000000 ≤ o.i ∧ 1000000 ≤ p.i ∧ o.i % 1000000 = p.i % 1000000

variable {o p : Operands}

theorem Alike.i_eq_iff (h : o.Alike p) {n : Nat} (hn : n < 1000000) : o.i = n ↔ p.i = n := by
  rcases h.i_eq with hi | ⟨ho, hp, -⟩
  · rw [hi]
  · omega

theorem Alike.i_beq (h : o.Alike p) {n : Nat} (hn : n < 1000000) : (o.i == n) = (p.i == n) :=
  Bool.eq_iff_iff.2 (by simpa using h.i_eq_iff hn)

theorem Alike.i_le_iff (h : o.Alike p) {n : Nat} (hn : n < 1000000) : o.i ≤ n ↔ p.i ≤ n := by
  rcases h.i_eq with hi | ⟨ho, hp, -⟩
  · rw [hi]
  · omega

theorem Alike.le_i_iff (h : o.Alike p) {n : Nat} (hn : n < 1000000) : n ≤ o.i ↔ n ≤ p.i := by
  rcases h.i_eq with hi | ⟨ho, hp, -⟩
  · rw [hi]
  · omega

/-- The last digits of the integer parts are the same, up to six. -/
theorem Alike.i_mod (h : o.Alike p) {m : Nat} (hm : m ∣ 1000000) : o.i % m = p.i % m := by
  rcases h.i_eq with hi | ⟨-, -, hi⟩
  · rw [hi]
  · calc o.i % m = o.i % 1000000 % m := (Nat.mod_mod_of_dvd _ hm).symm
      _ = p.i % 1000000 % m := by rw [hi]
      _ = p.i % m := Nat.mod_mod_of_dvd _ hm

theorem Alike.is (h : o.Alike p) {n : Nat} (hn : n < 1000000) : o.is n = p.is n := by
  rw [Operands.is, Operands.is, h.whole_eq, h.i_beq hn]

theorem Alike.plain (h : o.Alike p) {n : Nat} (hn : n < 1000000) : o.plain n = p.plain n := by
  rw [Operands.plain, Operands.plain, h.v_eq, h.i_beq hn]

theorem Alike.modIn (h : o.Alike p) {m : Nat} (hm : m ∣ 1000000) (low high : Nat) :
    o.modIn m low high = p.modIn m low high := by
  rw [Operands.modIn, Operands.modIn, h.whole_eq, h.i_mod hm]

theorem Alike.millions (h : o.Alike p) : o.millions = p.millions := by
  rw [Operands.millions, Operands.millions, h.v_eq, h.i_mod (Nat.dvd_refl _), bne, bne,
    h.i_beq (by decide)]

theorem Alike.few234 (h : o.Alike p) : o.few234 = p.few234 := by
  rw [Operands.few234, Operands.few234, h.i_mod (m := 10) (by decide),
    h.i_mod (m := 100) (by decide)]

end Operands

/-- No rule tells operands apart that are alike. -/
theorem Operands.Alike.rule_eq {o p : Operands} (h : o.Alike p) {language : String} {rule : Rule}
    (hr : rule? language = some rule) : rule o = rule p := by
  have hall : ∀ x ∈ rules, x.2 o = x.2 p := by
    simp (disch := decide) only [rules, List.forall_mem_cons, Rule.uniform, Rule.plainOne,
      Rule.numberOne, Rule.zeroOrOne, Rule.oneOrMillions, Rule.numberOneOrMillions,
      Rule.plainOneOrMillions, Rule.arabic, Rule.czech, Rule.hebrew, Rule.polish, Rule.romanian,
      Rule.eastSlavic, h.v_eq, h.i_beq, h.i_le_iff, h.le_i_iff, h.i_mod, h.is, h.plain, h.modIn,
      h.millions, h.few234]
    simp
  obtain ⟨before, after, hl, -⟩ := List.lookup_eq_some_iff.1 hr
  exact hall (language, rule) (hl ▸ List.mem_append_right _ List.mem_cons_self)

/-! ## the operands of an integer -/

/-- The integer part of a decimal integer: all of its digits, or the last 18 below a one. -/
theorem Operands.i_ofDecimal (n : Int64) :
    (ofDecimal (.ofInt64 n)).i =
      if n.toInt.natAbs < pow10 window then n.toInt.natAbs
      else pow10 window + n.toInt.natAbs % pow10 window := by
  have hw := length_digits_le_iff (n := n.toInt.natAbs) (k := window) (by decide)
  simp only [ofDecimal, Decimal.ofInt64, pow10_zero, Nat.div_one]
  by_cases hn : n.toInt.natAbs < pow10 window
  · rw [if_pos hn, if_neg (Nat.not_lt.2 (hw.2 hn)), Nat.mod_eq_of_lt hn]
  · rw [if_neg hn, if_pos (Nat.lt_of_not_le fun h => hn (hw.1 h))]

/-- An integer and its decimal have operands that are alike. -/
theorem Operands.alike_ofInt64 (n : Int64) :
    (Operands.ofInt n.toInt).Alike (.ofDecimal (.ofInt64 n)) where
  v_eq := rfl
  whole_eq := by
    simp [Operands.ofInt, Operands.ofDecimal, Decimal.ofInt64, Nat.mod_one]
  i_eq := by
    have hw : pow10 window = 1000000000000000000 := rfl
    rw [Operands.i_ofDecimal, Operands.ofInt, hw]
    dsimp only
    split
    · exact .inl rfl
    · right
      omega

/-! ## categories -/

/-- In a language with rules an integer has the category of its decimal. -/
theorem category_eq_of_hasRules {l : Locale} (h : hasRules l = true) (n : Int64) :
    category l n = decimalCategory l (.ofInt64 n) := by
  obtain ⟨rule, hr⟩ := Option.isSome_iff_exists.1 h
  rw [category, decimalCategory, hr]
  exact (Operands.alike_ofInt64 n).rule_eq hr

/-- In a language without rules an integer is `one` for 1, its decimal for 1 and for -1. -/
theorem category_of_not_hasRules {l : Locale} (h : hasRules l = false) (n : Int64) :
    category l n = (if n.toInt = 1 then .one else .other) ∧
      decimalCategory l (.ofInt64 n) = if n.toInt.natAbs = 1 then .one else .other := by
  have hr : rule? l.language = none := by
    simpa [hasRules] using h
  have he : rule? "en" = some Rule.plainOne := rfl
  have hp := (Operands.alike_ofInt64 n).rule_eq he
  have h1 : n.toInt = 1 ↔ n = 1 := by
    rw [← Int64.toInt_inj]
    rfl
  rw [category, decimalCategory, hr, Option.getD_none, ← hp]
  simp [defaultCategory, Rule.plainOne, Operands.plain, Operands.ofInt, h1]

/-- An integer and its decimal have the same category in every locale and for every 64-bit
integer, but for -1 in a language without rules. -/
theorem category_eq_decimalCategory_iff (l : Locale) (n : Int64) :
    category l n = decimalCategory l (.ofInt64 n) ↔ hasRules l = true ∨ n ≠ -1 := by
  have hm : n = -1 ↔ n.toInt = -1 := by
    rw [← Int64.toInt_inj]
    rfl
  cases h : hasRules l with
  | true => simp [category_eq_of_hasRules h n]
  | false =>
    obtain ⟨hi, hd⟩ := category_of_not_hasRules h n
    rw [hi, hd, Ne, hm]
    by_cases h1 : n.toInt = 1
    · simp [h1]
    · rw [if_neg h1]
      by_cases h2 : n.toInt = -1
      · simp [h2]
      · have ha : n.toInt.natAbs ≠ 1 := by omega
        simp [h2, ha]

/-- In Hawaiian, which has no rules, -1 is `other` as an integer and `one` as a decimal. -/
theorem category_ne_decimalCategory_haw :
    ∃ l, Locale.parse "haw" = .ok l ∧ category l (-1) = .other ∧
      decimalCategory l (.ofInt64 (-1)) = .one := by
  have hl : (Locale.parse "haw").toOption.map hasRules = some false := by
    decide +kernel
  cases hp : Locale.parse "haw" with
  | error e =>
    rw [hp] at hl
    cases hl
  | ok l =>
    rw [hp] at hl
    obtain ⟨hi, hd⟩ := category_of_not_hasRules (Option.some.inj hl) (-1)
    exact ⟨l, rfl, hi, hd⟩

end Plural

end Phrasebook
