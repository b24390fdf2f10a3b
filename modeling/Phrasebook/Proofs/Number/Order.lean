import Phrasebook.Number.Double

/-!
# Phrasebook.Proofs.Number.Order

Floats in the order of their words and in the order of their values.

The total order tells any two words apart (`orderKey_inj`).  Where neither number is negative
it is the order of the values (`orderKey_lt_iff`): a larger exponent field begins where the
smaller ones end (`units_lt_field`, `field_le_units`), and within one field the significand
grows with the word.
-/

namespace Phrasebook.Number.Double

variable {x y : Double}

/-- Words of the same place in the total order are the same. -/
theorem orderKey_inj : x.orderKey = y.orderKey ↔ x = y := by
  refine ⟨fun h => ?_, congrArg orderKey⟩
  have hp : pow2 63 = 9223372036854775808 := rfl
  have hx := x.bits.toNat_lt
  have hy := y.bits.toNat_lt
  have hb : x.bits.toNat = y.bits.toNat := by
    simp only [orderKey, isNegative, magnitude, hp, decide_eq_true_eq] at h
    split at h <;> split at h <;> omega
  exact congrArg Double.mk (UInt64.toNat_inj.1 hb)

/-- The numbers of a field end below where the next one begins. -/
theorem units_lt_field (x : Double) : x.units < pow2 52 * pow2 x.field := by
  rw [units, significand, shift]
  cases hf : x.field with
  | zero =>
    have hm := Nat.mod_lt x.magnitude (pow2_pos 52)
    simpa using hm
  | succ f =>
    have hm := Nat.mod_lt x.magnitude (pow2_pos 52)
    have hs : pow2 52 + x.magnitude % pow2 52 < pow2 52 * 2 := by omega
    rw [if_neg (Nat.succ_ne_zero f), Nat.add_sub_cancel, pow2_succ f, Nat.mul_comm (pow2 f),
      ← Nat.mul_assoc]
    exact Nat.mul_lt_mul_of_pos_right hs (pow2_pos f)

/-- The numbers of a field begin at a power of two, those of the first field apart. -/
theorem field_le_units (hf : 0 < x.field) : pow2 52 * pow2 (x.field - 1) ≤ x.units := by
  rw [units, significand, shift, if_neg (Nat.ne_of_gt hf)]
  exact Nat.mul_le_mul_right _ (Nat.le_add_right _ _)

/-- A larger magnitude is one of more units. -/
theorem units_lt_units (h : x.magnitude < y.magnitude) : x.units < y.units := by
  have hle : x.field ≤ y.field := Nat.div_le_div_right (Nat.le_of_lt h)
  rcases Nat.lt_or_eq_of_le hle with hlt | heq
  · have hpow : pow2 x.field ≤ pow2 (y.field - 1) := Nat.pow_le_pow_right (by decide) (by omega)
    calc x.units
        < pow2 52 * pow2 x.field := x.units_lt_field
      _ ≤ pow2 52 * pow2 (y.field - 1) := Nat.mul_le_mul_left _ hpow
      _ ≤ y.units := field_le_units (by omega)
  · have hx : pow2 52 * x.field + x.magnitude % pow2 52 = x.magnitude := Nat.div_add_mod _ _
    have hy : pow2 52 * y.field + y.magnitude % pow2 52 = y.magnitude := Nat.div_add_mod _ _
    have hs : x.significand < y.significand := by
      rw [significand, significand, heq]
      rw [heq] at hx
      split <;> omega
    rw [units, units, shift, shift, heq]
    exact Nat.mul_lt_mul_of_pos_right hs (pow2_pos _)

theorem units_lt_units_iff : x.units < y.units ↔ x.magnitude < y.magnitude := by
  refine ⟨fun h => ?_, units_lt_units⟩
  rcases Nat.lt_trichotomy x.magnitude y.magnitude with hlt | heq | hgt
  · exact hlt
  · have hf : x.field = y.field := by rw [field, field, heq]
    have hu : x.units = y.units := by
      rw [units, units, significand, significand, shift, shift, hf, heq]
    omega
  · have hu := units_lt_units hgt
    omega

/-- Of numbers that are not negative the smaller value stands in front. -/
theorem orderKey_lt_iff (hx : x.isNegative = false) (hy : y.isNegative = false) :
    x.orderKey < y.orderKey ↔ lt x y = true := by
  simp [orderKey, lt, signedUnits, hx, hy, units_lt_units_iff]

end Phrasebook.Number.Double
