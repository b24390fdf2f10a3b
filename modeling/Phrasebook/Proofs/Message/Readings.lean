import Phrasebook.Message
import Phrasebook.Proofs.Number.Whole

/-!
# Phrasebook.Proofs.Message.Readings

The two numbers that a value is read as: its exact integer and its quantity.

They are read by different ways, an integer from the bits of a float and from the digits
of a text, a quantity from the text of either.  Where a value has an exact integer it has
a quantity too, with a single exception: a text of more digits than a decimal has positions
(`Value.Overlong`, `exactInteger?_and_no_quantity_iff`).

The two are the same number for integers and texts.  The quantity of a float is what its
shortest text says, so it is near the exact integer, and the same below `2 ^ 54`
(`Value.Agrees`); from there on the two can differ.
-/

namespace Phrasebook

open Phrasebook.Number (Double Decimal Numeral Writes pow2)

/-! ## integers in floats -/

namespace Number.Double

/-- The integer part of a float. -/
def integer (x : Double) : Int := x.sign.apply x.integerPart

/-- The integer part of a float is a 64-bit integer. -/
def FitsInt64 (x : Double) : Prop := -(pow2 63 : Int) ≤ x.integer ∧ x.integer < pow2 63

theorem integer_eq (x : Double) :
    x.integer = if x.isNegative then -((x.units / one : Nat) : Int) else (x.units / one : Nat) := by
  rw [integer, sign, integerPart]
  cases x.isNegative <;> rfl

/-- Nothing is clamped where the integer part fits. -/
theorem toInt_toInt64Clamped {x : Double} (h : x.FitsInt64) :
    x.toInt64Clamped.toInt = x.integer := by
  have hmax : max (-(pow2 63 : Int)) (min x.integer (pow2 63 - 1)) = x.integer := by
    obtain ⟨hlo, hhi⟩ := h
    omega
  rw [toInt64Clamped, ← integer_eq, hmax]
  exact Int64.toInt_ofInt_of_le h.1 h.2

/-- A whole float is its integer part. -/
theorem signedUnits_of_isWhole {x : Double} (h : x.isWhole = true) :
    x.signedUnits = x.integer * one := by
  have hs : x.signedUnits = x.sign.apply x.units := by
    rw [signedUnits, sign]
    cases x.isNegative <;> rfl
  rw [hs, units_of_isWhole h, Sign.apply_mul, integer]

end Number.Double

namespace Value

/-! ## what values are -/

/-- A value is an integer: as it is, as a float of that value, or written. -/
def Equals (v : Value) (n : Int) : Prop :=
  match v with
  | .integer k => k.toInt = n
  | .float x => x.isFinite = true ∧ x.signedUnits = n * Double.one
  | .text s => ∃ m : Numeral, m.text = Text.trimChars s.toList ∧ m.value = n
  | .message _ => False

/-- A text writes a 64-bit integer with more digits than a decimal has positions. -/
def Overlong (v : Value) (n : Int64) : Prop :=
  ∃ s, ∃ m : Numeral, v = .text s ∧ m.text = Text.trimChars s.toList ∧ m.value = n.toInt ∧
    Decimal.highest + 1 < m.digits.length

/-- A quantity agrees with an exact integer: it is the same number; or it is that of a float
from `2 ^ 54` on, and within one part in `2 ^ 53` of it. -/
def Agrees (v : Value) (d : Decimal) (n : Int) : Prop :=
  d.Is n ∨
    (∃ x, v = .float x) ∧ pow2 54 ≤ n.natAbs ∧
      d.fraction = 0 ∧ pow2 53 * (d.scaled - n).natAbs ≤ n.natAbs

/-! ## texts -/

theorem exactInteger?_text {s : String} {n : Int64} :
    (text s).exactInteger? = some n ↔
      ∃ m : Numeral, m.text = Text.trimChars s.toList ∧ m.value = n.toInt :=
  Number.readInt64?_eq_some_iff

theorem quantity?_text {s : String} {m : Numeral} (h : m.text = Text.trimChars s.toList) :
    (text s).quantity? =
      if m.digits.length ≤ Decimal.highest + 1 then some m.toDecimal else none := by
  rw [quantity?, ← h, m.read?_text]

/-- The notation of an integer is read like the integer, with blanks around it too. -/
theorem readings_text_eq (n : Int64) {before after : List Char}
    (hb : ∀ c ∈ before, Text.isBlank c = true) (ha : ∀ c ∈ after, Text.isBlank c = true) :
    (text (String.ofList (before ++ (integer n).display.toList ++ after))).exactInteger? =
        (integer n).exactInteger? ∧
      (text (String.ofList (before ++ (integer n).display.toList ++ after))).quantity? =
        (integer n).quantity? := by
  have ht : (Numeral.ofInt n.toInt).text = Text.trimChars
      (String.ofList (before ++ (integer n).display.toList ++ after)).toList := by
    rw [String.toList_ofList, display, ← Numeral.text_ofInt, Numeral.trimChars_text _ hb ha]
  have hl : (Numeral.ofInt n.toInt).digits.length ≤ Decimal.highest + 1 :=
    Nat.le_trans (Numeral.length_digits_ofInt64 n) (by decide)
  constructor
  · exact exactInteger?_text.2 ⟨_, ht, Numeral.value_ofInt n.toInt⟩
  · rw [quantity?_text ht, if_pos hl, Numeral.toDecimal_ofInt64, quantity?]

/-! ## floats -/

theorem quantity?_of_isWhole {x : Double} (h : x.isWhole = true) :
    ∃ n, (float x).quantity? = some (Numeral.ofNat x.sign n).toDecimal ∧
      Writes n x.integerPart := by
  rw [quantity?, if_pos (Double.isFinite_of_isWhole h)]
  exact Double.exists_read?_render_of_isWhole h

/-- The number that a float is written as agrees with it, sign and all. -/
theorem agrees_of_writes {x : Double} {n : Nat} (h : Writes n x.integerPart) :
    (float x).Agrees (Numeral.ofNat x.sign n).toDecimal x.integer := by
  have hd := (Numeral.ofNat x.sign n).toDecimal_is
  rw [Numeral.value_ofNat] at hd
  by_cases hlt : x.integerPart < pow2 54
  · left
    rwa [Double.integer, ← h.eq_of_lt hlt]
  · right
    have hs : (Numeral.ofNat x.sign n).toDecimal.scaled = x.sign.apply n := by
      simpa [Decimal.Is, Numeral.toDecimal] using hd
    refine ⟨⟨x, rfl⟩, ?_, rfl, ?_⟩
    · rw [Double.integer, Number.Sign.natAbs_apply]
      exact Nat.le_of_not_lt hlt
    · rw [hs, Double.integer, Number.Sign.natAbs_apply_sub_apply, Number.Sign.natAbs_apply]
      exact h.near

/-! ## both readings -/

/-- A value with an exact integer has a quantity, unless the integer is written too long. -/
theorem exactInteger?_and_no_quantity_iff (v : Value) (n : Int64) :
    v.exactInteger? = some n ∧ v.quantity? = none ↔ v.Overlong n := by
  constructor
  · rintro ⟨hn, hq⟩
    cases v with
    | integer k => cases hq
    | message segments => cases hn
    | float x =>
      rw [exactInteger?] at hn
      split at hn
      · next hw =>
        obtain ⟨k, hk, -⟩ := quantity?_of_isWhole hw
        rw [hk] at hq
        cases hq
      · cases hn
    | text s =>
      obtain ⟨m, hm, hv⟩ := exactInteger?_text.1 hn
      rw [quantity?_text hm] at hq
      split at hq
      · cases hq
      · next hl => exact ⟨s, m, rfl, hm, hv, Nat.lt_of_not_le hl⟩
  · rintro ⟨s, m, rfl, hm, hv, hl⟩
    exact ⟨exactInteger?_text.2 ⟨m, hm, hv⟩, by rw [quantity?_text hm, if_neg (Nat.not_le.2 hl)]⟩

/-- Zeros alone can be written too long. -/
theorem overlong_zeros {k : Nat} (h : Decimal.highest < k) :
    (text (String.ofList (Numeral.zeros k).text)).Overlong 0 := by
  refine ⟨_, Numeral.zeros k, rfl, ?_, Numeral.value_zeros k, ?_⟩
  · have ht : Text.trimChars ([] ++ (Numeral.zeros k).text ++ []) = (Numeral.zeros k).text :=
      (Numeral.zeros k).trimChars_text (by simp) (by simp)
    rw [String.toList_ofList]
    simpa using ht.symm
  · simpa [Numeral.zeros] using h

section

variable {v : Value} {n : Int64}

/-- The exact integer of a value is what the value is, if it is not a finite float out of
range. -/
theorem equals_of_exactInteger? (h : v.exactInteger? = some n)
    (hf : ∀ x, v = .float x → x.isFinite = true → x.FitsInt64) : v.Equals n.toInt := by
  cases v with
  | integer k =>
    cases h
    rfl
  | message segments => cases h
  | text s => exact exactInteger?_text.1 h
  | float x =>
    rw [exactInteger?] at h
    split at h
    · next hw =>
      cases h
      rw [Double.toInt_toInt64Clamped (hf x rfl (Double.isFinite_of_isWhole hw))]
      exact ⟨Double.isFinite_of_isWhole hw, Double.signedUnits_of_isWhole hw⟩
    · cases h

/-- The quantity of a value agrees with its exact integer, if it is neither a finite float out
of range nor a text that is too long. -/
theorem exists_agrees_of_exactInteger? (h : v.exactInteger? = some n)
    (hf : ∀ x, v = .float x → x.isFinite = true → x.FitsInt64) (hl : ¬ v.Overlong n) :
    ∃ d, v.quantity? = some d ∧ v.Agrees d n.toInt := by
  cases v with
  | message segments => cases h
  | integer _ =>
    cases h
    refine ⟨_, rfl, .inl ?_⟩
    have hd := (Numeral.ofInt n.toInt).toDecimal_is
    rwa [Numeral.toDecimal_ofInt64, Numeral.value_ofInt] at hd
  | text s =>
    obtain ⟨m, hm, hv⟩ := exactInteger?_text.1 h
    have hlen : m.digits.length ≤ Decimal.highest + 1 := by
      by_contra hlen
      exact hl ⟨s, m, rfl, hm, hv, Nat.lt_of_not_le hlen⟩
    exact ⟨m.toDecimal, by rw [quantity?_text hm, if_pos hlen], .inl (hv ▸ m.toDecimal_is)⟩
  | float x =>
    rw [exactInteger?] at h
    split at h
    · next hw =>
      cases h
      obtain ⟨k, hk, hwrites⟩ := quantity?_of_isWhole hw
      rw [Double.toInt_toInt64Clamped (hf x rfl (Double.isFinite_of_isWhole hw))]
      exact ⟨_, hk, agrees_of_writes hwrites⟩
    · cases h

end

/-- The first whole float that is written as another number than it is. -/
theorem quantity?_ne_exactInteger? :
    (float ⟨0x4350000000000002⟩).exactInteger? = some 18014398509481992 ∧
      (float ⟨0x4350000000000002⟩).quantity? = some ⟨.unsigned, 18014398509481990, 17, 0⟩ ∧
      ¬ Decimal.Is ⟨.unsigned, 18014398509481990, 17, 0⟩ 18014398509481992 := by
  decide +kernel

end Value

end Phrasebook
