import Mathlib.Data.List.TakeWhile
import Phrasebook.Number.Decimal
import Phrasebook.Text.Letter

/-!
# Phrasebook.Proofs.Number.Numerals

Whole numbers as they are written: an optional sign and one or more digits.

Both readers of numbers take such a `Numeral`, and they agree on it but for the bounds
that each has.  `readInt64?` reads numerals only, namely those whose value fits into
64 bits (`readInt64?_eq_some_iff`), however many zeros stand in front.  `Decimal.read?`
takes a numeral of any value, but not one of more digits than a decimal has positions
(`Numeral.read?_text`).

The notation of a 64-bit integer is a numeral (`Numeral.text_ofInt`) with the integer's own
decimal (`Numeral.toDecimal_ofInt64`), also with blanks around it
(`Numeral.trimChars_text`).
-/

namespace Phrasebook.Number

/-! ## the length of numbers -/

/-- A number has at most `k` digits if it is less than the `k`-th power of ten. -/
theorem length_digits_le_iff {n k : Nat} (hk : 0 < k) : (digits n).length ≤ k ↔ n < pow10 k := by
  induction k generalizing n with
  | zero => exact absurd hk (Nat.lt_irrefl 0)
  | succ k ih =>
    have hp : 0 < pow10 k := pow10_pos k
    rw [pow10_succ]
    by_cases hn : n < 10
    · rw [digits_of_lt hn, List.length_singleton]
      omega
    · rw [digits_of_ge (Nat.le_of_not_lt hn), List.length_append, List.length_singleton]
      cases k with
      | zero =>
        have hl := List.length_pos_iff.2 (digits_ne_nil (n / 10))
        rw [pow10_zero]
        omega
      | succ k =>
        have h := ih (n := n / 10) (Nat.succ_pos k)
        omega

/-! ## numerals -/

/-- A whole number as it is written. -/
structure Numeral where
  sign : Sign
  digits : List Char
  digits_ne_nil : digits ≠ []
  isDigit : ∀ c ∈ digits, c.isDigit = true

/-- The value of digits after a sign. -/
def Sign.apply : Sign → Nat → Int
  | .negative, n => -(n : Int)
  | .unsigned, n | .positive, n => n

theorem Sign.natAbs_apply (sign : Sign) (n : Nat) : (sign.apply n).natAbs = n := by
  cases sign <;> simp [Sign.apply]

theorem Sign.apply_mul (sign : Sign) (n k : Nat) : sign.apply (n * k) = sign.apply n * k := by
  cases sign <;> simp only [Sign.apply, Int.natCast_mul, Int.neg_mul]

theorem Sign.natAbs_apply_sub_apply (sign : Sign) (n k : Nat) :
    (sign.apply n - sign.apply k).natAbs = ((n : Int) - k).natAbs := by
  cases sign <;> simp only [Sign.apply]
  all_goals omega

/-- The value of a decimal without its point. -/
def Decimal.scaled (d : Decimal) : Int := d.sign.apply d.coefficient

/-- A decimal is a whole number. -/
def Decimal.Is (d : Decimal) (n : Int) : Prop := d.scaled = n * pow10 d.fraction

instance (d : Decimal) (n : Int) : Decidable (d.Is n) :=
  inferInstanceAs (Decidable (d.scaled = n * pow10 d.fraction))

namespace Numeral

/-- The characters of a numeral. -/
def text (m : Numeral) : List Char := (Decimal.signText m.sign).toList ++ m.digits

/-- The number written. -/
def value (m : Numeral) : Int := m.sign.apply (ofDigits m.digits)

/-- The decimal written. -/
def toDecimal (m : Numeral) : Decimal := ⟨m.sign, ofDigits m.digits, m.digits.length, 0⟩

/-- A numeral without leading zeros. -/
def ofNat (sign : Sign) (n : Nat) : Numeral :=
  ⟨sign, Number.digits n, Number.digits_ne_nil n, fun _ => isDigit_of_mem_digits⟩

/-- Zeros alone: one, and `k` in front of it. -/
def zeros (k : Nat) : Numeral where
  sign := .unsigned
  digits := List.replicate (k + 1) '0'
  digits_ne_nil := by simp
  isDigit := by simp

/-- The numeral of an integer. -/
def ofInt (n : Int) : Numeral := ofNat (if n < 0 then .negative else .unsigned) n.natAbs

theorem toDecimal_is (m : Numeral) : m.toDecimal.Is m.value := by
  simp [Decimal.Is, Decimal.scaled, toDecimal, value]

/-- The digits after the sign start with a digit. -/
theorem exists_digits_eq_cons (m : Numeral) :
    ∃ c rest, m.digits = c :: rest ∧ c.isDigit = true := by
  obtain ⟨c, rest, h⟩ := List.exists_cons_of_ne_nil m.digits_ne_nil
  exact ⟨c, rest, h, m.isDigit c (h ▸ List.mem_cons_self)⟩

theorem readNat?_digits (m : Numeral) : readNat? m.digits = some (ofDigits m.digits) := by
  have hd : m.digits.all Char.isDigit = true := List.all_eq_true.2 m.isDigit
  have hn : m.digits.isEmpty = false := List.isEmpty_eq_false_iff.2 m.digits_ne_nil
  simp [readNat?, hd, hn]

theorem text_eq (m : Numeral) :
    m.text =
      match m.sign with
      | .unsigned => m.digits
      | .negative => '-' :: m.digits
      | .positive => '+' :: m.digits := by
  unfold text
  cases m.sign <;> simp [Decimal.signText]

/-! ## reading 64-bit integers -/

/-- The value of a numeral, if it fits into 64 bits. -/
theorem readInt64?_text (m : Numeral) :
    readInt64? m.text =
      if -(pow2 63 : Int) ≤ m.value ∧ m.value < pow2 63 then some (Int64.ofInt m.value)
      else none := by
  have hr := m.readNat?_digits
  rw [text_eq]
  cases hs : m.sign with
  | negative =>
    have hv : -(ofDigits m.digits : Int) = m.value := by rw [value, hs, Sign.apply]
    rw [readInt64?, hr]
    change Option.bind (some (-(ofDigits m.digits : Int))) _ = _
    rw [hv, Option.bind_some]
  | positive =>
    have hv : (ofDigits m.digits : Int) = m.value := by rw [value, hs, Sign.apply]
    rw [readInt64?, hr]
    change Option.bind (some (ofDigits m.digits : Int)) _ = _
    rw [hv, Option.bind_some]
  | unsigned =>
    have hv : (ofDigits m.digits : Int) = m.value := by rw [value, hs, Sign.apply]
    obtain ⟨c, rest, hd, hc⟩ := m.exists_digits_eq_cons
    unfold readInt64?
    split
    · next h =>
      cases hd.symm.trans h
      cases hc
    · next h =>
      cases hd.symm.trans h
      cases hc
    · rw [hr]
      change Option.bind (some (ofDigits m.digits : Int)) _ = _
      rw [hv, Option.bind_some]

end Numeral

/-- What is read as a number is a row of digits. -/
theorem exists_numeral_of_readNat? {s : List Char} {n : Nat} (h : readNat? s = some n)
    (sign : Sign) : ∃ m : Numeral, m.sign = sign ∧ m.digits = s := by
  unfold readNat? at h
  split at h
  · cases h
  · next hs =>
    simp only [Bool.or_eq_true, Bool.not_eq_true', not_or, Bool.not_eq_true, Bool.not_eq_false,
      List.isEmpty_eq_false_iff, List.all_eq_true] at hs
    exact ⟨⟨sign, s, hs.1, hs.2⟩, rfl, rfl⟩

/-- What is read as a 64-bit integer is a numeral. -/
theorem exists_numeral_of_readInt64? {s : List Char} {n : Int64} (h : readInt64? s = some n) :
    ∃ m : Numeral, m.text = s := by
  unfold readInt64? at h
  split at h
  · next s =>
    obtain ⟨_, hn, _⟩ := Option.bind_eq_some_iff.1 h
    obtain ⟨_, hn, _⟩ := Option.map_eq_some_iff.1 hn
    obtain ⟨k, hk, -⟩ := Option.bind_eq_some_iff.1 hn
    obtain ⟨m, hs, hd⟩ := exists_numeral_of_readNat? hk .negative
    exact ⟨m, by rw [m.text_eq, hs, hd]⟩
  · next s =>
    obtain ⟨_, hn, _⟩ := Option.bind_eq_some_iff.1 h
    obtain ⟨k, hk, -⟩ := Option.map_eq_some_iff.1 hn
    obtain ⟨m, hs, hd⟩ := exists_numeral_of_readNat? hk .positive
    exact ⟨m, by rw [m.text_eq, hs, hd]⟩
  · obtain ⟨_, hn, _⟩ := Option.bind_eq_some_iff.1 h
    obtain ⟨k, hk, -⟩ := Option.map_eq_some_iff.1 hn
    obtain ⟨m, hs, hd⟩ := exists_numeral_of_readNat? hk .unsigned
    exact ⟨m, by rw [m.text_eq, hs, hd]⟩

/-- A text is read as a 64-bit integer exactly if it is a numeral of its value. -/
theorem readInt64?_eq_some_iff {s : List Char} {n : Int64} :
    readInt64? s = some n ↔ ∃ m : Numeral, m.text = s ∧ m.value = n.toInt := by
  have hb : ∀ k : Int, -(pow2 63 : Int) ≤ k → k < pow2 63 → (Int64.ofInt k).toInt = k :=
    fun k hk hk' => Int64.toInt_ofInt_of_le hk hk'
  constructor
  · intro h
    obtain ⟨m, rfl⟩ := exists_numeral_of_readInt64? h
    rw [m.readInt64?_text] at h
    split at h
    · next hm =>
      cases h
      exact ⟨m, rfl, (hb m.value hm.1 hm.2).symm⟩
    · cases h
  · rintro ⟨m, rfl, hm⟩
    have hlo : -(pow2 63 : Int) ≤ n.toInt := n.le_toInt
    have hhi : n.toInt < pow2 63 := n.toInt_lt
    rw [m.readInt64?_text, hm, if_pos ⟨hlo, hhi⟩, Int64.ofInt_toInt]

/-! ## reading decimals -/

namespace Numeral

theorem readWritten?_digits (m : Numeral) :
    Decimal.readWritten? m.digits = some ⟨m.digits, [], none⟩ := by
  have ht := List.takeWhile_eq_self_iff.2 m.isDigit
  have hd := List.dropWhile_eq_nil_iff.2 m.isDigit
  have hn : m.digits.isEmpty = false := List.isEmpty_eq_false_iff.2 m.digits_ne_nil
  simp [Decimal.readWritten?, ht, hd, hn]

/-- A numeral is read as its decimal, unless it has more digits than there are positions. -/
theorem read?_text (m : Numeral) :
    Decimal.read? m.text =
      if m.digits.length ≤ Decimal.highest + 1 then some m.toDecimal else none := by
  have hl := List.length_pos_iff.2 m.digits_ne_nil
  have hw := m.readWritten?_digits
  have hmax : max 1 m.digits.length = m.digits.length := Nat.max_eq_right hl
  have hif : (Decimal.highest < m.digits.length - 1 ∨ Decimal.lowest < 0) ↔
      ¬ m.digits.length ≤ Decimal.highest + 1 := by omega
  rw [text_eq]
  cases hs : m.sign with
  | negative =>
    simp only [Decimal.read?, hw, Option.bind_some, List.length_nil, List.append_nil, hmax, hif,
      ite_not, toDecimal, hs]
  | positive =>
    simp only [Decimal.read?, hw, Option.bind_some, List.length_nil, List.append_nil, hmax, hif,
      ite_not, toDecimal, hs]
  | unsigned =>
    obtain ⟨c, rest, hd, hc⟩ := m.exists_digits_eq_cons
    unfold Decimal.read?
    split
    next hm =>
    split at hm
    · next h =>
      cases hd.symm.trans h
      cases hc
    · next h =>
      cases hd.symm.trans h
      cases hc
    · cases hm
      simp only [hw, Option.bind_some, List.length_nil, List.append_nil, hmax, hif, ite_not,
        toDecimal, hs]

/-! ## blanks around numerals -/

/-- No character of a numeral is a blank. -/
theorem not_isBlank_of_mem_text {m : Numeral} {c : Char} (h : c ∈ m.text) :
    Text.isBlank c = false := by
  rw [text_eq] at h
  cases hs : m.sign <;> simp only [hs, List.mem_cons] at h
  · exact Text.isBlank_of_isDigit (m.isDigit c h)
  · rcases h with rfl | h
    · decide
    · exact Text.isBlank_of_isDigit (m.isDigit c h)
  · rcases h with rfl | h
    · decide
    · exact Text.isBlank_of_isDigit (m.isDigit c h)

/-- Trimming takes the blanks around a numeral away, and no more. -/
theorem trimChars_text (m : Numeral) {before after : List Char}
    (hb : ∀ c ∈ before, Text.isBlank c = true) (ha : ∀ c ∈ after, Text.isBlank c = true) :
    Text.trimChars (before ++ m.text ++ after) = m.text := by
  rw [Text.trimChars_append hb ha]
  exact Text.trimChars_eq_self fun c hc => not_isBlank_of_mem_text hc

/-! ## the numerals of integers -/

theorem value_ofNat (sign : Sign) (n : Nat) : (ofNat sign n).value = sign.apply n := by
  rw [value, ofNat, ofDigits_digits]

/-- The notation of an integer is a numeral. -/
theorem text_ofInt (n : Int) : (ofInt n).text = (renderInt n).toList := by
  rw [text_eq]
  by_cases hn : n < 0
  · rw [toList_renderInt_of_neg hn]
    simp [ofInt, ofNat, hn]
  · rw [toList_renderInt_of_nonneg (Int.not_lt.1 hn)]
    simp [ofInt, ofNat, hn]

theorem value_ofInt (n : Int) : (ofInt n).value = n := by
  rw [ofInt, value_ofNat]
  split <;> simp only [Sign.apply] <;> omega

theorem value_zeros (k : Nat) : (zeros k).value = 0 := by
  have h : ofDigits (List.replicate (k + 1) '0') = 0 := by
    induction k with
    | zero => rfl
    | succ k ih => rw [List.replicate_succ', ofDigits_append_singleton, ih]; rfl
  simp [value, zeros, h, Sign.apply]

/-- A 64-bit integer has up to 19 digits. -/
theorem length_digits_ofInt64 (n : Int64) : (ofInt n.toInt).digits.length ≤ 19 := by
  have hlo : -(2 ^ 63 : Int) ≤ n.toInt := n.le_toInt
  have hhi : n.toInt < 2 ^ 63 := n.toInt_lt
  have hp : pow10 19 = 10000000000000000000 := rfl
  refine (length_digits_le_iff (by decide)).2 ?_
  rw [hp]
  omega

/-- The decimal written by the notation of an integer is the integer's own. -/
theorem toDecimal_ofInt64 (n : Int64) : (ofInt n.toInt).toDecimal = .ofInt64 n := by
  simp only [toDecimal, ofInt, ofNat, Decimal.ofInt64, ofDigits_digits]

end Numeral

end Phrasebook.Number
