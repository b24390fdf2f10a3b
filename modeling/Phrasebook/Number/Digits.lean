import Phrasebook.Number.Power
/-!
# Phrasebook.Number.Digits

Decimal digits of natural numbers, and the two integer types that template text
can name: positions (64-bit, unsigned) and exact selectors (64-bit, signed).

* `digits n` is the usual notation, without leading zeros, `0` for zero;
* `ofDigits` is its inverse on any row of digits (`ofDigits_digits`);
* `readUInt64?` and `readInt64?` accept an optional sign and one or more digits,
  and fail when the number does not fit; they read what `digits` and `renderInt`
  write.
-/

namespace Phrasebook.Number

/-- The value of a digit character. -/
def digitValue (c : Char) : Nat := c.toNat - '0'.toNat

/-- The character of a digit below ten. -/
def digitChar (d : Nat) : Char := Char.ofNat ('0'.toNat + d)

/-- The decimal notation of a number in front of a text. -/
def digitsOnto (n : Nat) (rest : List Char) : List Char :=
  if n < 10 then digitChar n :: rest else digitsOnto (n / 10) (digitChar (n % 10) :: rest)
termination_by n

/-- The decimal notation of a number. -/
def digits (n : Nat) : List Char := digitsOnto n []

/-- The number that a row of digits denotes. -/
def ofDigits (s : List Char) : Nat := s.foldl (fun n c => 10 * n + digitValue c) 0

/-- The decimal notation of a number as a string. -/
def render (n : Nat) : String := String.ofList (digits n)

/-- The decimal notation of an integer, with a minus sign if it is negative. -/
def renderInt (n : Int) : String :=
  if n < 0 then "-" ++ render n.natAbs else render n.natAbs

/-! ## reading -/

/-- The number written by one or more digits and nothing else. -/
def readNat? (s : List Char) : Option Nat :=
  if s.isEmpty || !s.all Char.isDigit then none else some (ofDigits s)

/-- A 64-bit unsigned number: an optional plus sign and digits. -/
def readUInt64? (s : List Char) : Option UInt64 :=
  let digits :=
    match s with
    | '+' :: s => s
    | s => s
  (readNat? digits).bind fun n => if n < pow2 64 then some (UInt64.ofNat n) else none

/-- A 64-bit signed number: an optional sign and digits. -/
def readInt64? (s : List Char) : Option Int64 :=
  let signed : Option Int :=
    match s with
    | '-' :: s => (readNat? s).map fun n => -(n : Int)
    | '+' :: s => (readNat? s).map Int.ofNat
    | s => (readNat? s).map Int.ofNat
  signed.bind fun n => if -(pow2 63 : Int) ≤ n ∧ n < pow2 63 then some (Int64.ofInt n) else none

/-! ## digits and values -/

theorem digitChar_isDigit {d : Nat} (h : d < 10) : (digitChar d).isDigit = true := by
  have : ∀ d : Fin 10, (digitChar d).isDigit = true := by decide
  exact this ⟨d, h⟩

theorem digitValue_digitChar {d : Nat} (h : d < 10) : digitValue (digitChar d) = d := by
  have : ∀ d : Fin 10, digitValue (digitChar d) = d := by decide
  exact this ⟨d, h⟩

theorem ofDigits_append_singleton (s : List Char) (c : Char) :
    ofDigits (s ++ [c]) = 10 * ofDigits s + digitValue c := by
  simp [ofDigits, List.foldl_append]

theorem digitsOnto_eq (n : Nat) (rest : List Char) : digitsOnto n rest = digits n ++ rest := by
  induction n using Nat.strongRecOn generalizing rest with
  | _ n ih =>
    unfold digits digitsOnto
    split
    · rfl
    · rw [ih (n / 10) (by omega), ih (n / 10) (by omega) [_]]
      simp

theorem digits_of_lt {n : Nat} (h : n < 10) : digits n = [digitChar n] := by
  simp [digits, digitsOnto, h]

theorem digits_of_ge {n : Nat} (h : 10 ≤ n) :
    digits n = digits (n / 10) ++ [digitChar (n % 10)] := by
  rw [← digitsOnto_eq, digits, digitsOnto, if_neg (by omega)]

theorem digits_ne_nil (n : Nat) : digits n ≠ [] := by
  by_cases h : n < 10
  · simp [digits_of_lt h]
  · simp [digits_of_ge (Nat.le_of_not_lt h)]

theorem isDigit_of_mem_digits {n : Nat} {c : Char} (h : c ∈ digits n) : c.isDigit = true := by
  induction n using Nat.strongRecOn with
  | _ n ih =>
    by_cases hn : n < 10
    · rw [digits_of_lt hn, List.mem_singleton] at h
      subst h
      exact digitChar_isDigit hn
    · rw [digits_of_ge (Nat.le_of_not_lt hn), List.mem_append, List.mem_singleton] at h
      rcases h with h | rfl
      · exact ih (n / 10) (by omega) h
      · exact digitChar_isDigit (by omega)

/-- Reading the notation of a number gives the number. -/
@[simp] theorem ofDigits_digits (n : Nat) : ofDigits (digits n) = n := by
  induction n using Nat.strongRecOn with
  | _ n ih =>
    by_cases hn : n < 10
    · simp [digits_of_lt hn, ofDigits, digitValue_digitChar hn]
    · rw [digits_of_ge (Nat.le_of_not_lt hn), ofDigits_append_singleton, ih (n / 10) (by omega),
        digitValue_digitChar (by omega)]
      omega

@[simp] theorem readNat?_digits (n : Nat) : readNat? (digits n) = some n := by
  have hd : (digits n).all Char.isDigit = true :=
    List.all_eq_true.2 fun _ h => isDigit_of_mem_digits h
  simp [readNat?, hd, digits_ne_nil]

theorem digits_ne_cons {n : Nat} {c : Char} (h : c.isDigit = false) (s : List Char) :
    digits n ≠ c :: s := by
  intro he
  have hc : c.isDigit = true := isDigit_of_mem_digits (by rw [he]; exact List.mem_cons_self)
  rw [h] at hc
  cases hc

theorem toList_renderInt_of_neg {n : Int} (h : n < 0) :
    (renderInt n).toList = '-' :: digits n.natAbs := by
  rw [renderInt, if_pos h, String.toList_append, render, String.toList_ofList]
  simp

theorem toList_renderInt_of_nonneg {n : Int} (h : 0 ≤ n) :
    (renderInt n).toList = digits n.natAbs := by
  rw [renderInt, if_neg (Int.not_lt.2 h), render, String.toList_ofList]

/-- Reading the notation of a position gives the position. -/
@[simp] theorem readUInt64?_digits (i : UInt64) : readUInt64? (digits i.toNat) = some i := by
  have hi : i.toNat < pow2 64 := i.toNat_lt
  unfold readUInt64?
  split
  · next h => exact absurd h (digits_ne_cons rfl _)
  · simp [hi]

/-- Reading the notation of an exact selector gives its number. -/
@[simp] theorem readInt64?_renderInt (n : Int64) :
    readInt64? (renderInt n.toInt).toList = some n := by
  have hlo : -(pow2 63 : Int) ≤ n.toInt := n.le_toInt
  have hhi : n.toInt < pow2 63 := n.toInt_lt
  rcases Int.lt_or_le n.toInt 0 with hn | hn
  · have ha : -(n.toInt.natAbs : Int) = n.toInt := by
      rw [Int.ofNat_natAbs_of_nonpos (Int.le_of_lt hn), Int.neg_neg]
    rw [toList_renderInt_of_neg hn, readInt64?, readNat?_digits]
    change (if -(pow2 63 : Int) ≤ -(n.toInt.natAbs : Int) ∧ -(n.toInt.natAbs : Int) < pow2 63 then
      some (Int64.ofInt (-(n.toInt.natAbs : Int))) else none) = some n
    rw [ha, if_pos ⟨hlo, hhi⟩, Int64.ofInt_toInt]
  · have ha : (n.toInt.natAbs : Int) = n.toInt := Int.natAbs_of_nonneg hn
    rw [toList_renderInt_of_nonneg hn]
    unfold readInt64?
    split
    · next h => exact absurd h (digits_ne_cons rfl _)
    · next h => exact absurd h (digits_ne_cons rfl _)
    · rw [readNat?_digits, Option.map_some, Option.bind_some, Int.ofNat_eq_natCast, ha,
        if_pos ⟨hlo, hhi⟩, Int64.ofInt_toInt]

end Phrasebook.Number
