/-!
# Phrasebook.Proofs.Text.ByteOrder

Strings in the order of their bytes.

UTF-8 keeps the order of code points: of two characters the smaller one has the smaller
bytes, whatever follows (`encoded_append_lt`).  So strings compare by their bytes as they do
character by character (`bytes_lt_iff`), and a map that is sorted by its keys is sorted in
byte order.
-/

namespace Phrasebook.Text

/-- The bytes of a string in UTF-8. -/
def bytes (s : String) : List UInt8 := s.toUTF8.data.toList

theorem bytes_eq_flatMap (s : String) : bytes s = s.toList.flatMap String.utf8EncodeChar := by
  rw [bytes, String.toUTF8, ← String.utf8Encode_toList, List.utf8Encode,
    List.data_toByteArray]

/-! ## characters -/

/-- Bytes stand before others if the first is smaller. -/
theorem ofNat_cons_lt_of_lt {m n : Nat} (hn : n < 256) (h : m < n) (s t : List UInt8) :
    UInt8.ofNat m :: s < UInt8.ofNat n :: t := by
  rw [List.cons_lt_cons_iff, UInt8.lt_iff_toNat_lt, UInt8.toNat_ofNat', UInt8.toNat_ofNat']
  left
  omega

/-- Bytes stand before others if the first is no greater, and where it is the same what follows
stands before. -/
theorem ofNat_cons_lt {m n : Nat} (hn : n < 256) (hle : m ≤ n) {s t : List UInt8}
    (h : m = n → s < t) : UInt8.ofNat m :: s < UInt8.ofNat n :: t := by
  rcases Nat.lt_or_eq_of_le hle with hlt | rfl
  · exact ofNat_cons_lt_of_lt hn hlt s t
  · exact List.cons_lt_cons_iff.2 (.inr ⟨rfl, h rfl⟩)

/-- The bytes of a smaller character stand before those of a greater one, whatever follows. -/
theorem encoded_append_lt {c d : Char} (h : c < d) (s t : List UInt8) :
    String.utf8EncodeChar c ++ s < String.utf8EncodeChar d ++ t := by
  have hlt : c.val.toNat < d.val.toNat := h
  have hd : d.val.toNat < 0x110000 := by
    rcases d.valid with hd | ⟨-, hd⟩
    · exact Nat.lt_trans hd (by decide)
    · exact hd
  generalize hm : c.val.toNat = m at hlt
  generalize hn : d.val.toNat = n at hlt hd
  simp only [String.utf8EncodeChar, hm, hn]
  -- Characters of different sizes differ in the first byte.  Those of one size differ where
  -- their numbers, written in sixty-fourths, differ first.
  by_cases h₁ : m ≤ 127
  · rw [if_pos h₁]
    by_cases k₁ : n ≤ 127
    · rw [if_pos k₁]
      exact ofNat_cons_lt_of_lt (by omega) hlt s t
    · rw [if_neg k₁]
      split
      · exact ofNat_cons_lt_of_lt (by omega) (by omega) _ _
      · split <;> exact ofNat_cons_lt_of_lt (by omega) (by omega) _ _
  · rw [if_neg h₁, if_neg (by omega : ¬ n ≤ 127)]
    by_cases h₂ : m ≤ 2047
    · rw [if_pos h₂]
      by_cases k₂ : n ≤ 2047
      · rw [if_pos k₂]
        refine ofNat_cons_lt (by omega) (by omega) fun e₁ => ?_
        exact ofNat_cons_lt_of_lt (by omega) (by omega) s t
      · rw [if_neg k₂]
        split <;> exact ofNat_cons_lt_of_lt (by omega) (by omega) _ _
    · rw [if_neg h₂, if_neg (by omega : ¬ n ≤ 2047)]
      by_cases h₃ : m ≤ 65535
      · rw [if_pos h₃]
        by_cases k₃ : n ≤ 65535
        · rw [if_pos k₃]
          refine ofNat_cons_lt (by omega) (by omega) fun e₁ => ?_
          refine ofNat_cons_lt (by omega) (by omega) fun e₂ => ?_
          exact ofNat_cons_lt_of_lt (by omega) (by omega) s t
        · rw [if_neg k₃]
          exact ofNat_cons_lt_of_lt (by omega) (by omega) _ _
      · rw [if_neg h₃, if_neg (by omega : ¬ n ≤ 65535)]
        refine ofNat_cons_lt (by omega) (by omega) fun e₁ => ?_
        refine ofNat_cons_lt (by omega) (by omega) fun e₂ => ?_
        refine ofNat_cons_lt (by omega) (by omega) fun e₃ => ?_
        exact ofNat_cons_lt_of_lt (by omega) (by omega) s t

/-! ## strings -/

theorem flatMap_encoded_lt {s t : List Char} (h : s < t) :
    s.flatMap String.utf8EncodeChar < t.flatMap String.utf8EncodeChar := by
  induction s generalizing t with
  | nil =>
    cases t with
    | nil => exact absurd h (List.not_lt_nil [])
    | cons d t =>
      obtain ⟨b, bs, hb⟩ := List.exists_cons_of_ne_nil (String.utf8EncodeChar_ne_nil (c := d))
      rw [List.flatMap_cons, hb]
      exact List.nil_lt_cons b _
  | cons c s ih =>
    cases t with
    | nil => exact absurd h (List.not_lt_nil _)
    | cons d t =>
      rw [List.flatMap_cons, List.flatMap_cons]
      rcases List.cons_lt_cons_iff.1 h with hcd | ⟨rfl, hst⟩
      · exact encoded_append_lt hcd _ _
      · exact List.append_left_lt (ih hst)

/-- Strings stand in the order of their bytes. -/
theorem bytes_lt_iff {a b : String} : bytes a < bytes b ↔ a < b := by
  have mono : ∀ {a b : String}, a < b → bytes a < bytes b := by
    intro a b h
    rw [bytes_eq_flatMap, bytes_eq_flatMap]
    exact flatMap_encoded_lt h
  refine ⟨fun h => ?_, mono⟩
  rw [← String.not_le]
  intro hle
  by_cases hlt : b < a
  · exact List.lt_asymm h (mono hlt)
  · obtain rfl : a = b := String.le_antisymm (String.not_lt.1 hlt) hle
    exact List.lt_irrefl _ h

/-- Strings of which neither stands before the other are the same. -/
theorem eq_of_not_bytes_lt {a b : String} (hab : ¬ bytes a < bytes b) (hba : ¬ bytes b < bytes a) :
    a = b := by
  rw [bytes_lt_iff, String.not_lt] at hab hba
  exact String.le_antisymm hba hab

end Phrasebook.Text
