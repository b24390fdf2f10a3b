import Mathlib.Data.List.Find
import Mathlib.Data.List.Nodup
import Phrasebook.Proofs.Evaluation.Choices
import Phrasebook.Proofs.Evaluation.Outcome
import Phrasebook.Proofs.Message.Readings

/-!
# Phrasebook.Proofs.Evaluation.Selection

Which branch a value selects.

The branch is said without the search for it (`Branch.Preferred`): the first for the exact
integer of the value, where there is none the first for the category of its quantity, and
where there is none of these the first for `other`.  Where selectors are distinct the first
branch of a selector is the only one, so the order of the branches does not matter; and a
branch whose selector came before is never the first.

A branch for an exact number is taken by values that are that number, in whatever form they
hold it; and an integer selects what its notation selects.
-/

namespace Phrasebook

open Phrasebook.Number (Double Decimal Numeral)

namespace Branch

variable {β : Type}

/-! ## first branches -/

/-- The first branch with a selector. -/
def IsFirst (bs : List (Branch β)) (s : Selector) (b : Branch β) : Prop :=
  b.selector = s ∧ ∃ before after, bs = before ++ b :: after ∧ ∀ b' ∈ before, b'.selector ≠ s

/-- No branch has a selector. -/
def Lacks (bs : List (Branch β)) (s : Selector) : Prop := ∀ b ∈ bs, b.selector ≠ s

section

variable {bs : List (Branch β)} {s : Selector} {b : Branch β}

theorem find?_eq_some_iff : find? bs s = some b ↔ IsFirst bs s b := by
  simp [find?, List.find?_eq_some_iff_append, IsFirst]

theorem find?_eq_none_iff : find? bs s = none ↔ Lacks bs s := by
  simp [find?, Lacks]

/-- Distinct selectors find the same branches in any order. -/
theorem find?_perm {bs' : List (Branch β)} (h : bs'.Perm bs) (hd : (bs.map Branch.selector).Nodup)
    (s : Selector) : find? bs' s = find? bs s := by
  refine (List.find?_eq_find?_of_perm h.symm ?_).symm
  rintro x ⟨hx, hsx⟩ y ⟨hy, hsy⟩
  exact List.inj_on_of_nodup_map hd hx hy ((beq_iff_eq.1 hsx).trans (beq_iff_eq.1 hsy).symm)

/-- A branch at the end whose selector came before is not found. -/
theorem find?_append_of_mem (hb : b.selector ∈ bs.map Branch.selector) (s : Selector) :
    find? (bs ++ [b]) s = find? bs s := by
  rw [find?, List.find?_append]
  by_cases hs : b.selector = s
  · have hsome : (bs.find? fun b => b.selector == s).isSome = true := by
      obtain ⟨b', hb', he⟩ := List.mem_map.1 hb
      exact List.find?_isSome.2 ⟨b', hb', beq_iff_eq.2 (he.trans hs)⟩
    exact Option.or_of_isSome hsome
  · simp [find?, hs]

end

/-! ## preferred branches -/

/-- The branch that a value should select in a locale. -/
inductive Preferred (bs : List (Branch β)) (v : Value) (l : Locale) (b : Branch β) : Prop where
  | exact {n : Int64} (hn : v.exactInteger? = some n) (h : IsFirst bs (.exact n) b)
  | category {d : Decimal} (hn : ∀ n, v.exactInteger? = some n → Lacks bs (.exact n))
    (hd : v.quantity? = some d) (h : IsFirst bs (.category (Plural.decimalCategory l d)) b)
  | other (hn : ∀ n, v.exactInteger? = some n → Lacks bs (.exact n))
    (hd : ∀ d, v.quantity? = some d → Lacks bs (.category (Plural.decimalCategory l d)))
    (h : IsFirst bs (.category .other) b)

section

variable {bs : List (Branch β)} {v : Value} {l : Locale} {b : Branch β}

/-- The first step of a selection: the exact integer. -/
theorem find?_exact_eq_some_iff :
    (v.exactInteger?.bind fun n => find? bs (.exact n)) = some b ↔
      ∃ n, v.exactInteger? = some n ∧ IsFirst bs (.exact n) b := by
  simp only [Option.bind_eq_some_iff, find?_eq_some_iff]

theorem find?_exact_eq_none_iff :
    (v.exactInteger?.bind fun n => find? bs (.exact n)) = none ↔
      ∀ n, v.exactInteger? = some n → Lacks bs (.exact n) := by
  simp only [Option.bind_eq_none_iff, find?_eq_none_iff]

/-- The steps after it: the category of the quantity, and `other`. -/
theorem find?_category_eq_some_iff :
    (find? bs (.category (categoryOf v l))).or (find? bs (.category .other)) = some b ↔
      (∃ d, v.quantity? = some d ∧ IsFirst bs (.category (Plural.decimalCategory l d)) b) ∨
        (∀ d, v.quantity? = some d → Lacks bs (.category (Plural.decimalCategory l d))) ∧
          IsFirst bs (.category .other) b := by
  rw [Option.or_eq_some_iff, find?_eq_some_iff, find?_eq_some_iff, find?_eq_none_iff, categoryOf]
  cases v.quantity? <;> simp

theorem select?_eq_some_iff : select? bs v l = some b ↔ Preferred bs v l b := by
  rw [select?, Option.or_eq_some_iff, find?_exact_eq_some_iff, find?_exact_eq_none_iff,
    find?_category_eq_some_iff]
  constructor
  · rintro (⟨n, hn, h⟩ | ⟨hn, ⟨d, hd, h⟩ | ⟨hd, h⟩⟩)
    · exact .exact hn h
    · exact .category hn hd h
    · exact .other hn hd h
  · rintro (⟨hn, h⟩ | ⟨hn, hd, h⟩ | ⟨hn, hd, h⟩)
    · exact .inl ⟨_, hn, h⟩
    · exact .inr ⟨hn, .inl ⟨_, hd, h⟩⟩
    · exact .inr ⟨hn, .inr ⟨hd, h⟩⟩

end

/-- Without a quantity there is no exact integer, unless it is written too long, and `other`
is selected. -/
theorem select?_of_no_quantity {bs : List (Branch β)} {v : Value} (hq : v.quantity? = none)
    (hl : ∀ n, ¬ v.Overlong n) (l : Locale) : select? bs v l = find? bs (.category .other) := by
  have hn : v.exactInteger? = none := by
    refine Option.eq_none_iff_forall_ne_some.2 fun n hn => hl n ?_
    exact (Value.exactInteger?_and_no_quantity_iff v n).1 ⟨hn, hq⟩
  rw [select?, hn, categoryOf, hq, Option.bind_none, Option.none_or, Option.or_self]

/-- **Selection**: a choice with a branch for `other` selects the preferred branch.  Without a
quantity this is the first for `other`, unless an integer is written too long.  The order of
distinct selectors does not matter, nor does a branch at the end whose selector came before. -/
theorem select?_of_hasOther {bs : List (Branch β)} (h : hasOther bs = true) (v : Value)
    (l : Locale) :
    (∃ b, select? bs v l = some b) ∧
      (∀ b, select? bs v l = some b ↔ Preferred bs v l b) ∧
      (v.quantity? = none → (∀ n, ¬ v.Overlong n) →
        ∀ b, select? bs v l = some b ↔ IsFirst bs (.category .other) b) ∧
      (∀ bs', bs'.Perm bs → (bs.map Branch.selector).Nodup → select? bs' v l = select? bs v l) ∧
      ∀ b : Branch β, b.selector ∈ bs.map Branch.selector →
        select? (bs ++ [b]) v l = select? bs v l := by
  refine ⟨Option.isSome_iff_exists.1 (isSome_select? h v l), fun b => select?_eq_some_iff,
    fun hq hl b => ?_, fun bs' hp hd => ?_, fun b hb => ?_⟩
  · rw [select?_of_no_quantity hq hl, find?_eq_some_iff]
  · simp only [select?, find?_perm hp hd]
  · simp only [select?, find?_append_of_mem hb]

/-- A choice between a number, a category and the rest. -/
def ranked : List (Branch Nat) := [⟨.exact 0, 0⟩, ⟨.category .one, 1⟩, ⟨.category .other, 2⟩]

theorem select?_of_hasOther_ranked :
    (∃ b, select? ranked (.text "lots") .english = some b) ∧
      (∀ b, select? ranked (.text "lots") .english = some b ↔
        IsFirst ranked (.category .other) b) ∧
      select? ranked.reverse (.text "lots") .english = select? ranked (.text "lots") .english ∧
      select? (ranked ++ [⟨.category .other, 3⟩]) (.text "lots") .english =
        select? ranked (.text "lots") .english := by
  have ho : hasOther ranked = true := rfl
  obtain ⟨hsome, -, hq, hp, ha⟩ := select?_of_hasOther ho (.text "lots") .english
  refine ⟨hsome, hq rfl fun n hl => ?_, hp _ (List.reverse_perm _) (by decide), ha _ (by decide)⟩
  cases ((Value.exactInteger?_and_no_quantity_iff _ n).2 hl).1

/-- A text without a quantity that selects an exact number: `0` with 32768 zeros in front. -/
theorem select?_zeros :
    hasOther ranked = true ∧
      (Value.text (String.ofList (Numeral.zeros 32768).text)).quantity? = none ∧
      ∃ b, select? ranked (.text (String.ofList (Numeral.zeros 32768).text)) .english = some b ∧
        ¬ IsFirst ranked (.category .other) b := by
  obtain ⟨hn, hq⟩ :=
    (Value.exactInteger?_and_no_quantity_iff _ _).2 (Value.overlong_zeros (k := 32768) (by decide))
  refine ⟨rfl, hq, ⟨.exact 0, 0⟩, ?_, ?_⟩
  · exact select?_eq_some_iff.2 (.exact hn (find?_eq_some_iff.1 rfl))
  · rintro ⟨h, -⟩
    cases h

end Branch

open Branch

/-! ## the numbers of values -/

namespace Value

/-- An exact selector that is taken is the exact integer of the value. -/
theorem exactInteger?_of_select? {β : Type} {bs : List (Branch β)} {v : Value} {l : Locale}
    {b : Branch β} (h : select? bs v l = some b) {n : Int64} (hs : b.selector = .exact n) :
    v.exactInteger? = some n := by
  obtain ⟨hn, hb, -⟩ | ⟨-, -, hb, -⟩ | ⟨-, -, hb, -⟩ := select?_eq_some_iff.1 h
  · cases hb.symm.trans hs
    exact hn
  · cases hb.symm.trans hs
  · cases hb.symm.trans hs

/-- **Both numbers of a value agree**, for texts that are not too long and finite floats
that fit into 64 bits; so an exact selector is taken by values that are that number. -/
theorem equals_and_agrees (v : Value) (hl : ∀ n, ¬ v.Overlong n)
    (hf : ∀ x, v = .float x → x.isFinite = true → x.FitsInt64) :
    (∀ n, v.exactInteger? = some n →
      v.Equals n.toInt ∧ ∃ d, v.quantity? = some d ∧ v.Agrees d n.toInt) ∧
      ∀ (β : Type) (bs : List (Branch β)) (l : Locale) (b : Branch β) (n : Int64),
        select? bs v l = some b → b.selector = .exact n → v.Equals n.toInt := by
  constructor
  · intro n hn
    exact ⟨equals_of_exactInteger? hn hf, exists_agrees_of_exactInteger? hn hf (hl n)⟩
  · intro β bs l b n hb hs
    exact equals_of_exactInteger? (exactInteger?_of_select? hb hs) hf

/-- The float `-7`. -/
def minusSeven : Double := ⟨0xC01C000000000000⟩

theorem equals_and_agrees_minusSeven :
    (float minusSeven).exactInteger? = some (-7) ∧
      (∃ d, (float minusSeven).quantity? = some d ∧ (float minusSeven).Agrees d (-7)) ∧
      select? [⟨.category .other, 0⟩, ⟨.exact (-7), 1⟩] (float minusSeven) .english =
        some ⟨.exact (-7), 1⟩ ∧
      (float minusSeven).Equals (-7) := by
  have hfits : minusSeven.FitsInt64 := by
    unfold Double.FitsInt64
    decide +kernel
  obtain ⟨h, hs⟩ := equals_and_agrees (float minusSeven) (fun n ⟨_, _, hv, _⟩ => by cases hv)
    (fun x hx _ => by cases hx; exact hfits)
  have hn : (float minusSeven).exactInteger? = some (-7) := by decide +kernel
  have hb : select? [⟨.category .other, 0⟩, ⟨.exact (-7), 1⟩] (float minusSeven) .english =
      some ⟨.exact (-7), 1⟩ := by decide +kernel
  have h7 : (-7 : Int64).toInt = -7 := by decide
  exact ⟨hn, h7 ▸ (h _ hn).2, hb, h7 ▸ hs Nat _ _ _ _ hb rfl⟩

end Value

/-! ## integers and their notation -/

/-- **An integer selects what its notation selects**, with any blanks around it: one branch, or
none. -/
theorem Branch.select?_integer_eq_text {β : Type} (n : Int64) {before after : List Char}
    (hb : ∀ c ∈ before, Text.isBlank c = true) (ha : ∀ c ∈ after, Text.isBlank c = true)
    (bs : List (Branch β)) (l : Locale) :
    select? bs (.integer n) l =
      select? bs
        (.text (String.ofList (before ++ (Value.integer n).display.toList ++ after))) l := by
  obtain ⟨hn, hq⟩ := Value.readings_text_eq n hb ha
  rw [select?, select?, categoryOf, categoryOf, hn, hq]

theorem Branch.select?_integer_eq_text_padded :
    (∀ c ∈ ['\t', ' '], Text.isBlank c = true) ∧ (∀ c ∈ ['\u3000'], Text.isBlank c = true) ∧
      ['\t', ' '] ++ (Value.integer Int64.minValue).display.toList ++ ['\u3000'] =
        "\t -9223372036854775808\u3000".toList ∧
      select? ranked (.integer Int64.minValue) .english =
        select? ranked (.text (String.ofList (['\t', ' '] ++
          (Value.integer Int64.minValue).display.toList ++ ['\u3000']))) .english := by
  have hb : ∀ c ∈ ['\t', ' '], Text.isBlank c = true := List.all_eq_true.1 (by decide)
  have ha : ∀ c ∈ ['\u3000'], Text.isBlank c = true := List.all_eq_true.1 (by decide)
  exact ⟨hb, ha, by decide +kernel, select?_integer_eq_text Int64.minValue hb ha ranked .english⟩

end Phrasebook
