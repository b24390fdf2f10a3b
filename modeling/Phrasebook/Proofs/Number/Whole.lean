import Mathlib.Tactic.Ring
import Phrasebook.Proofs.Number.Numerals

/-!
# Phrasebook.Proofs.Number.Whole

The text of whole floats.

A float is written with the shortest decimal that reads back to it.  Such a decimal lies in
the interval of the reals that round to the float (`Shortest.near_of_contains`), so it is
within one part in `2 ^ 53` of it (`Near`).  The grid of ones has a whole float itself, and
grids are tried from the coarsest on, so the digits come from that grid or from a coarser
one (`Shortest.exists_grid`): they write a whole number.

This number is the float itself below `2 ^ 54` (`Shortest.writes_shortest`): from `2 ^ 53`
on whole floats are even, as are the points of the coarser grids.  From `2 ^ 54` on the two
can differ.
-/

namespace Phrasebook.Number

/-! ## powers -/

theorem pow2_le_pow10 (k : Nat) : pow2 k ≤ pow10 k := Nat.pow_le_pow_left (by decide) k

theorem pow2_le_pow2 {j k : Nat} (h : j ≤ k) : pow2 j ≤ pow2 k :=
  Nat.pow_le_pow_right (by decide) h

theorem pow10_add (j k : Nat) : pow10 (j + k) = pow10 j * pow10 k := Nat.pow_add 10 j k

theorem pow2_add (j k : Nat) : pow2 (j + k) = pow2 j * pow2 k := Nat.pow_add 2 j k

theorem pow10_lt_pow10_iff {j k : Nat} : pow10 j < pow10 k ↔ j < k :=
  Nat.pow_lt_pow_iff_right (by decide)

/-! ## decimals that are whole numbers -/

/-- Digits followed by zeros. -/
theorem digits_mul_pow10 {n : Nat} (hn : 0 < n) (k : Nat) :
    digits (n * pow10 k) = digits n ++ List.replicate k '0' := by
  induction k with
  | zero => rw [pow10_zero, Nat.mul_one, List.replicate_zero, List.append_nil]
  | succ k ih =>
    have hp : 0 < n * pow10 k := Nat.mul_pos hn (pow10_pos k)
    have hz : digitChar 0 = '0' := by decide
    rw [pow10_succ, ← Nat.mul_assoc, digits_of_ge (by omega), Nat.mul_div_cancel _ (by decide),
      Nat.mul_mod_left, ih, hz, List.append_assoc, List.replicate_succ']

namespace Scientific

/-- A decimal as a number of units, where it is whole. -/
def units (d : Scientific) : Nat := d.coefficient * pow10 d.exponent.toNat

/-- Without a negative exponent a decimal is written as the number it is. -/
theorem positional_eq_digits {d : Scientific} (he : 0 ≤ d.exponent) (hc : 0 < d.units) :
    positional d = digits d.units := by
  have hpos : 0 < d.coefficient := Nat.pos_of_mul_pos_right hc
  rw [positional, if_pos he, units, digits_mul_pow10 hpos]

/-- Taking zeros off the end of the coefficient leaves the number. -/
theorem strip_units (fuel : Nat) {d : Scientific} (he : 0 ≤ d.exponent) :
    0 ≤ (Shortest.strip fuel d).exponent ∧ (Shortest.strip fuel d).units = d.units := by
  induction fuel generalizing d with
  | zero => exact ⟨he, rfl⟩
  | succ fuel ih =>
    rw [Shortest.strip]
    split
    · next hz =>
      obtain ⟨c, e⟩ := d
      dsimp only at he hz
      have h := ih (d := ⟨c / 10, e + 1⟩) (by dsimp only; omega)
      refine ⟨h.1, h.2.trans ?_⟩
      have hs : (e + 1).toNat = e.toNat + 1 := by omega
      have hc : c / 10 * 10 = c := by omega
      rw [units, units, hs, pow10_succ, Nat.mul_comm (pow10 e.toNat) 10, ← Nat.mul_assoc, hc]
    · exact ⟨he, rfl⟩

end Scientific

/-! ## nearness -/

/-- A number is within one part in `2 ^ 53` of another. -/
def Near (p n : Nat) : Prop := pow2 53 * ((p : Int) - n).natAbs ≤ n

instance (p n : Nat) : Decidable (Near p n) :=
  inferInstanceAs (Decidable (pow2 53 * ((p : Int) - n).natAbs ≤ n))

/-- Nearness does not depend on the unit. -/
theorem Near.of_mul {p n k : Nat} (hk : 0 < k) (h : Near (p * k) (n * k)) : Near p n := by
  have hd : (((p * k : Nat) : Int) - (n * k : Nat)).natAbs = ((p : Int) - n).natAbs * k := by
    rw [Int.natCast_mul, Int.natCast_mul, ← Int.sub_mul, Int.natAbs_mul, Int.natAbs_natCast]
  rw [Near, hd, ← Nat.mul_assoc] at h
  exact Nat.le_of_mul_le_mul_right h hk

/-- Below `2 ^ 53` only the number itself is near. -/
theorem Near.eq_of_lt {p n : Nat} (h : Near p n) (hn : n < pow2 53) : p = n := by
  have hp : pow2 53 = 9007199254740992 := rfl
  rw [Near, hp] at h
  omega

/-- Below `2 ^ 54` no other even number is near an even one. -/
theorem Near.eq_of_even {p n : Nat} (h : Near p n) (hn : n % 2 = 0) (hp : p % 2 = 0)
    (hlt : n < pow2 54) : p = n := by
  have ht : pow2 53 = 9007199254740992 := rfl
  have ht' : pow2 54 = 18014398509481984 := rfl
  rw [Near, ht] at h
  omega

theorem Near.le_two_mul {p n : Nat} (h : Near p n) : p ≤ 2 * n := by
  have hp : pow2 53 = 9007199254740992 := rfl
  rw [Near, hp] at h
  omega

theorem Near.pos {p n : Nat} (h : Near p n) (hn : 0 < n) : 0 < p := by
  have hp : pow2 53 = 9007199254740992 := rfl
  rw [Near, hp] at h
  omega

/-- A number that is written for another: one near it, and below `2 ^ 54` the number itself. -/
structure Writes (p n : Nat) : Prop where
  near : Near p n
  eq_of_lt : n < pow2 54 → p = n

/-! ## the interval of a float -/

namespace Shortest

theorem pow10_log10_le {n : Nat} (hn : 0 < n) : pow10 (log10 n) ≤ n := by
  induction n using Nat.strongRecOn with
  | _ n ih =>
    rw [log10]
    split
    · exact hn
    · have h := ih (n / 10) (by omega) (by omega)
      rw [pow10_succ]
      omega

theorem lt_pow10_log10_succ (n : Nat) : n < pow10 (log10 n + 1) := by
  induction n using Nat.strongRecOn with
  | _ n ih =>
    rw [log10]
    split
    · next h => exact h
    · have h := ih (n / 10) (by omega)
      rw [pow10_succ]
      omega

theorem le_log10_mul_pow10 {n : Nat} (hn : 0 < n) (k : Nat) : k ≤ log10 (n * pow10 k) := by
  have h : pow10 k < pow10 (log10 (n * pow10 k) + 1) :=
    Nat.lt_of_le_of_lt (Nat.le_mul_of_pos_left _ hn) (lt_pow10_log10_succ _)
  exact Nat.le_of_lt_succ (pow10_lt_pow10_iff.1 h)

theorem step_pos (k : Nat) : 0 < step k := Nat.mul_pos (pow10_pos k) (pow2_pos 1076)

theorem step_add (j k : Nat) : step (j + k) = pow10 j * step k := by
  rw [step, step, pow10_add, Nat.mul_assoc]

theorem Interval.bounds_of_contains {i : Interval} {p : Nat} (h : i.contains p = true) :
    i.lower ≤ p ∧ p ≤ i.upper := by
  unfold Interval.contains at h
  split at h
  · simpa using h
  · have h : i.lower < p ∧ p < i.upper := by simpa using h
    exact ⟨Nat.le_of_lt h.1, Nat.le_of_lt h.2⟩

/-- The points of the interval of a normal number are near the number. -/
theorem near_of_contains {x : Double} (hx : pow2 52 ≤ x.significand) {p : Nat}
    (h : (interval x).contains p = true) : Near p (interval x).value := by
  obtain ⟨hl, hu⟩ := Interval.bounds_of_contains h
  have hq : pow2 54 * (pow2 x.shift * pow10 400) ≤ (interval x).value :=
    Nat.mul_le_mul_right _ (Nat.mul_le_mul_left 4 hx)
  have hlower : (interval x).value ≤ (interval x).lower + 2 * (pow2 x.shift * pow10 400) := by
    dsimp only [interval]
    split <;> omega
  have hupper : (interval x).upper = (interval x).value + 2 * (pow2 x.shift * pow10 400) := rfl
  have hp : pow2 53 = 9007199254740992 := rfl
  have hp' : pow2 54 = 18014398509481984 := rfl
  rw [Near, hp]
  rw [hp'] at hq
  omega

/-- What is found on a grid lies in the interval. -/
theorem contains_of_onGrid {tie : Tie} {i : Interval} {k d : Nat} (h : onGrid tie i k = some d) :
    i.contains (d * step k) = true := by
  unfold onGrid at h
  dsimp only at h
  split at h
  · next hb =>
    rw [Bool.and_eq_true] at hb
    split at h
    · cases h
      exact hb.1
    · split at h
      · cases h
        exact hb.2
      · cases tie with
        | away =>
          cases h
          exact hb.2
        | toEven =>
          cases h
          split
          · exact hb.1
          · exact hb.2
  · split at h
    · next hb =>
      cases h
      exact hb
    · split at h
      · next hb =>
        cases h
        exact hb
      · cases h

theorem contains_value {x : Double} (hx : 0 < (interval x).value) :
    (interval x).contains (interval x).value = true := by
  have hq : 0 < pow2 x.shift * pow10 400 := Nat.mul_pos (pow2_pos _) (pow10_pos 400)
  have hu : (interval x).value < (interval x).upper := by
    dsimp only [interval]
    omega
  have hl : (interval x).lower < (interval x).value := by
    dsimp only [interval] at hx ⊢
    split <;> omega
  unfold Interval.contains
  split
  · simp [Nat.le_of_lt hl, Nat.le_of_lt hu]
  · simp [hl, hu]

/-- On a grid that has the number itself, the number is found. -/
theorem onGrid_eq_some (tie : Tie) {x : Double} {k n : Nat} (hn : 0 < n)
    (h : (interval x).value = n * step k) : onGrid tie (interval x) k = some n := by
  have hs := step_pos k
  have hd : (interval x).value / step k = n := by rw [h, Nat.mul_div_cancel _ hs]
  have hb : (interval x).contains (n * step k) = true :=
    h ▸ contains_value (h ▸ Nat.mul_pos hn hs)
  have hnear : (interval x).value - n * step k < (n + 1) * step k - (interval x).value := by
    rw [h, Nat.add_one_mul]
    omega
  unfold onGrid
  simp only [hd, hb, Bool.true_and, if_true, if_pos hnear]
  split <;> rfl

/-! ## the digits of a whole number -/

section

variable {x : Double} {n : Nat}

theorem value_interval (hx : x.units = n * Double.one) : (interval x).value = n * step 400 := by
  have h4 : pow2 1076 = 4 * Double.one := by
    rw [Double.one, pow2_succ 1075, pow2_succ 1074]
    omega
  calc (interval x).value = 4 * x.units * pow10 400 := by
        simp only [interval, Double.units, Nat.mul_assoc]
    _ = n * step 400 := by
        rw [hx, step, h4]
        ring

/-- A whole number other than zero is a normal number. -/
theorem pow2_le_significand (hx : x.units = n * Double.one) (hn : 0 < n) :
    pow2 52 ≤ x.significand := by
  have hone : pow2 52 ≤ Double.one := pow2_le_pow2 (by decide)
  have hu : Double.one ≤ x.units := hx ▸ Nat.le_mul_of_pos_left _ hn
  unfold Double.significand
  split
  · next hf =>
    -- numbers with an empty exponent field are below `2 ^ -1022`
    have hm : x.units = x.magnitude % pow2 52 := by
      rw [Double.units, Double.shift, Double.significand, if_pos hf, hf, pow2_zero, Nat.mul_one]
    exact Nat.le_trans hone (hm ▸ hu)
  · exact Nat.le_add_right _ _

/-- From `2 ^ 53` on whole numbers are even. -/
theorem even_of_le (hx : x.units = n * Double.one) (hn : pow2 53 ≤ n) : n % 2 = 0 := by
  have hs : 1074 < x.shift := by
    by_contra h
    have hlt : x.units < pow2 53 * Double.one := by
      calc x.units ≤ x.significand * Double.one :=
            Nat.mul_le_mul_left _ (pow2_le_pow2 (Nat.le_of_not_lt h))
        _ < pow2 53 * Double.one := Nat.mul_lt_mul_of_pos_right x.significand_lt (pow2_pos 1074)
    have hle : pow2 53 * Double.one ≤ n * Double.one := Nat.mul_le_mul_right _ hn
    omega
  have he : x.significand * pow2 (x.shift - 1074) * Double.one = n * Double.one := by
    rw [← hx, Double.one, Nat.mul_assoc, ← pow2_add, Nat.sub_add_cancel (Nat.le_of_lt hs),
      Double.units]
  have hp : x.shift - 1074 = (x.shift - 1075) + 1 := by omega
  rw [← Nat.eq_of_mul_eq_mul_right (pow2_pos 1074) he, hp, pow2_succ, ← Nat.mul_assoc,
    Nat.mul_mod_left]

/-- A grid sixteen digits finer than a number has a point near it. -/
theorem near_div {v s : Nat} (hs : 0 < s) (h : pow10 16 * s ≤ v) : Near (v / s * s) v := by
  have hd := Nat.div_add_mod' v s
  have hm := Nat.mod_lt v hs
  have ht : pow10 16 = 10000000000000000 := rfl
  have hp : pow2 53 = 9007199254740992 := rfl
  rw [ht] at h
  rw [Near, hp]
  omega

/-- A search through the numbers below a bound stops at the latest where there is an answer. -/
theorem exists_le_of_findSome?_range {α : Type} {f : Nat → Option α} {bound i : Nat} {r : α}
    (h : (List.range bound).findSome? f = some r) (hi : (f i).isSome = true) :
    ∃ j ≤ i, f j = some r := by
  obtain ⟨before, j, after, hl, hj, hb⟩ := List.findSome?_eq_some_iff.1 h
  have hlt : j < bound := List.mem_range.1 (hl ▸ List.mem_append_right _ List.mem_cons_self)
  refine ⟨j, ?_, hj⟩
  by_contra hij
  have hmem : i ∈ before ++ j :: after := hl ▸ List.mem_range.2 (by omega)
  have hsorted := List.pairwise_lt_range (n := bound)
  rw [hl] at hsorted
  obtain ⟨-, hafter, -⟩ := List.pairwise_append.1 hsorted
  rcases List.mem_append.1 hmem with hm | hm
  · rw [hb i hm] at hi
    cases hi
  · rcases List.mem_cons.1 hm with rfl | hm
    · exact hij (Nat.le_refl _)
    · exact hij (Nat.le_of_lt (List.rel_of_pairwise_cons hafter hm))

/-- The digits of a whole number are found on the grid of ones or on a coarser one: the grid
of ones has the number itself, and finer grids are tried after it. -/
theorem exists_grid (tie : Tie) (hx : x.units = n * Double.one) (hn : 0 < n) :
    ∃ d k, 400 ≤ k ∧ (k = 400 → d = n) ∧ Near (d * step k) (n * step 400) ∧
      shortest tie x = strip 20 ⟨d, (k : Int) - 400⟩ := by
  have hv := value_interval hx
  have hu : x.units ≠ 0 := by
    rw [hx]
    exact Nat.ne_of_gt (Nat.mul_pos hn (pow2_pos 1074))
  have ht : (interval x).value / pow2 1076 = n * pow10 400 := by
    rw [hv, step, ← Nat.mul_assoc, Nat.mul_div_cancel _ (pow2_pos 1076)]
  rw [shortest, if_neg hu]
  dsimp only
  rw [ht]
  have hlow := le_log10_mul_pow10 hn 400
  generalize htop : log10 (n * pow10 400) = top at hlow ⊢
  have hone : ((onGrid tie (interval x) (top - (top - 400))).map fun d =>
      (⟨d, (top - (top - 400 : Nat) : Int) - 400⟩ : Scientific)).isSome = true := by
    rw [Nat.sub_sub_self hlow, onGrid_eq_some tie hn hv, Option.map_some, Option.isSome_some]
  cases hf : (List.range 17).findSome? fun j => (onGrid tie (interval x) (top - j)).map
      fun d => (⟨d, (top - j : Int) - 400⟩ : Scientific) with
  | none =>
    -- the grid of ones was not reached
    have hhigh : 416 ≤ top := by
      by_contra h
      rw [List.findSome?_eq_none_iff] at hf
      rw [hf (top - 400) (List.mem_range.2 (by omega))] at hone
      cases hone
    have htop' : pow10 16 * step (top - 16) ≤ (interval x).value := by
      have hn' : 0 < n * pow10 400 := Nat.mul_pos hn (pow10_pos 400)
      rw [← step_add, Nat.add_sub_cancel' (by omega), hv, step, step, ← Nat.mul_assoc]
      exact Nat.mul_le_mul_right _ (htop ▸ pow10_log10_le hn')
    refine ⟨(interval x).value / step (top - 16), top - 16, by omega, ?_, ?_, ?_⟩
    · intro he
      rw [he, hv, Nat.mul_div_cancel _ (step_pos 400)]
    · rw [← hv]
      exact near_div (step_pos _) htop'
    · rw [Option.getD_none]
      congr 2
      omega
  | some r =>
    obtain ⟨j, hle, hj⟩ := exists_le_of_findSome?_range hf hone
    obtain ⟨d, hd, rfl⟩ := Option.map_eq_some_iff.1 hj
    refine ⟨d, top - j, by omega, ?_, ?_, ?_⟩
    · intro he
      rw [he, onGrid_eq_some tie hn hv] at hd
      exact (Option.some.inj hd).symm
    · rw [← hv]
      exact near_of_contains (pow2_le_significand hx hn) (contains_of_onGrid hd)
    · rw [Option.getD_some]
      congr 2
      omega

/-- The shortest decimal of a whole number is a whole number that is written for it. -/
theorem writes_shortest (tie : Tie) (hx : x.units = n * Double.one) (hn : 0 < n) :
    0 ≤ (shortest tie x).exponent ∧ Writes (shortest tie x).units n := by
  obtain ⟨d, k, hk, hsame, hnear, hs⟩ := exists_grid tie hx hn
  obtain ⟨he, hu⟩ := Scientific.strip_units 20 (d := ⟨d, (k : Int) - 400⟩) (by dsimp only; omega)
  have hp : Scientific.units ⟨d, (k : Int) - 400⟩ = d * pow10 (k - 400) := by
    have ht : ((k : Int) - 400).toNat = k - 400 := by omega
    rw [Scientific.units, ht]
  have hd : d * step k = d * pow10 (k - 400) * step 400 := by
    rw [Nat.mul_assoc, ← step_add, Nat.sub_add_cancel hk]
  rw [hd] at hnear
  have hnear : Near (d * pow10 (k - 400)) n := hnear.of_mul (step_pos 400)
  rw [hs, hu, hp]
  refine ⟨he, ⟨hnear, fun hlt => ?_⟩⟩
  rcases Nat.eq_or_lt_of_le hk with rfl | hk
  · rw [hsame rfl, Nat.sub_self, pow10_zero, Nat.mul_one]
  · -- both numbers are even, and less than two apart
    have ht : d * pow10 (k - 400) % 2 = 0 := by
      have hk' : k - 400 = (k - 401) + 1 := by omega
      rw [hk', pow10_succ, ← Nat.mul_assoc]
      omega
    by_cases h : n < pow2 53
    · exact hnear.eq_of_lt h
    · exact hnear.eq_of_even (even_of_le hx (Nat.le_of_not_lt h)) ht hlt

end

end Shortest

/-! ## the text of a whole number -/

namespace Double

/-- The sign in the text of a float. -/
def sign (x : Double) : Sign := if x.isNegative then .negative else .unsigned

/-- The integer part of the size of a float. -/
def integerPart (x : Double) : Nat := x.units / one

variable {x : Double}

theorem units_of_isWhole (h : x.isWhole = true) : x.units = x.integerPart * one := by
  rw [isWhole, Bool.and_eq_true, beq_iff_eq] at h
  exact (Nat.div_mul_cancel (Nat.dvd_of_mod_eq_zero h.2)).symm

theorem isFinite_of_isWhole (h : x.isWhole = true) : x.isFinite = true :=
  (Bool.and_eq_true_iff.1 h).1

theorem units_lt (h : x.isFinite = true) : x.units < pow2 2098 := by
  have hf : x.field < 2047 :=
    Nat.div_lt_of_lt_mul (Nat.mul_comm 2047 (pow2 52) ▸ of_decide_eq_true h)
  have hs : x.shift ≤ 2045 := by
    rw [shift]
    omega
  calc x.units ≤ x.significand * pow2 2045 := Nat.mul_le_mul_left _ (pow2_le_pow2 hs)
    _ < pow2 53 * pow2 2045 := Nat.mul_lt_mul_of_pos_right x.significand_lt (pow2_pos 2045)
    _ = pow2 2098 := (pow2_add 53 2045).symm

/-- The digits of a whole float are those of a whole number written for it. -/
theorem exists_positional_of_isWhole (h : x.isWhole = true) :
    ∃ n, positional (shortest .away x) = digits n ∧ Writes n x.integerPart := by
  have hu := units_of_isWhole h
  rcases Nat.eq_zero_or_pos x.integerPart with hz | hpos
  · have hs : shortest .away x = ⟨0, 0⟩ := by
      rw [shortest, if_pos (by rw [hu, hz, Nat.zero_mul])]
    refine ⟨0, ?_, ?_, fun _ => hz.symm⟩
    · simp [hs, positional]
    · rw [hz]
      decide
  · obtain ⟨he, hn⟩ := Shortest.writes_shortest .away hu hpos
    exact ⟨_, Scientific.positional_eq_digits he (hn.near.pos hpos), hn⟩

/-- The text of a whole float is a numeral, without more digits than a decimal has
positions. -/
theorem exists_render_of_isWhole (h : x.isWhole = true) :
    ∃ n, x.render.toList = (Numeral.ofNat x.sign n).text ∧ Writes n x.integerPart ∧
      (digits n).length ≤ Decimal.highest + 1 := by
  have hf := isFinite_of_isWhole h
  obtain ⟨n, hp, hn⟩ := exists_positional_of_isWhole h
  refine ⟨n, ?_, hn, ?_⟩
  · have hnan : x.isNaN = false :=
      decide_eq_false (Nat.not_lt.2 (Nat.le_of_lt (of_decide_eq_true hf)))
    rw [render, hnan, hf, hp, Numeral.text_eq, Numeral.ofNat, sign]
    cases x.isNegative <;> simp
  · have hi : x.integerPart ≤ x.units := Nat.div_le_self _ _
    have hlt : n < pow2 2099 := by
      have := hn.near.le_two_mul
      have := units_lt hf
      rw [pow2_succ]
      omega
    have hl : (digits n).length ≤ 2099 :=
      (length_digits_le_iff (by decide)).2 (Nat.lt_of_lt_of_le hlt (pow2_le_pow10 2099))
    exact Nat.le_trans hl (by decide)

/-- The decimal read from the text of a whole float. -/
theorem exists_read?_render_of_isWhole (h : x.isWhole = true) :
    ∃ n, Decimal.read? x.render.toList = some (Numeral.ofNat x.sign n).toDecimal ∧
      Writes n x.integerPart := by
  obtain ⟨n, hr, hn, hl⟩ := exists_render_of_isWhole h
  have hl : (Numeral.ofNat x.sign n).digits.length ≤ Decimal.highest + 1 := hl
  exact ⟨n, by rw [hr, Numeral.read?_text, if_pos hl], hn⟩

end Double

end Phrasebook.Number
