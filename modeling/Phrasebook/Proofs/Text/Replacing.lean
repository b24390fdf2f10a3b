import Phrasebook.Text.Split

/-!
# Phrasebook.Proofs.Text.Replacing

Replacing a pattern, place by place.

A pattern is replaced wherever it begins (`replaceFrom_append`), and everything else is copied
(`replaceFrom_cons`).  A mark begins with a brace that does not come again in it, so that its
occurrences do not overlap: each place where it begins is one that is replaced.

* What the text is made of can be counted before and after (`count_replaceFrom`).
* A text put in front of another adds occurrences or none; if it adds none it is copied as it
  is (`replaceFrom_append_of_occurrences`).
-/

namespace Phrasebook.Text

/-! ## one place -/

section
variable {pattern replacement s : List Char} {c : Char}

/-- The number of places where a pattern begins. -/
def occurrences (pattern : List Char) : List Char → Nat
  | [] => 0
  | c :: s => (if pattern.isPrefixOf (c :: s) then 1 else 0) + occurrences pattern s

theorem occurrences_cons (h : pattern.isPrefixOf (c :: s) = false) :
    occurrences pattern (c :: s) = occurrences pattern s := by
  rw [occurrences, h, if_neg Bool.false_ne_true, Nat.zero_add]

theorem replaceFrom_cons (h : pattern.isPrefixOf (c :: s) = false) :
    replaceFrom pattern replacement 0 (c :: s) = c :: replaceFrom pattern replacement 0 s := by
  simp [replaceFrom, h]

/-- The rest of an occurrence is passed over. -/
theorem replaceFrom_length_append (u s : List Char) :
    replaceFrom pattern replacement u.length (u ++ s) = replaceFrom pattern replacement 0 s := by
  induction u with
  | nil => rfl
  | cons d u ih => exact ih

/-- An occurrence is replaced. -/
theorem replaceFrom_append (h : pattern ≠ []) (s : List Char) :
    replaceFrom pattern replacement 0 (pattern ++ s) =
      replacement ++ replaceFrom pattern replacement 0 s := by
  obtain ⟨c, u, rfl⟩ := List.exists_cons_of_ne_nil h
  have hp : (c :: u).isPrefixOf (c :: (u ++ s)) = true :=
    List.isPrefixOf_iff_prefix.2 (List.prefix_append (c :: u) s)
  rw [List.cons_append, replaceFrom]
  simp only [hp, if_true]
  exact congrArg _ (replaceFrom_length_append u s)

end

theorem toList_replaceAll (pattern replacement text : String) :
    (replaceAll pattern replacement text).toList =
      replaceFrom pattern.toList replacement.toList 0 text.toList :=
  String.toList_ofList

/-! ## texts in front -/

section
variable (pattern : List Char) (x s : List Char)

/-- A text in front takes no occurrence away. -/
theorem occurrences_le_append : occurrences pattern s ≤ occurrences pattern (x ++ s) := by
  induction x with
  | nil => exact Nat.le_refl _
  | cons c x ih =>
    rw [List.cons_append, occurrences]
    omega

/-- A text in front that adds no occurrence is copied. -/
theorem replaceFrom_append_of_occurrences (replacement : List Char)
    (h : occurrences pattern (x ++ s) = occurrences pattern s) :
    replaceFrom pattern replacement 0 (x ++ s) = x ++ replaceFrom pattern replacement 0 s := by
  induction x with
  | nil => rfl
  | cons c x ih =>
    have hle := occurrences_le_append pattern x s
    rw [List.cons_append, occurrences] at h
    cases hp : pattern.isPrefixOf (c :: (x ++ s)) with
    | true =>
      rw [hp, if_pos rfl] at h
      omega
    | false =>
      rw [hp, if_neg Bool.false_ne_true, Nat.zero_add] at h
      rw [List.cons_append, List.cons_append, replaceFrom_cons hp, ih h]

end

/-! ## marks -/

/-- A mark begins with a brace, and there is no other opening brace in it. -/
def IsMark (mark : List Char) : Prop := ∃ w, mark = '{' :: w ∧ '{' ∉ w

namespace IsMark

variable {mark : List Char}

theorem ne_nil (h : IsMark mark) : mark ≠ [] := by
  obtain ⟨w, rfl, -⟩ := h
  exact List.cons_ne_nil _ _

theorem count_brace (h : IsMark mark) : mark.count '{' = 1 := by
  obtain ⟨w, rfl, hw⟩ := h
  rw [List.count_cons_self, List.count_eq_zero.2 hw]

/-- A mark does not begin inside a text without braces. -/
theorem occurrences_append_of_not_mem (h : IsMark mark) {x : List Char} (hx : '{' ∉ x)
    (s : List Char) : occurrences mark (x ++ s) = occurrences mark s := by
  obtain ⟨w, rfl, -⟩ := h
  induction x with
  | nil => rfl
  | cons c x ih =>
    obtain ⟨hc, hx⟩ := List.ne_and_not_mem_of_not_mem_cons hx
    have hp : ('{' :: w).isPrefixOf (c :: (x ++ s)) = false := by simp [List.isPrefixOf, hc]
    rw [List.cons_append, occurrences_cons hp, ih hx]

theorem occurrences_append (h : IsMark mark) (s : List Char) :
    occurrences mark (mark ++ s) = occurrences mark s + 1 := by
  obtain ⟨w, hm, hw⟩ := h
  have hp : mark.isPrefixOf ('{' :: (w ++ s)) = true :=
    List.isPrefixOf_iff_prefix.2 ⟨s, by rw [hm]; rfl⟩
  calc occurrences mark (mark ++ s)
      = occurrences mark ('{' :: (w ++ s)) := congrArg (fun m => occurrences mark (m ++ s)) hm
    _ = 1 + occurrences mark (w ++ s) := by rw [occurrences, if_pos hp]
    _ = occurrences mark s + 1 := by
      rw [occurrences_append_of_not_mem ⟨w, hm, hw⟩ hw, Nat.add_comm]

/-- A text is empty, or begins with the mark or with another character. -/
theorem induction {P : List Char → Prop} (h : IsMark mark) (nil : P [])
    (occurrence : ∀ s, P s → P (mark ++ s))
    (other : ∀ c s, mark.isPrefixOf (c :: s) = false → P s → P (c :: s)) (s : List Char) : P s := by
  induction hn : s.length using Nat.strongRecOn generalizing s with
  | _ n ih =>
    cases s with
    | nil => exact nil
    | cons c s =>
      cases hp : mark.isPrefixOf (c :: s) with
      | false => exact other c s hp (ih s.length (by simp [← hn]) s rfl)
      | true =>
        obtain ⟨t, ht⟩ := List.isPrefixOf_iff_prefix.1 hp
        have hpos := List.length_pos_iff.2 h.ne_nil
        have hlen : t.length < n := by
          rw [← hn, ← ht, List.length_append]
          omega
        rw [← ht]
        exact occurrence t (ih t.length hlen t rfl)

/-- Every occurrence of a mark is replaced, and nothing else changes: so it can be counted. -/
theorem count_replaceFrom (h : IsMark mark) {replacement : List Char} (hr : '{' ∉ replacement)
    (s : List Char) :
    (replaceFrom mark replacement 0 s).count '{' + occurrences mark s = s.count '{' := by
  induction s using h.induction with
  | nil => rfl
  | occurrence s ih =>
    rw [replaceFrom_append h.ne_nil, h.occurrences_append, List.count_append, List.count_append,
      List.count_eq_zero.2 hr, h.count_brace, ← ih]
    omega
  | other c s hp ih =>
    rw [replaceFrom_cons hp, occurrences_cons hp, List.count_cons, List.count_cons, ← ih]
    omega

end IsMark

end Phrasebook.Text
