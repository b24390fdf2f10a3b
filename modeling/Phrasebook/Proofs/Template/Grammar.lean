import Phrasebook.Template.Grammar

/-!
# Phrasebook.Proofs.Template.Grammar

What the readers of the grammar can answer, case by case.

The lemmas named `_cases` take a reader's answer apart, guards included; whatever
is proved about all that can be read goes through them and unfolds no reader.
Every node and every branch takes at least one character.
-/

namespace Phrasebook.Template

/-- A node that is no placeholder: an escape, a single character as text, a run of
text, or the mark for the quantity. -/
theorem readPlain?_cases {p : Place} {c : Char} {s : List Char} {x : Node Tree} {n : Nat}
    (h : readPlain? p c s = some (x, n)) :
    (∃ e t, c = '\\' ∧ s = e :: t ∧ isSpecial e = true ∧ x = literalChar e ∧ n = 2) ∨
      x = literalChar c ∧ n = 1 ∨
      p.isText c = true ∧ x = .literal (String.ofList (c :: s.takeWhile p.isText)) ∧
        n = (c :: s.takeWhile p.isText).length ∨
      p = .branch ∧ c = '#' ∧ x = .quantity ∧ n = 1 := by
  unfold readPlain? at h
  split at h
  · next hc =>
    subst hc
    split at h
    · next e t =>
      split at h <;> cases h
      · next he => exact .inl ⟨e, t, rfl, rfl, he, rfl, rfl⟩
      · exact .inr (.inl ⟨rfl, rfl⟩)
    · cases h; exact .inr (.inl ⟨rfl, rfl⟩)
  · split at h
    · next ht => cases h; exact .inr (.inr (.inl ⟨ht, rfl, rfl⟩))
    · split at h
      · next hc => cases h; subst hc; exact .inr (.inl ⟨rfl, rfl⟩)
      · split at h
        · cases h; exact .inr (.inl ⟨rfl, rfl⟩)
        · split at h <;> cases h
          next hc => exact .inr (.inr (.inr ⟨rfl, hc, rfl, rfl⟩))

theorem pos_of_readPlain? {p : Place} {c : Char} {s : List Char} {x : Node Tree} {n : Nat}
    (h : readPlain? p c s = some (x, n)) : 0 < n := by
  obtain ⟨_, _, -, -, -, -, rfl⟩ | ⟨-, rfl⟩ | ⟨-, -, rfl⟩ | ⟨-, -, -, rfl⟩ := readPlain?_cases h
  · decide
  · decide
  · exact Nat.succ_pos _
  · decide

namespace Grammar

/-- A node of a sequence is a placeholder after its brace, or no placeholder. -/
theorem item_cases {inner : Inner} {p : Place} {c : Char} {s : List Char} {x : Node Tree}
    {n : Nat} (h : item inner p c s = some (x, n)) :
    (∃ m, c = '{' ∧ inner s = some (x, m) ∧ n = m + 1) ∨ readPlain? p c s = some (x, n) := by
  unfold item at h
  split at h
  · next hc =>
    split at h
    · next hi => cases h; exact .inl ⟨_, hc, hi, rfl⟩
    · exact .inr h
  · exact .inr h

theorem pos_of_item {inner : Inner} {p : Place} {c : Char} {s : List Char} {x : Node Tree}
    {n : Nat} (h : item inner p c s = some (x, n)) : 0 < n := by
  obtain ⟨m, -, -, rfl⟩ | h := item_cases h
  · omega
  · exact pos_of_readPlain? h

/-- A branch is a condition, blanks, a body in braces, and blanks. -/
theorem branch_cases {inner : Inner} {s : List Char} {b : Branch Tree} {n : Nat}
    (h : branch inner s = some (b, n)) :
    ∃ selector a t u, readSelector? s = some (selector, a) ∧
      s.drop (a + blanks (s.drop a)) = '{' :: t ∧
      t.drop (items inner .branch t).2 = '}' :: u ∧
      b = ⟨selector, .merged (items inner .branch t).1⟩ ∧
      n = a + blanks (s.drop a) + (items inner .branch t).2 + 2 + blanks u := by
  unfold branch at h
  split at h
  · cases h
  · next selector a hs =>
    dsimp only at h
    split at h
    · next t ht =>
      split at h
      · next u hu => cases h; exact ⟨selector, a, t, u, hs, ht, hu, rfl, rfl⟩
      · cases h
    · cases h

theorem pos_of_branch {inner : Inner} {s : List Char} {b : Branch Tree} {n : Nat}
    (h : branch inner s = some (b, n)) : 0 < n := by
  obtain ⟨_, _, _, _, -, -, -, -, rfl⟩ := branch_cases h
  omega

/-- After a branch come the others. -/
theorem branches_of_branch {inner : Inner} {s : List Char} {b : Branch Tree} {n : Nat}
    (h : branch inner s = some (b, n)) :
    branches inner s =
      (b :: (branches inner (s.drop n)).1, n + (branches inner (s.drop n)).2) := by
  have hn := pos_of_branch h
  cases s with
  | nil =>
    obtain ⟨_, _, _, _, hs, -⟩ := branch_cases h
    cases hs
  | cons c s =>
    rw [branches, h]
    obtain ⟨n, rfl⟩ : ∃ m, n = m + 1 := ⟨n - 1, by omega⟩
    rfl

/-- The branches of a choice are one or more, and a closing brace follows. -/
theorem choice?_cases {inner : Inner} {s : List Char} {bs : List (Branch Tree)} {n : Nat}
    (h : choice? inner s = some (bs, n)) :
    ∃ a u, readPluralMark? s = some a ∧ bs = (branches inner (s.drop a)).1 ∧ bs ≠ [] ∧
      s.drop (a + (branches inner (s.drop a)).2) = '}' :: u ∧
      n = a + (branches inner (s.drop a)).2 + 1 := by
  unfold choice? at h
  split at h
  · cases h
  · next a ha =>
    dsimp only at h
    split at h
    · cases h
    · next hb =>
      split at h
      · next u hu =>
        cases h
        exact ⟨a, u, ha, rfl, by simpa using hb, hu, rfl⟩
      · cases h

/-- One or more branches with the closing brace are those of a choice. -/
theorem choice?_of_branches {inner : Inner} {s u : List Char} {a : Nat}
    (ha : readPluralMark? s = some a) (hb : (branches inner (s.drop a)).1 ≠ [])
    (hu : s.drop (a + (branches inner (s.drop a)).2) = '}' :: u) :
    choice? inner s =
      some ((branches inner (s.drop a)).1, a + (branches inner (s.drop a)).2 + 1) := by
  have hb : ¬ (branches inner (s.drop a)).1.isEmpty = true := by simpa using hb
  simp only [choice?, ha, if_neg hb, hu]

/-- A placeholder is a reference with the closing brace, with branches, or with a
directive. -/
theorem placeholder_cases {level : Nat} {s : List Char} {x : Node Tree} {n : Nat}
    (h : placeholder (level + 1) s = some (x, n)) :
    ∃ r a, readHead? s = some (r, a) ∧
      ((∃ t, s.drop a = '}' :: t ∧ x = .placeholder r none (sourceOf s n) ∧ n = a + 1) ∨
        (∃ bs m, choice? (placeholder level) (s.drop a) = some (bs, m) ∧
          x = .plural r bs (sourceOf s n) ∧ n = a + m) ∨
        ∃ d m, readDirective? (s.drop a) = some (d, m) ∧
          x = .placeholder r d (sourceOf s n) ∧ n = a + m) := by
  unfold placeholder at h
  split at h
  · cases h
  · next r a hr =>
    refine ⟨r, a, hr, ?_⟩
    split at h
    · next t ht => cases h; exact .inl ⟨t, ht, rfl, rfl⟩
    · split at h
      · next bs m hc => cases h; exact .inr (.inl ⟨bs, m, hc, rfl, rfl⟩)
      · obtain ⟨⟨d, m⟩, hd, hx⟩ := Option.map_eq_some_iff.1 h
        cases hx
        exact .inr (.inr ⟨d, m, hd, rfl, rfl⟩)

section

variable {level : Nat} {s : List Char} {r : Reference} {a : Nat}

/-- A reference with the closing brace is a placeholder. -/
theorem placeholder_of_brace (hr : readHead? s = some (r, a)) {t : List Char}
    (ht : s.drop a = '}' :: t) :
    placeholder (level + 1) s = some (.placeholder r none (sourceOf s (a + 1)), a + 1) := by
  simp only [placeholder, hr, ht]

/-- A reference with branches is a choice. -/
theorem placeholder_of_choice (hr : readHead? s = some (r, a)) {bs : List (Branch Tree)} {n : Nat}
    (hc : choice? (placeholder level) (s.drop a) = some (bs, n)) :
    placeholder (level + 1) s = some (.plural r bs (sourceOf s (a + n)), a + n) := by
  rw [placeholder, hr]
  dsimp only
  split
  · next t ht => rw [ht] at hc; cases hc
  · rw [hc]

/-- A reference without the closing brace and without branches may have a directive. -/
theorem placeholder_of_no_choice (hr : readHead? s = some (r, a))
    (hn : ∀ t, s.drop a = '}' :: t → False)
    (hc : choice? (placeholder level) (s.drop a) = none) :
    placeholder (level + 1) s = (readDirective? (s.drop a)).map fun x =>
      (.placeholder r x.1 (sourceOf s (a + x.2)), a + x.2) := by
  rw [placeholder, hr]
  dsimp only
  split
  · next t ht => exact (hn t ht).elim
  · rw [hc]

/-- A reference with a directive is a placeholder, unless it is a choice. -/
theorem placeholder_of_directive (hr : readHead? s = some (r, a))
    (hc : choice? (placeholder level) (s.drop a) = none) {d : Option String} {n : Nat}
    (hd : readDirective? (s.drop a) = some (d, n)) :
    placeholder (level + 1) s = some (.placeholder r d (sourceOf s (a + n)), a + n) := by
  have hn : ∀ t, s.drop a = '}' :: t → False := by
    intro t ht
    rw [ht] at hd
    cases hd
  rw [placeholder_of_no_choice hr hn hc, hd, Option.map_some]

end

end Grammar

end Phrasebook.Template
