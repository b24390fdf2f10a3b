import Phrasebook.Proofs.Template.Canonical
import Phrasebook.Proofs.Template.Grammar

/-!
# Phrasebook.Proofs.Template.Reading

Whatever the grammar reads is in normal form.

The readers are taken from the tokens upwards.  A reader of placeholders is good
at a depth if all it reads is in normal form there (`Inner.Canonical`); such a
reader makes the nodes of a sequence, the bodies of branches and in the end the
placeholders one level further out good again.  Level and depth add up to
`maxNesting` all the way down, which is where the bound on nesting comes from.
-/

namespace Phrasebook.Template

open Phrasebook.Tree

/-! ## tokens -/

theorem isReference_of_readReference? {s : List Char} {r : Reference} {n : Nat}
    (h : readReference? s = some (r, n)) : isReference r = true := by
  unfold readReference? at h
  split at h
  · split at h
    · cases h
    · split at h
      · next hc =>
        cases h
        rw [isReference, String.toList_ofList, isName, hc, List.all_takeWhile, Bool.and_true]
      · cases h
  · obtain ⟨i, -, hi⟩ := Option.map_eq_some_iff.1 h
    cases hi
    rfl

theorem isReference_of_readHead? {s : List Char} {r : Reference} {n : Nat}
    (h : readHead? s = some (r, n)) : isReference r = true := by
  obtain ⟨⟨r', m⟩, hr, he⟩ := Option.map_eq_some_iff.1 h
  cases he
  exact isReference_of_readReference? hr

theorem isDirective_of_readDirective? {s : List Char} {d : Option String} {n : Nat}
    (h : readDirective? s = some (d, n)) : ∀ t ∈ d, isDirective t = true := by
  unfold readDirective? at h
  split at h
  · next s =>
    dsimp only at h
    split at h
    · cases h
      intro t ht
      split at ht
      · cases ht
      · next hne =>
        cases ht
        have hu : (Text.trimChars (s.takeWhile isUnbraced)).all isUnbraced = true :=
          List.all_eq_true.2 fun c hc =>
            List.all_eq_true.1 List.all_takeWhile c (Text.mem_of_mem_trimChars hc)
        rw [isDirective, String.toList_ofList, Text.trimChars_trimChars, hu]
        simpa using hne
    · cases h
  · cases h

/-- A node that is no placeholder is in normal form at every depth. -/
theorem canonical_readPlain? {p : Place} {c : Char} {s : List Char} {x : Node Tree} {n : Nat}
    (h : readPlain? p c s = some (x, n)) (depth : Nat) : CanonicalNodes p depth [x] := by
  obtain ⟨e, _, -, -, -, rfl, -⟩ | ⟨rfl, -⟩ | ⟨-, rfl, -⟩ | ⟨rfl, -, rfl, -⟩ :=
    readPlain?_cases h
  · simp [literalChar, CanonicalNodes, startsLiteral]
  · simp [literalChar, CanonicalNodes, startsLiteral]
  · simp [CanonicalNodes, startsLiteral]
  · simp [CanonicalNodes]

namespace Grammar

/-! ## sequences -/

/-- A reader of placeholders that reads what is in normal form at a depth. -/
def Inner.Canonical (inner : Inner) (depth : Nat) : Prop :=
  ∀ p s x n, inner s = some (x, n) → CanonicalNodes p depth [x]

section

variable {inner : Inner} {depth : Nat}

theorem Inner.Canonical.item (h : inner.Canonical depth) {p : Place} {c : Char} {s : List Char}
    {x : Node Tree} {n : Nat} (hx : item inner p c s = some (x, n)) :
    CanonicalNodes p depth [x] := by
  obtain ⟨m, -, hi, -⟩ | hx := item_cases hx
  · exact h p s x m hi
  · exact canonical_readPlain? hx depth

theorem Inner.Canonical.items (h : inner.Canonical depth) (p : Place) (s : List Char) :
    ∀ x ∈ (items inner p s).1, CanonicalNodes p depth [x] := by
  induction s using items.induct inner p with
  | case1 => simp [Grammar.items]
  | case2 c s hi => simp [Grammar.items, hi]
  | case3 c s x n hi ih =>
    rw [Grammar.items, hi]
    intro y hy
    rcases List.mem_cons.1 hy with rfl | hy
    · exact h.item hi
    · exact ih y hy

theorem Inner.Canonical.branch (h : inner.Canonical depth) {s : List Char} {b : Branch Tree}
    {n : Nat} (hb : branch inner s = some (b, n)) : b.body.CanonicalAt .branch depth := by
  obtain ⟨selector, a, t, u, -, -, -, rfl, -⟩ := branch_cases hb
  exact canonical_merged (h.items .branch t)

theorem Inner.Canonical.branches (h : inner.Canonical depth) (s : List Char) :
    CanonicalBranches depth (branches inner s).1 := by
  induction s using branches.induct inner with
  | case1 => rw [Grammar.branches, CanonicalBranches]; trivial
  | case2 c s hb => rw [Grammar.branches, hb, CanonicalBranches]; trivial
  | case3 c s b n hb ih =>
    obtain ⟨selector, body⟩ := b
    rw [Grammar.branches, hb, CanonicalBranches]
    exact ⟨h.branch hb, ih⟩

end

/-! ## placeholders -/

/-- A reader of placeholders is good at the depth that its level leaves. -/
theorem canonical_placeholder {level depth : Nat} (hd : level + depth = maxNesting) :
    Inner.Canonical (placeholder level) depth := by
  induction level generalizing depth with
  | zero => intro p s x n h; cases h
  | succ level ih =>
    intro p s x n h
    have hlt : depth < maxNesting := by omega
    obtain ⟨r, a, hr, h⟩ := placeholder_cases h
    have hr := isReference_of_readHead? hr
    obtain ⟨t, -, rfl, -⟩ | ⟨bs, m, hc, rfl, -⟩ | ⟨d, m, hd, rfl, -⟩ := h
    · rw [CanonicalNodes, CanonicalNodes]
      exact ⟨hlt, hr, by simp, trivial⟩
    · obtain ⟨b, u, -, rfl, hne, -, -⟩ := choice?_cases hc
      have hi : Inner.Canonical (placeholder level) (depth + 1) := ih (by omega)
      rw [CanonicalNodes, CanonicalNodes]
      exact ⟨hlt, hr, hne, hi.branches _, trivial⟩
    · rw [CanonicalNodes, CanonicalNodes]
      exact ⟨hlt, hr, isDirective_of_readDirective? hd, trivial⟩

/-- Every text reads as a tree in normal form. -/
theorem canonical_tree (s : List Char) : (tree s).Canonical :=
  canonical_merged ((canonical_placeholder rfl).items .top s)

end Grammar

end Phrasebook.Template
