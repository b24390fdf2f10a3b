import Phrasebook.Template.Layout
import Phrasebook.Proofs.Template.Grammar

/-!
# Phrasebook.Proofs.Template.Memo

The parser that remembers failures reads what the grammar reads.

A failure is recorded as the length of a text and a level.  All texts of one parse
are ends of the whole template, so the length tells which of them was meant, and
a placeholder of the grammar depends on its text and its level alone.  The
invariant of a parse is therefore `TrueFailures`: whatever is recorded does not
parse, whichever attempt recorded it and whether or not that attempt was given up
later.

The readers are taken in the order of their definitions.  Each is shown to keep
the invariant and to answer as its counterpart in `Grammar`, provided that the
reader of placeholders handed to it does (`Follows`); `follows_placeholder`
closes the circle by induction on the level.
-/

namespace Phrasebook.Template

namespace Parser

/-! ## the invariant -/

instance : Std.TransCmp attemptOrder := inferInstanceAs (Std.TransCmp (compareLex _ _))

theorem attemptOrder_eq_iff {a b : Nat × Nat} : attemptOrder a b = .eq ↔ a = b := by
  simp [attemptOrder, compareLex_eq_eq, compareOn, Prod.ext_iff]

/-- Every recorded failure is one of the grammar, at the end of the template that has
the recorded length. -/
def TrueFailures (whole : List Char) (f : Failures) : Prop :=
  ∀ s level, s <:+ whole → f.contains (s.length, level) = true →
    Grammar.placeholder level s = none

theorem trueFailures_empty (whole : List Char) : TrueFailures whole ∅ := by
  intro s level _ h
  simp at h

theorem TrueFailures.insert {whole s : List Char} {f : Failures} {level : Nat}
    (hf : TrueFailures whole f) (hs : s <:+ whole) (h : Grammar.placeholder level s = none) :
    TrueFailures whole (f.insert (s.length, level)) := by
  intro t k ht hc
  rw [Std.TreeSet.contains_insert, Bool.or_eq_true, beq_iff_eq, attemptOrder_eq_iff] at hc
  rcases hc with hc | hc
  · -- two ends of one text that are equally long are the same
    obtain ⟨hl, rfl⟩ := Prod.ext_iff.1 hc
    rw [List.IsSuffix.eq_of_length (List.suffix_of_suffix_length_le ht hs (by simp_all)) hl.symm]
    exact h
  · exact hf t k ht hc

/-- A reader of placeholders that answers as a plain one, at every end of the template
and whatever true failures it is given, and that records true failures only. -/
def Follows (whole : List Char) (inner : Inner) (plain : Grammar.Inner) : Prop :=
  ∀ s f, s <:+ whole → TrueFailures whole f →
    ∃ f', TrueFailures whole f' ∧ inner s.length s f = (plain s, f')

/-! ## the readers -/

section

variable {whole : List Char} {inner : Inner} {plain : Grammar.Inner}

theorem Follows.item (h : Follows whole inner plain) (p : Place) {c : Char} {s : List Char}
    {f : Failures} (hs : c :: s <:+ whole) (hf : TrueFailures whole f) :
    ∃ f', TrueFailures whole f' ∧
      item inner p (c :: s).length c s f = (Grammar.item plain p c s, f') := by
  unfold Parser.item Grammar.item
  by_cases hc : c = '{'
  · obtain ⟨f', hf', he⟩ := h s f ((List.suffix_cons c s).trans hs) hf
    rw [if_pos hc, if_pos hc, List.length_cons, Nat.add_sub_cancel, he]
    cases plain s with
    | none => exact ⟨f', hf', rfl⟩
    | some r => exact ⟨f', hf', rfl⟩
  · exact ⟨f, hf, by rw [if_neg hc, if_neg hc]⟩

theorem Follows.items (h : Follows whole inner plain) (p : Place) {s : List Char}
    (hs : s <:+ whole) (done : List (Node Tree)) (taken : Nat) {f : Failures}
    (hf : TrueFailures whole f) :
    ∃ f', TrueFailures whole f' ∧
      items inner p done taken s.length s f =
        (done.reverse ++ (Grammar.items plain p s).1, taken + (Grammar.items plain p s).2, f') := by
  induction s using Grammar.items.induct plain p
    generalizing done taken f with
  | case1 => exact ⟨f, hf, by simp [Parser.items, Grammar.items]⟩
  | case2 c s hi =>
    obtain ⟨f', hf', he⟩ := h.item p hs hf
    refine ⟨f', hf', ?_⟩
    rw [Parser.items, he, Grammar.items, hi]
    simp
  | case3 c s x n hi ih =>
    obtain ⟨f', hf', he⟩ := h.item p hs hf
    have hn := Grammar.pos_of_item hi
    have hd : s.drop (n - 1) <:+ whole :=
      (List.drop_suffix _ s).trans ((List.suffix_cons c s).trans hs)
    obtain ⟨f'', hf'', hr⟩ := ih hd (x :: done) (taken + n) hf'
    refine ⟨f'', hf'', ?_⟩
    have hl : (c :: s).length - n = (s.drop (n - 1)).length := by
      rw [List.length_drop, List.length_cons]; omega
    rw [Parser.items, he, Grammar.items, hi]
    simp only [hl, hr, List.reverse_cons, List.append_assoc, List.singleton_append,
      Nat.add_assoc]

theorem Follows.branch (h : Follows whole inner plain) {s : List Char} (hs : s <:+ whole)
    {f : Failures} (hf : TrueFailures whole f) :
    ∃ f', TrueFailures whole f' ∧
      branch inner s.length s f = (Grammar.branch plain s, f') := by
  unfold Parser.branch Grammar.branch
  cases readSelector? s with
  | none => exact ⟨f, hf, rfl⟩
  | some r =>
    obtain ⟨selector, a⟩ := r
    dsimp only
    generalize a + blanks (s.drop a) = a
    have hd : s.drop a <:+ whole := (List.drop_suffix a s).trans hs
    have hl : s.length - a = (s.drop a).length := List.length_drop.symm
    rw [hl]
    generalize s.drop a = u at hd
    split
    · next t =>
      obtain ⟨f', hf', he⟩ := h.items .branch ((List.suffix_cons _ t).trans hd) [] 0 hf
      refine ⟨f', hf', ?_⟩
      rw [List.length_cons, Nat.add_sub_cancel, he]
      simp only [List.reverse_nil, List.nil_append, Nat.zero_add]
      generalize t.drop (Grammar.items plain .branch t).2 = v
      split
      · rfl
      · simp
    · next hu => exact ⟨f, hf, by simp⟩

theorem Follows.branches (h : Follows whole inner plain) {s : List Char} (hs : s <:+ whole)
    (done : List (Branch Tree)) (taken : Nat) {f : Failures} (hf : TrueFailures whole f) :
    ∃ f', TrueFailures whole f' ∧
      branches inner done taken s.length s f =
        (done.reverse ++ (Grammar.branches plain s).1, taken + (Grammar.branches plain s).2,
          f') := by
  induction s using Grammar.branches.induct plain
    generalizing done taken f with
  | case1 => exact ⟨f, hf, by simp [Parser.branches, Grammar.branches]⟩
  | case2 c s hb =>
    obtain ⟨f', hf', he⟩ := h.branch hs hf
    refine ⟨f', hf', ?_⟩
    rw [Parser.branches, he, Grammar.branches, hb]
    simp
  | case3 c s b n hb ih =>
    obtain ⟨f', hf', he⟩ := h.branch hs hf
    have hn := Grammar.pos_of_branch hb
    have hd : s.drop (n - 1) <:+ whole :=
      (List.drop_suffix _ s).trans ((List.suffix_cons c s).trans hs)
    obtain ⟨f'', hf'', hr⟩ := ih hd (b :: done) (taken + n) hf'
    refine ⟨f'', hf'', ?_⟩
    have hl : (c :: s).length - n = (s.drop (n - 1)).length := by
      rw [List.length_drop, List.length_cons]; omega
    rw [Parser.branches, he, Grammar.branches, hb]
    simp only [hl, hr, List.reverse_cons, List.append_assoc, List.singleton_append,
      Nat.add_assoc]

theorem Follows.choice? (h : Follows whole inner plain) {s : List Char} (hs : s <:+ whole)
    {f : Failures} (hf : TrueFailures whole f) :
    ∃ f', TrueFailures whole f' ∧
      choice? inner s.length s f = (Grammar.choice? plain s, f') := by
  unfold Parser.choice? Grammar.choice?
  cases readPluralMark? s with
  | none => exact ⟨f, hf, rfl⟩
  | some a =>
    obtain ⟨f', hf', he⟩ := h.branches ((List.drop_suffix a s).trans hs) [] 0 hf
    refine ⟨f', hf', ?_⟩
    rw [List.length_drop] at he
    simp only [he, List.reverse_nil, List.nil_append, Nat.zero_add]
    split
    · rfl
    · generalize s.drop (a + (Grammar.branches plain (s.drop a)).2) = v
      split
      · rfl
      · simp

end

theorem Follows.attempt {whole : List Char} {inner : Inner} {level : Nat}
    (h : Follows whole inner (Grammar.placeholder level)) {s : List Char} (hs : s <:+ whole)
    {f : Failures} (hf : TrueFailures whole f) :
    ∃ f', TrueFailures whole f' ∧
      attempt inner s.length s f = (Grammar.placeholder (level + 1) s, f') := by
  unfold Parser.attempt
  cases hr : readHead? s with
  | none => exact ⟨f, hf, by rw [Grammar.placeholder, hr]⟩
  | some r =>
    obtain ⟨argument, a⟩ := r
    obtain ⟨f', hf', he⟩ := h.choice? ((List.drop_suffix a s).trans hs) hf
    rw [List.length_drop] at he
    dsimp only
    split
    · next ht => exact ⟨f, hf, by rw [Grammar.placeholder_of_brace hr ht]⟩
    · next hn =>
      refine ⟨f', hf', ?_⟩
      rw [he]
      cases hc : Grammar.choice? (Grammar.placeholder level) (s.drop a) with
      | none => rw [Grammar.placeholder_of_no_choice hr hn hc]
      | some r => rw [Grammar.placeholder_of_choice hr hc]

/-- At every level the placeholders of the parser are those of the grammar. -/
theorem follows_placeholder (whole : List Char) (level : Nat) :
    Follows whole (placeholder level) (Grammar.placeholder level) := by
  induction level with
  | zero => exact fun s f _ hf => ⟨f, hf, rfl⟩
  | succ level ih =>
    intro s f hs hf
    unfold placeholder
    split
    · next hc => exact ⟨f, hf, by rw [hf s _ hs hc]⟩
    · obtain ⟨f', hf', he⟩ := ih.attempt hs hf
      rw [he]
      cases hp : Grammar.placeholder (level + 1) s with
      | none => exact ⟨_, hf'.insert hs hp, rfl⟩
      | some r => exact ⟨f', hf', rfl⟩

/-- The parser builds the tree of the grammar. -/
theorem tree_eq (s : List Char) : tree s = Grammar.tree s := by
  obtain ⟨f, -, he⟩ := (follows_placeholder s maxNesting).items .top List.suffix_rfl [] 0
    (trueFailures_empty s)
  rw [tree, he, Grammar.tree, List.reverse_nil, List.nil_append]

/-! ## transparency -/

/-- Remembered failures are not seen: the parser gives the template of the grammar, and
at every place of a text and every level an attempt answers as the grammar does,
whatever true failures were recorded before, and records true failures only. -/
theorem parse_eq_grammar (text : String) :
    parse text = ofTree (Grammar.tree text.toList) ∧
      ∀ s level f, s <:+ text.toList → TrueFailures text.toList f →
        (placeholder level s.length s f).1 = Grammar.placeholder level s ∧
          TrueFailures text.toList (placeholder level s.length s f).2 := by
  refine ⟨by rw [parse, tree_eq], ?_⟩
  intro s level f hs hf
  obtain ⟨f', hf', he⟩ := follows_placeholder text.toList level s f hs hf
  rw [he]
  exact ⟨rfl, hf'⟩

theorem parse_eq_grammar_unclosed :
    ∃ f : Failures, f.contains (1, 31) = true ∧
      (placeholder 31 1 ['x'] f).1 = Grammar.placeholder 31 ['x'] ∧
      parse "\x7ba, plural, one\x7b \x7bx" =
        ofTree (Grammar.tree "\x7ba, plural, one\x7b \x7bx".toList) := by
  have hs : ['x'] <:+ "\x7ba, plural, one\x7b \x7bx".toList := by decide
  have hf : TrueFailures "\x7ba, plural, one\x7b \x7bx".toList
      ((∅ : Failures).insert (1, 31)) :=
    (trueFailures_empty _).insert hs (by decide +kernel)
  obtain ⟨hp, hg⟩ := parse_eq_grammar "\x7ba, plural, one\x7b \x7bx"
  exact ⟨_, by decide +kernel, (hg ['x'] 31 _ hs hf).1, hp⟩

end Parser

end Phrasebook.Template
