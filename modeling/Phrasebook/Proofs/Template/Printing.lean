import Phrasebook.Proofs.Template.Tokens

/-!
# Phrasebook.Proofs.Template.Printing

Reading a printed tree gives the tree back, apart from the authored texts.

The statements are about a printed row of nodes or branches in front of a rest of
the template at which the row ends: nothing at the top, a closing brace in a
branch.  Literals are taken character by character: how the reader cuts a text into
runs and escapes is not seen once adjacent literals are merged
(`mergedItems_text`, `mergedItems_escape`).

The induction follows the tree.  The level left to a row and the choices around
it add up to `maxNesting`, so a tree in normal form never runs out of levels.
-/

namespace Phrasebook.Template

open Phrasebook.Tree

/-- What may follow the nodes of a sequence. -/
def Place.Ends : Place → List Char → Prop
  | .top, rest => rest = []
  | .branch, rest => ∃ t, rest = '}' :: t

/-! ## the authored texts are not printed -/

mutual

theorem print_bare : (t : Tree) → (p : Place) → t.bare.print p = t.print p
  | .sequence ns, p => by rw [bare, Tree.print, Tree.print, printNodes_bare ns p]

theorem printNodes_bare : (ns : List (Node Tree)) → (p : Place) →
    Tree.printNodes p (bareNodes ns) = Tree.printNodes p ns
  | [], p => rfl
  | .literal s :: rest, p => by
    rw [bareNodes, Tree.printNodes, Tree.printNodes, printNodes_bare rest p]
  | .placeholder r d source :: rest, p => by
    rw [bareNodes, Tree.printNodes, Tree.printNodes, printNodes_bare rest p]
  | .quantity :: rest, p => by
    rw [bareNodes, Tree.printNodes, Tree.printNodes, printNodes_bare rest p]
  | .plural r bs source :: rest, p => by
    rw [bareNodes, Tree.printNodes, Tree.printNodes, printNodes_bare rest p, printBranches_bare bs]

theorem printBranches_bare : (bs : List (Branch Tree)) →
    Tree.printBranches (bareBranches bs) = Tree.printBranches bs
  | [] => rfl
  | ⟨s, body⟩ :: rest => by
    rw [bareBranches, Tree.printBranches, Tree.printBranches, print_bare body .branch,
      printBranches_bare rest]

end

theorem display_bare (t : Tree) : t.bare.display = t.display := by
  rw [Tree.display, print_bare, Tree.display]

namespace Grammar

/-! ## sequences, merged -/

/-- The nodes of a sequence with adjacent literals made one, and the characters taken. -/
def mergedItems (inner : Inner) (p : Place) (s : List Char) : List (Node Tree) × Nat :=
  ((items inner p s).1.foldr consMerged [], (items inner p s).2)

section

variable {inner : Inner} {p : Place}

theorem mergedItems_cons {c : Char} {s : List Char} {x : Node Tree} {n : Nat}
    (h : item inner p c s = some (x, n)) :
    mergedItems inner p (c :: s) =
      (consMerged x (mergedItems inner p (s.drop (n - 1))).1,
        n + (mergedItems inner p (s.drop (n - 1))).2) := by
  rw [mergedItems, items, h]
  rfl

/-- A sequence ends where it may. -/
theorem mergedItems_of_ends {rest : List Char} (h : p.Ends rest) :
    mergedItems inner p rest = ([], 0) := by
  cases p with
  | top =>
    rw [Place.Ends] at h
    rw [h, mergedItems, items]
    rfl
  | branch =>
    obtain ⟨t, rfl⟩ := h
    have hi : item inner .branch '}' t = none := by
      simp [item, readPlain?, Place.isText]
    rw [mergedItems, items, hi]
    rfl

theorem item_text {c : Char} (hc : p.isText c = true) (s : List Char) :
    item inner p c s = some (.literal (String.ofList (c :: s.takeWhile p.isText)),
      (s.takeWhile p.isText).length + 1) := by
  have hb : c ≠ '{' := by rintro rfl; cases p <;> cases hc
  have he : c ≠ '\\' := by rintro rfl; cases p <;> cases hc
  rw [item, if_neg hb]
  unfold readPlain?
  rw [if_neg he, if_pos hc]
  rfl

/-- A character of plain text is added to the text that follows it. -/
theorem mergedItems_text {c : Char} (hc : p.isText c = true) (s : List Char) :
    mergedItems inner p (c :: s) =
      (consMerged (literalChar c) (mergedItems inner p s).1, (mergedItems inner p s).2 + 1) := by
  rw [mergedItems_cons (item_text hc s), Nat.add_sub_cancel]
  cases s with
  | nil =>
    rw [List.takeWhile_nil, literalChar, String.singleton_eq_ofList, Nat.add_comm]
    rfl
  | cons d s =>
    by_cases hd : p.isText d = true
    · -- the run of `c` is `c` in front of the run of `d`
      rw [mergedItems_cons (item_text hd s), List.takeWhile_cons_of_pos hd, literalChar,
        consMerged_consMerged_literal, Nat.add_sub_cancel, List.length_cons, List.drop_succ_cons,
        String.singleton_eq_ofList, ← String.ofList_append, List.singleton_append]
      simp only [Prod.mk.injEq, true_and]
      omega
    · rw [List.takeWhile_cons_of_neg hd, literalChar, String.singleton_eq_ofList, Nat.add_comm]
      rfl

/-- An escaped character is added to the text that follows it. -/
theorem mergedItems_escape {c : Char} (hc : isSpecial c = true) (s : List Char) :
    mergedItems inner p ('\\' :: c :: s) =
      (consMerged (literalChar c) (mergedItems inner p s).1, (mergedItems inner p s).2 + 2) := by
  have hi : item inner p '\\' (c :: s) = some (literalChar c, 2) := by
    simp [item, readPlain?, hc]
  rw [mergedItems_cons hi, Nat.add_comm]
  rfl

theorem isSpecial_of_not_isText {c : Char} (h : p.isText c = false) : isSpecial c = true := by
  cases p <;> simp [Place.isText, isSpecial] at h ⊢ <;> grind

/-- A printed character is added to the text that follows it. -/
theorem mergedItems_escaped (c : Char) (s : List Char) :
    mergedItems inner p (p.escape c ++ s) =
      (consMerged (literalChar c) (mergedItems inner p s).1,
        (mergedItems inner p s).2 + (p.escape c).length) := by
  unfold Place.escape
  split
  · next h => exact mergedItems_text h s
  · next h => exact mergedItems_escape (isSpecial_of_not_isText (by simpa using h)) s

/-- A printed literal is added to the text that follows it. -/
theorem mergedItems_printLiteral {a : String} (ha : a ≠ "") (s : List Char) :
    mergedItems inner p (p.printLiteral a ++ s) =
      (consMerged (.literal a) (mergedItems inner p s).1,
        (mergedItems inner p s).2 + (p.printLiteral a).length) := by
  obtain ⟨l, rfl⟩ : ∃ l, a = String.ofList l := ⟨a.toList, String.ofList_toList.symm⟩
  rw [Place.printLiteral, String.toList_ofList]
  induction l with
  | nil => exact absurd rfl ha
  | cons c l ih =>
    rw [List.flatMap_cons, List.append_assoc, mergedItems_escaped]
    cases l with
    | nil =>
      rw [List.flatMap_nil, List.nil_append, List.append_nil, literalChar,
        String.singleton_eq_ofList]
    | cons d l =>
      rw [ih (by simp), literalChar, consMerged_consMerged_literal, String.singleton_eq_ofList,
        ← String.ofList_append, List.singleton_append, List.length_append]
      simp only [Prod.mk.injEq, true_and]
      omega

/-- A placeholder that takes a printed text stands in front of what follows it. -/
theorem mergedItems_placeholder {body s : List Char} {x : Node Tree}
    (h : inner (body ++ s) = some (x, body.length)) (hx : x.isLiteral = false) :
    mergedItems inner p ('{' :: (body ++ s)) =
      (x :: (mergedItems inner p s).1, (mergedItems inner p s).2 + (body.length + 1)) := by
  have hi : item inner p '{' (body ++ s) = some (x, body.length + 1) := by
    rw [item, if_pos rfl, h]
  rw [mergedItems_cons hi, consMerged_of_apart (by rw [hx, Bool.false_and]), Nat.add_sub_cancel,
    List.drop_left, Nat.add_comm]

/-- The mark for the quantity stands in front of what follows it. -/
theorem mergedItems_quantity (s : List Char) :
    mergedItems inner .branch ('#' :: s) =
      (.quantity :: (mergedItems inner .branch s).1, (mergedItems inner .branch s).2 + 1) := by
  have hi : item inner .branch '#' s = some (.quantity, 1) := by
    simp [item, readPlain?, Place.isText]
  rw [mergedItems_cons hi, consMerged_of_apart (by rfl), Nat.sub_self, List.drop_zero,
    Nat.add_comm]

end

/-! ## placeholders -/

/-- A printed placeholder, after its brace. -/
theorem placeholder_print {r : Reference} (hr : isReference r = true) {d : Option String}
    (hd : ∀ t ∈ d, isDirective t = true) (level : Nat) (s : List Char) :
    ∃ body source, printPlaceholder r d = '{' :: body ∧
      placeholder (level + 1) (body ++ s) = some (.placeholder r d source, body.length) := by
  cases d with
  | none =>
    have hh := readHead?_render hr (c := '}') (by decide) (s := '}' :: s) rfl
    have hp : placeholder (level + 1) (r.render.toList ++ '}' :: s) = _ :=
      placeholder_of_brace hh List.drop_left
    rw [show r.render.toList ++ '}' :: s = r.render.toList ++ ['}'] ++ s by simp,
      show r.render.toList.length + 1 = (r.render.toList ++ ['}']).length by simp] at hp
    exact ⟨_, _, rfl, hp⟩
  | some t =>
    have ht := hd t rfl
    have hu : ∀ c ∈ ", ".toList ++ t.toList, isUnbraced c = true := by
      simp only [isDirective, Bool.and_eq_true, List.all_eq_true] at ht
      intro c hc
      rcases List.mem_append.1 hc with hc | hc
      · have hw : ∀ c ∈ ", ".toList, isUnbraced c = true := List.all_eq_true.1 (by decide)
        exact hw c hc
      · exact ht.2 c hc
    have hh := readHead?_render hr (c := ',') (by decide)
      (s := ", ".toList ++ t.toList ++ '}' :: s) (by simp)
    have hp := placeholder_of_directive hh
      (by rw [List.drop_left]; exact choice?_unbraced (placeholder level) hu s)
      (by rw [List.drop_left]; exact readDirective?_print ht s)
    rw [show r.render.toList ++ (", ".toList ++ t.toList ++ '}' :: s) =
        r.render.toList ++ ", ".toList ++ t.toList ++ ['}'] ++ s by simp,
      show r.render.toList.length + ((", ".toList ++ t.toList).length + 1) =
        (r.render.toList ++ ", ".toList ++ t.toList ++ ['}']).length by
          simp [Nat.add_assoc]] at hp
    exact ⟨_, _, rfl, hp⟩

/-- A printed placeholder stands in front of what follows it. -/
theorem mergedItems_printPlaceholder {r : Reference} (hr : isReference r = true)
    {d : Option String} (hd : ∀ t ∈ d, isDirective t = true) (level : Nat) (p : Place)
    (s : List Char) :
    ∃ source, mergedItems (placeholder (level + 1)) p (printPlaceholder r d ++ s) =
      (.placeholder r d source :: (mergedItems (placeholder (level + 1)) p s).1,
        (mergedItems (placeholder (level + 1)) p s).2 + (printPlaceholder r d).length) := by
  obtain ⟨body, source, ht, hp⟩ := placeholder_print hr hd level s
  exact ⟨source, by rw [ht, List.cons_append, mergedItems_placeholder hp rfl, List.length_cons]⟩

/-- The branches that are read after the opening of a choice, with the blanks in front
of them. -/
def spacedBranches (inner : Inner) (s : List Char) : List (Branch Tree) × Nat :=
  ((branches inner (s.drop (blanks s))).1, blanks s + (branches inner (s.drop (blanks s))).2)

/-- A printed choice, after its brace, if its printed branches are read. -/
theorem choice_print {r : Reference} (hr : isReference r = true) {level : Nat}
    {bs : List (Branch Tree)} {u s : List Char} (hb : bs ≠ [])
    (hu : spacedBranches (placeholder level) (u ++ '}' :: s) = (bs, u.length)) :
    ∃ body source, printPluralMark r ++ u ++ ['}'] = '{' :: body ∧
      placeholder (level + 1) (body ++ s) = some (.plural r bs source, body.length) := by
  obtain ⟨h₁, h₂⟩ := Prod.ext_iff.1 hu
  dsimp only [spacedBranches] at h₁ h₂
  -- the choice, from its opening on
  have hm := readPluralMark?_print (u ++ '}' :: s)
  have hd (k : Nat) : (", plural,".toList ++ (u ++ '}' :: s)).drop (", plural,".toList.length + k) =
      (u ++ '}' :: s).drop k := List.drop_length_add_append k
  have hc := choice?_of_branches hm (by rw [hd, h₁]; exact hb)
    (by rw [hd, Nat.add_assoc, h₂, hd, List.drop_left])
  rw [hd, h₁, Nat.add_assoc _ _ (Prod.snd _), h₂] at hc
  have hh := readHead?_render hr (c := ',') (by decide)
    (s := ", plural,".toList ++ (u ++ '}' :: s)) (by simp)
  have hp := placeholder_of_choice hh (by rw [List.drop_left]; exact hc)
  rw [show r.render.toList ++ (", plural,".toList ++ (u ++ '}' :: s)) =
      r.render.toList ++ ", plural,".toList ++ u ++ ['}'] ++ s by simp,
    show r.render.toList.length + (", plural,".toList.length + u.length + 1) =
      (r.render.toList ++ ", plural,".toList ++ u ++ ['}']).length by
        simp only [List.length_append, List.length_singleton, Nat.add_assoc]] at hp
  exact ⟨_, _, rfl, hp⟩

/-- A printed choice stands in front of what follows it, if its printed branches are
read. -/
theorem mergedItems_printChoice {r : Reference} (hr : isReference r = true) {level : Nat}
    {bs : List (Branch Tree)} {u s : List Char} (hb : bs ≠ [])
    (hu : spacedBranches (placeholder level) (u ++ '}' :: s) = (bs, u.length)) (p : Place) :
    ∃ source, mergedItems (placeholder (level + 1)) p (printPluralMark r ++ u ++ '}' :: s) =
      (.plural r bs source :: (mergedItems (placeholder (level + 1)) p s).1,
        (mergedItems (placeholder (level + 1)) p s).2 +
          ((printPluralMark r ++ u).length + 1)) := by
  obtain ⟨body, source, ht, hp⟩ := choice_print hr hb hu
  have hl : (printPluralMark r ++ u).length + 1 = body.length + 1 := by
    simpa only [List.length_append, List.length_cons, List.length_nil, Nat.zero_add]
      using congrArg List.length ht
  refine ⟨source, ?_⟩
  rw [show printPluralMark r ++ u ++ '}' :: s = printPluralMark r ++ u ++ ['}'] ++ s by simp, ht,
    hl, List.cons_append, mergedItems_placeholder hp rfl]

/-! ## trees -/

/-- A printed branch whose printed body is read. -/
theorem branch_print {inner : Inner} {x : Selector} {body : List Char} {ns : List (Node Tree)}
    {u : List Char} (hb : mergedItems inner .branch (body ++ '}' :: u) = (ns, body.length)) :
    branch inner (x.render.toList ++ '{' :: (body ++ '}' :: u)) =
      some (⟨x, .sequence ns⟩, x.render.toList.length + body.length + 2 + blanks u) := by
  obtain ⟨h₁, h₂⟩ := Prod.ext_iff.1 hb
  dsimp only [mergedItems] at h₁ h₂
  have hx := readSelector?_render x (body ++ '}' :: u)
  have ho : blanks ('{' :: (body ++ '}' :: u)) = 0 := blanks_cons_of_not_blank (by decide)
  simp only [branch, hx, List.drop_left, ho, Nat.add_zero, h₂, merged, h₁]

/-- A printed branch stands in front of the branches after it. -/
theorem spacedBranches_print {inner : Inner} {x : Selector} {body : List Char}
    {ns : List (Node Tree)} {u : List Char}
    (hb : mergedItems inner .branch (body ++ '}' :: u) = (ns, body.length)) :
    spacedBranches inner (printBranch x body ++ u) =
      (⟨x, .sequence ns⟩ :: (spacedBranches inner u).1,
        (printBranch x body).length + (spacedBranches inner u).2) := by
  have ht : printBranch x body ++ u = ' ' :: (x.render.toList ++ '{' :: (body ++ '}' :: u)) := by
    simp [printBranch]
  have hl : (printBranch x body).length = x.render.toList.length + body.length + 3 := by
    simp only [printBranch, List.length_cons, List.length_append, List.length_nil]
    omega
  have hk : blanks (' ' :: (x.render.toList ++ '{' :: (body ++ '}' :: u))) = 1 := by
    rw [blanks_space, blanks_selector]
  have hd : (x.render.toList ++ '{' :: (body ++ '}' :: u)).drop
      (x.render.toList.length + body.length + 2 + blanks u) = u.drop (blanks u) := by
    rw [show x.render.toList ++ '{' :: (body ++ '}' :: u) =
        x.render.toList ++ '{' :: body ++ ['}'] ++ u by simp,
      show x.render.toList.length + body.length + 2 + blanks u =
        (x.render.toList ++ '{' :: body ++ ['}']).length + blanks u by
          simp only [List.length_append, List.length_cons, List.length_nil]; omega,
      List.drop_length_add_append]
  rw [spacedBranches, ht, hk, List.drop_succ_cons, List.drop_zero,
    branches_of_branch (branch_print hb), hd, hl, spacedBranches]
  simp only [Prod.mk.injEq, true_and]
  omega

/-- A closing brace ends the branches. -/
theorem spacedBranches_brace (inner : Inner) (s : List Char) :
    spacedBranches inner ('}' :: s) = ([], 0) := by
  have hk : blanks ('}' :: s) = 0 := blanks_cons_of_not_blank (by decide)
  have hs : readSelector? ('}' :: s) = none := rfl
  have hx : branch inner ('}' :: s) = none := by rw [branch, hs]
  rw [spacedBranches, hk, List.drop_zero, branches, hx]
  rfl

mutual

/-- A printed sequence in normal form is read back. -/
theorem mergedItems_printNodes : (ns : List (Node Tree)) → (p : Place) → (level depth : Nat) →
    level + depth = maxNesting → CanonicalNodes p depth ns → (rest : List Char) → p.Ends rest →
    ∃ ns', bareNodes ns' = bareNodes ns ∧
      mergedItems (placeholder level) p (Tree.printNodes p ns ++ rest) =
        (ns', (Tree.printNodes p ns).length)
  | [], p, level, depth, hl, h, rest, he => by
    exact ⟨[], rfl, mergedItems_of_ends he⟩
  | .literal a :: ns, p, level, depth, hl, h, rest, he => by
    rw [CanonicalNodes] at h
    obtain ⟨ns', hb, hm⟩ := mergedItems_printNodes ns p level depth hl h.2.2 rest he
    have hs : startsLiteral (bareNodes ns) = false := by rw [startsLiteral_bareNodes]; exact h.2.1
    refine ⟨consMerged (.literal a) ns', ?_, ?_⟩
    · rw [bareNodes_consMerged_literal, hb, consMerged_of_apart (by rw [hs, Bool.and_false]),
        bareNodes]
    · rw [Tree.printNodes, List.append_assoc, mergedItems_printLiteral h.1, hm, List.length_append,
        Nat.add_comm]
  | .placeholder r d source :: ns, p, level, depth, hl, h, rest, he => by
    rw [CanonicalNodes] at h
    obtain ⟨level, rfl⟩ : ∃ m, level = m + 1 := ⟨level - 1, by omega⟩
    obtain ⟨ns', hb, hm⟩ := mergedItems_printNodes ns p (level + 1) depth hl h.2.2.2 rest he
    obtain ⟨source', hp⟩ :=
      mergedItems_printPlaceholder h.2.1 h.2.2.1 level p (Tree.printNodes p ns ++ rest)
    refine ⟨.placeholder r d source' :: ns', ?_, ?_⟩
    · rw [bareNodes, bareNodes, hb]
    · rw [Tree.printNodes, List.append_assoc, hp, hm, List.length_append, Nat.add_comm]
  | .quantity :: ns, p, level, depth, hl, h, rest, he => by
    rw [CanonicalNodes] at h
    obtain ⟨rfl, h⟩ := h
    obtain ⟨ns', hb, hm⟩ := mergedItems_printNodes ns .branch level depth hl h rest he
    refine ⟨.quantity :: ns', ?_, ?_⟩
    · rw [bareNodes, bareNodes, hb]
    · rw [Tree.printNodes, List.cons_append, mergedItems_quantity, hm, List.length_cons]
  | .plural r bs source :: ns, p, level, depth, hl, h, rest, he => by
    rw [CanonicalNodes] at h
    obtain ⟨level, rfl⟩ : ∃ m, level = m + 1 := ⟨level - 1, by omega⟩
    obtain ⟨ns', hb, hm⟩ := mergedItems_printNodes ns p (level + 1) depth hl h.2.2.2.2 rest he
    obtain ⟨bs', hbs, hr⟩ := spacedBranches_printBranches bs level (depth + 1) (by omega)
      h.2.2.2.1 (Tree.printNodes p ns ++ rest)
    have hne : bs' ≠ [] := by
      rintro rfl
      cases bs with
      | nil => exact h.2.2.1 rfl
      | cons b bs => cases hbs
    obtain ⟨source', hp⟩ := mergedItems_printChoice h.2.1 hne hr p
    refine ⟨.plural r bs' source' :: ns', ?_, ?_⟩
    · rw [bareNodes, bareNodes, hb, hbs]
    · rw [Tree.printNodes, List.append_assoc, List.cons_append, hp, hm]
      simp only [Prod.mk.injEq, true_and, List.length_append, List.length_cons]
      omega

/-- Printed branches in normal form are read back. -/
theorem spacedBranches_printBranches : (bs : List (Branch Tree)) → (level depth : Nat) →
    level + depth = maxNesting → CanonicalBranches depth bs → (rest : List Char) →
    ∃ bs', bareBranches bs' = bareBranches bs ∧
      spacedBranches (placeholder level) (Tree.printBranches bs ++ '}' :: rest) =
        (bs', (Tree.printBranches bs).length)
  | [], level, depth, hl, h, rest => by
    exact ⟨[], rfl, spacedBranches_brace (placeholder level) rest⟩
  | ⟨x, .sequence ns⟩ :: bs, level, depth, hl, h, rest => by
    rw [CanonicalBranches, CanonicalAt] at h
    obtain ⟨bs', hb, hm⟩ := spacedBranches_printBranches bs level depth hl h.2 rest
    obtain ⟨ns', hb', hm'⟩ := mergedItems_printNodes ns .branch level depth hl h.1
      ('}' :: (Tree.printBranches bs ++ '}' :: rest)) ⟨_, rfl⟩
    refine ⟨⟨x, .sequence ns'⟩ :: bs', ?_, ?_⟩
    · rw [bareBranches, bareBranches, bare, bare, hb, hb']
    · rw [Tree.printBranches, Tree.print, List.append_assoc, spacedBranches_print hm', hm,
        List.length_append]

end

end Grammar

end Phrasebook.Template
