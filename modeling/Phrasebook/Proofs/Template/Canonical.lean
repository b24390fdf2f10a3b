import Phrasebook.Template.Grammar

/-!
# Phrasebook.Proofs.Template.Canonical

Template trees in normal form, and trees without their authored texts.

A tree is in normal form (`Tree.Canonical`) when

1. no literal is empty and no two literals stand side by side;
2. a name begins like a name and goes on like one;
3. a directive is not empty, has no blanks around it and no braces in it;
4. a plural choice has a branch;
5. the mark for the quantity stands in branches only;
6. a placeholder or choice has fewer than `maxNesting` choices around it.

The predicate is defined along the tree, with the place of the sequence and the
number of choices around it.  A row of nodes that are each in normal form becomes
a sequence in normal form by merging (`canonical_merged`).
-/

namespace Phrasebook

namespace Template

/-! ## names and directives -/

/-- A name of an argument. -/
def isName : List Char → Bool
  | [] => false
  | c :: s => isNameStart c && s.all isNamePart

/-- A reference that can be written in a placeholder. -/
def isReference : Reference → Bool
  | .name s => isName s.toList
  | .index _ => true

/-- A directive that can be written in a placeholder. -/
def isDirective (d : String) : Bool :=
  !d.toList.isEmpty && Text.trimChars d.toList == d.toList && d.toList.all isUnbraced

/-- Whether a row of nodes begins with a literal. -/
def startsLiteral : List (Node Tree) → Bool
  | x :: _ => x.isLiteral
  | [] => false

end Template

open Template

namespace Tree

/-! ## the normal form -/

mutual

/-- A sequence in normal form, with `depth` choices around it. -/
def CanonicalAt (p : Place) (depth : Nat) : Tree → Prop
  | .sequence ns => CanonicalNodes p depth ns

/-- The nodes of a sequence in normal form. -/
def CanonicalNodes (p : Place) (depth : Nat) : List (Node Tree) → Prop
  | [] => True
  | .literal s :: rest => s ≠ "" ∧ startsLiteral rest = false ∧ CanonicalNodes p depth rest
  | .placeholder r d _ :: rest =>
    depth < maxNesting ∧ isReference r = true ∧ (∀ t ∈ d, isDirective t = true) ∧
      CanonicalNodes p depth rest
  | .plural r bs _ :: rest =>
    depth < maxNesting ∧ isReference r = true ∧ bs ≠ [] ∧ CanonicalBranches (depth + 1) bs ∧
      CanonicalNodes p depth rest
  | .quantity :: rest => p = .branch ∧ CanonicalNodes p depth rest

/-- Branches whose bodies are in normal form, with `depth` choices around them. -/
def CanonicalBranches (depth : Nat) : List (Branch Tree) → Prop
  | [] => True
  | ⟨_, body⟩ :: rest => body.CanonicalAt .branch depth ∧ CanonicalBranches depth rest

end

mutual

/-- Whether a sequence is in normal form. -/
def decCanonicalAt (p : Place) (depth : Nat) : (t : Tree) → Decidable (t.CanonicalAt p depth)
  | .sequence ns => decCanonicalNodes p depth ns

/-- Whether a row of nodes is in normal form. -/
def decCanonicalNodes (p : Place) (depth : Nat) :
    (ns : List (Node Tree)) → Decidable (CanonicalNodes p depth ns)
  | [] => .isTrue trivial
  | .literal s :: rest =>
    have := decCanonicalNodes p depth rest
    inferInstanceAs (Decidable (s ≠ "" ∧ startsLiteral rest = false ∧ CanonicalNodes p depth rest))
  | .placeholder r d _ :: rest =>
    have := decCanonicalNodes p depth rest
    inferInstanceAs (Decidable (depth < maxNesting ∧ isReference r = true ∧
      (∀ t ∈ d, isDirective t = true) ∧ CanonicalNodes p depth rest))
  | .plural r bs _ :: rest =>
    have := decCanonicalNodes p depth rest
    have := decCanonicalBranches (depth + 1) bs
    inferInstanceAs (Decidable (depth < maxNesting ∧ isReference r = true ∧ bs ≠ [] ∧
      CanonicalBranches (depth + 1) bs ∧ CanonicalNodes p depth rest))
  | .quantity :: rest =>
    have := decCanonicalNodes p depth rest
    inferInstanceAs (Decidable (p = .branch ∧ CanonicalNodes p depth rest))

/-- Whether the bodies of branches are in normal form. -/
def decCanonicalBranches (depth : Nat) :
    (bs : List (Branch Tree)) → Decidable (CanonicalBranches depth bs)
  | [] => .isTrue trivial
  | ⟨_, body⟩ :: rest =>
    have := decCanonicalAt .branch depth body
    have := decCanonicalBranches depth rest
    inferInstanceAs (Decidable (body.CanonicalAt .branch depth ∧ CanonicalBranches depth rest))

end

/-- A template in normal form. -/
def Canonical (t : Tree) : Prop := t.CanonicalAt .top 0

instance : DecidablePred Canonical := fun t => decCanonicalAt .top 0 t

/-! ## merging -/

/-- Nodes of which not both are literals stay side by side. -/
theorem consMerged_of_apart {x : Node Tree} {ns : List (Node Tree)}
    (h : (x.isLiteral && startsLiteral ns) = false) : consMerged x ns = x :: ns := by
  unfold consMerged
  split
  · simp [startsLiteral, Node.isLiteral] at h
  · rfl

/-- Literals in front of a row are merged with each other first or last. -/
theorem consMerged_consMerged_literal (a b : String) (ns : List (Node Tree)) :
    consMerged (.literal a) (consMerged (.literal b) ns) = consMerged (.literal (a ++ b)) ns := by
  cases hs : startsLiteral ns with
  | false => rw [consMerged_of_apart (x := .literal b) (by simp [hs]),
      consMerged_of_apart (x := .literal (a ++ b)) (by simp [hs]), consMerged]
  | true =>
    cases ns with
    | nil => simp [startsLiteral] at hs
    | cons y rest =>
      cases y with
      | literal c => simp only [consMerged, String.append_assoc]
      | placeholder | plural | quantity => simp [startsLiteral, Node.isLiteral] at hs

/-- A row is in normal form if each of its nodes is and no two literals meet. -/
theorem canonicalNodes_cons {p : Place} {depth : Nat} {x : Node Tree} {ns : List (Node Tree)} :
    CanonicalNodes p depth (x :: ns) ↔
      CanonicalNodes p depth [x] ∧ (x.isLiteral && startsLiteral ns) = false ∧
        CanonicalNodes p depth ns := by
  cases x <;> simp [CanonicalNodes, Node.isLiteral, startsLiteral, and_assoc]

/-- A node in front of a sequence in normal form, merged with it. -/
theorem canonical_consMerged {p : Place} {depth : Nat} {x : Node Tree} {ns : List (Node Tree)}
    (hx : CanonicalNodes p depth [x]) (h : CanonicalNodes p depth ns) :
    CanonicalNodes p depth (consMerged x ns) := by
  unfold consMerged
  split
  · next a b rest =>
    rw [CanonicalNodes] at hx h ⊢
    exact ⟨by simp [hx.1], h.2⟩
  · next hl =>
    refine canonicalNodes_cons.2 ⟨hx, ?_, h⟩
    cases x with
    | literal a =>
      cases ns with
      | nil => rfl
      | cons y rest =>
        cases y with
        | literal b => exact absurd rfl (hl a b rest rfl)
        | placeholder | plural | quantity => rfl
    | placeholder | plural | quantity => rfl

/-- Nodes in normal form are merged to a sequence in normal form. -/
theorem canonical_merged {p : Place} {depth : Nat} {ns : List (Node Tree)}
    (h : ∀ x ∈ ns, CanonicalNodes p depth [x]) : (merged ns).CanonicalAt p depth := by
  rw [merged, CanonicalAt]
  induction ns with
  | nil => rw [List.foldr_nil, CanonicalNodes]; trivial
  | cons x rest ih =>
    rw [List.foldr_cons]
    exact canonical_consMerged (h x List.mem_cons_self)
      (ih fun y hy => h y (List.mem_cons_of_mem x hy))

/-! ## trees without their authored texts -/

mutual

/-- A sequence without the texts as written. -/
def bare : Tree → Tree
  | .sequence ns => .sequence (bareNodes ns)

/-- A row of nodes without the texts as written. -/
def bareNodes : List (Node Tree) → List (Node Tree)
  | [] => []
  | .literal s :: rest => .literal s :: bareNodes rest
  | .placeholder r d _ :: rest => .placeholder r d "" :: bareNodes rest
  | .plural r bs _ :: rest => .plural r (bareBranches bs) "" :: bareNodes rest
  | .quantity :: rest => .quantity :: bareNodes rest

/-- Branches without the texts as written. -/
def bareBranches : List (Branch Tree) → List (Branch Tree)
  | [] => []
  | ⟨s, body⟩ :: rest => ⟨s, body.bare⟩ :: bareBranches rest

end

theorem startsLiteral_bareNodes (ns : List (Node Tree)) :
    startsLiteral (bareNodes ns) = startsLiteral ns := by
  cases ns with
  | nil => rfl
  | cons x rest => cases x <;> rfl

theorem bareNodes_consMerged_literal (a : String) (ns : List (Node Tree)) :
    bareNodes (consMerged (.literal a) ns) = consMerged (.literal a) (bareNodes ns) := by
  cases ns with
  | nil => rfl
  | cons x rest => cases x <;> rfl

mutual

theorem canonicalAt_bare : (t : Tree) → (p : Place) → (depth : Nat) →
    (t.bare.CanonicalAt p depth ↔ t.CanonicalAt p depth)
  | .sequence ns, p, depth => by
    rw [bare, CanonicalAt, CanonicalAt, canonicalNodes_bare ns p depth]

theorem canonicalNodes_bare : (ns : List (Node Tree)) → (p : Place) → (depth : Nat) →
    (CanonicalNodes p depth (bareNodes ns) ↔ CanonicalNodes p depth ns)
  | [], p, depth => Iff.rfl
  | .literal s :: rest, p, depth => by
    rw [bareNodes, CanonicalNodes, CanonicalNodes, startsLiteral_bareNodes,
      canonicalNodes_bare rest p depth]
  | .placeholder r d source :: rest, p, depth => by
    rw [bareNodes, CanonicalNodes, CanonicalNodes, canonicalNodes_bare rest p depth]
  | .plural r bs source :: rest, p, depth => by
    have hb : bareBranches bs ≠ [] ↔ bs ≠ [] := by cases bs <;> simp [bareBranches]
    rw [bareNodes, CanonicalNodes, CanonicalNodes, hb, canonicalBranches_bare bs (depth + 1),
      canonicalNodes_bare rest p depth]
  | .quantity :: rest, p, depth => by
    rw [bareNodes, CanonicalNodes, CanonicalNodes, canonicalNodes_bare rest p depth]

theorem canonicalBranches_bare : (bs : List (Branch Tree)) → (depth : Nat) →
    (CanonicalBranches depth (bareBranches bs) ↔ CanonicalBranches depth bs)
  | [], depth => Iff.rfl
  | ⟨s, body⟩ :: rest, depth => by
    rw [bareBranches, CanonicalBranches, CanonicalBranches, canonicalAt_bare body .branch depth,
      canonicalBranches_bare rest depth]

end

/-- The texts as written do not matter for the normal form. -/
theorem canonical_bare (t : Tree) : t.bare.Canonical ↔ t.Canonical := canonicalAt_bare t .top 0

end Tree

end Phrasebook
