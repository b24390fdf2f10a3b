import Phrasebook.Proofs.Evaluation.Choices
import Phrasebook.Proofs.Template.Origins

/-!
# Phrasebook.Proofs.Template.Validation

Which choice an invalid template is reported for.

The check runs over the nodes as they are laid out.  What it finds can be told from the tree:
a template is valid when the choices at all positions have a branch for `other`, and the
report on an invalid one names the choice at the least position that has none.  Since inner
sequences come before outer ones, the choices nested in the reported one are all in order
(`error?_eq_some_iff`).  The report gives the choice as it is written in the template
(`error?_parse_iff`).
-/

namespace Phrasebook

namespace Tree

/-- The error of a single node. -/
def nodeError? : Node Tree → Option Template.Error
  | .plural _ bs source => if Branch.hasOther bs then none else some (.missingOther source)
  | _ => none

theorem nodeError?_eq_none_iff {x : Node Tree} :
    nodeError? x = none ↔ ∀ r bs source, x = .plural r bs source → Branch.hasOther bs = true := by
  cases x with
  | plural r bs source => cases h : Branch.hasOther bs <;> simp [nodeError?, h]
  | literal | placeholder | quantity => simp [nodeError?]

theorem nodeError?_eq_some_iff {x : Node Tree} {source : String} :
    nodeError? x = some (.missingOther source) ↔
      ∃ r bs, x = .plural r bs source ∧ Branch.hasOther bs = false := by
  cases x with
  | plural r bs source' =>
    cases h : Branch.hasOther bs with
    | true => simp [nodeError?, h]
    | false =>
      simp only [nodeError?, h, Bool.false_eq_true, if_false, Option.some.injEq,
        Template.Error.missingOther.injEq, Node.plural.injEq]
      constructor
      · rintro rfl
        exact ⟨r, bs, ⟨rfl, rfl, rfl⟩, h⟩
      · rintro ⟨_, _, ⟨-, -, hs⟩, -⟩
        exact hs
  | literal | placeholder | quantity => simp [nodeError?]

/-- Every choice has a branch for `other` when the choices at all positions have one. -/
theorem hasOthers_iff (t : Tree) :
    t.HasOthers ↔
      ∀ p r bs source, t.node? p = some (.plural r bs source) → Branch.hasOther bs = true := by
  simp only [HasOthers, OthersIn, mem_allNodes_iff]
  constructor
  · exact fun h p r bs source hx => h r bs source ⟨p, hx⟩
  · rintro h r bs source ⟨p, hx⟩
    exact h p r bs source hx

/-- At a position is a choice without a branch for `other`, while all choices nested in it have
one. -/
def LacksOther (t : Tree) (p : Position) (source : String) : Prop :=
  ∃ r bs, t.node? p = some (.plural r bs source) ∧ Branch.hasOther bs = false ∧
    ∀ b ∈ bs, b.body.HasOthers

end Tree

namespace Template

theorem nodeError?_map (f : Nat → Tree) (x : Node Nat) :
    Tree.nodeError? (x.map f) = nodeError? x := by
  cases x with
  | plural r bs source => rw [Node.map, Tree.nodeError?, nodeError?, Branch.hasOther_map]
  | literal | placeholder | quantity => rfl

/-- The error of a layout is the first in the order of the nodes of the tree. -/
theorem error?_ofTree (t : Tree) : (ofTree t).error? = t.allNodes.findSome? Tree.nodeError? := by
  rw [error?, ← map_nodes_ofTree, List.findSome?_map]
  exact congrArg (List.findSome? · _) (funext fun x => (nodeError?_map _ x).symm)

/-- The report names the first choice that lacks a branch for `other` and has no such choice
nested in it. -/
theorem error?_eq_some_iff (t : Tree) (source : String) :
    (ofTree t).error? = some (.missingOther source) ↔
      ∃ p, t.LacksOther p source ∧
        ∀ q source', t.LacksOther q source' → q = p ∨ p.Before q := by
  have first : ∀ source, (ofTree t).error? = some (.missingOther source) →
      ∃ p, t.LacksOther p source ∧
        ∀ q source', t.LacksOther q source' → q = p ∨ p.Before q := by
    intro source h
    rw [error?_ofTree, Tree.findSome?_allNodes_eq_some_iff] at h
    obtain ⟨p, x, hx, he, hmin⟩ := h
    obtain ⟨r, bs, rfl, ho⟩ := Tree.nodeError?_eq_some_iff.1 he
    refine ⟨p, ⟨r, bs, hx, ho, fun b hb => ?_⟩, ?_⟩
    · -- what is nested in the choice comes before it
      rw [Tree.hasOthers_iff]
      intro q r' bs' source' hq
      obtain ⟨j, hj⟩ := List.mem_iff_getElem?.1 hb
      have hn : t.node? (p.inside j q) = some (.plural r' bs' source') := by
        rw [Tree.node?_inside hx, Node.bodies, List.getElem?_map, hj]
        exact hq
      exact Tree.nodeError?_eq_none_iff.1 (hmin _ _ hn (p.inside_before j q)) r' bs' source' rfl
    · rintro q source' ⟨r', bs', hq, ho', -⟩
      rcases q.before_trichotomy p with h | h | h
      · rw [Tree.nodeError?_eq_none_iff.1 (hmin q _ hq h) r' bs' source' rfl] at ho'
        cases ho'
      · exact .inl h
      · exact .inr h
  refine ⟨first source, ?_⟩
  rintro ⟨p, hp, hmin⟩
  cases h : (ofTree t).error? with
  | none =>
    obtain ⟨r, bs, hx, ho, -⟩ := hp
    rw [(Tree.hasOthers_iff t).1 ((error?_eq_none_iff t).1 h) p r bs source hx] at ho
    cases ho
  | some err =>
    -- the one reported is no later than this one, and this one no later than it
    obtain ⟨source'⟩ := err
    obtain ⟨q, hq, hmin'⟩ := first source' h
    obtain rfl : q = p := by
      rcases hmin q source' hq with rfl | hpq
      · rfl
      rcases hmin' p source hp with rfl | hqp
      · rfl
      · exact absurd hqp hpq.asymm
    obtain ⟨r, bs, hx, -⟩ := hp
    obtain ⟨r', bs', hx', -⟩ := hq
    rw [hx] at hx'
    cases hx'
    rfl

/-- A template is valid when every choice in it, at any depth, has a branch for `other`.  The
report on any other template names, as it is written there, the choice without one that
comes first, inner sequences before outer ones and left to right, among those in which
all nested choices have one. -/
theorem error?_parse_iff (text : String) :
    ((parse text).error? = none ↔
        ∀ p r bs source, (parse text).tree.node? p = some (.plural r bs source) →
          Branch.hasOther bs = true) ∧
      (∀ source, (parse text).error? = some (.missingOther source) ↔
        ∃ p, (parse text).tree.LacksOther p source ∧
          ∀ q source', (parse text).tree.LacksOther q source' → q = p ∨ p.Before q) ∧
      ∀ p r bs source, (parse text).tree.node? p = some (.plural r bs source) →
        ∃ level, maxNesting = level + p.depth ∧
          Grammar.Origin text.toList level (.plural r bs source) source := by
  refine ⟨?_, ?_, ?_⟩
  · rw [tree_parse, ← Tree.hasOthers_iff]
    exact error?_eq_none_iff _
  · rw [tree_parse]
    exact error?_eq_some_iff _
  · intro p r bs source hx
    rw [tree_parse, Parser.tree_eq] at hx
    exact Grammar.exists_origin hx rfl

/-- A choice that lacks `other`, and to the right of it a choice with another one nested in it
that lacks it too. -/
def nestedBehind : String :=
  "\x7ba, plural, one\x7bx\x7d\x7d \x7bb, plural, other\x7b\x7bc, plural, one\x7by\x7d\x7d\x7d\x7d"

theorem error?_parse_iff_nestedBehind :
    ∃ p r bs level,
      (parse nestedBehind).tree.node? p = some (.plural r bs "\x7bc, plural, one\x7by\x7d\x7d") ∧
        Branch.hasOther bs = false ∧ maxNesting = level + p.depth ∧
        Grammar.Origin nestedBehind.toList level (.plural r bs "\x7bc, plural, one\x7by\x7d\x7d")
          "\x7bc, plural, one\x7by\x7d\x7d" := by
  have he : (parse nestedBehind).error? = some (.missingOther "\x7bc, plural, one\x7by\x7d\x7d") := by
    decide +kernel
  obtain ⟨-, hf, ho⟩ := error?_parse_iff nestedBehind
  obtain ⟨p, ⟨r, bs, hx, hb, -⟩, -⟩ := (hf _).1 he
  obtain ⟨level, hl, ho⟩ := ho p r bs _ hx
  exact ⟨p, r, bs, level, hx, hb, hl, ho⟩

end Template

end Phrasebook
