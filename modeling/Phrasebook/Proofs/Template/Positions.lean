import Phrasebook.Proofs.Template.WellFormed

/-!
# Phrasebook.Proofs.Template.Positions

Where the nodes of a tree stand.

A position is the way to a node: the number of the node in the sequence, or the numbers of a
choice and of one of its branches and the way on from the body of that branch.  Positions
have an order (`Position.Before`): what stands in a body comes before the nodes of the
sequence around it, and otherwise what is further left comes first.

This is the order in which a tree is laid out: `Tree.allNodes` lists the node at every
position once (`map_snd_placed`, `mem_placed_iff`), in ascending order of the positions
(`pairwise_placed`).  The first node of a kind in the list is therefore the one at the least
position (`findSome?_allNodes_eq_some_iff`).
-/

namespace Phrasebook

/-- The way to a node of a tree. -/
inductive Position where
  /-- A node of the sequence, by its number. -/
  | node (i : Nat)
  /-- The way from the body of a branch, by the numbers of the choice and the branch. -/
  | body (i j : Nat) (p : Position)
deriving DecidableEq

namespace Position

/-- How many choices stand around a position. -/
def depth : Position → Nat
  | .node _ => 0
  | .body _ _ p => p.depth + 1

/-- A position comes before another: inner sequences come before outer ones, and what is
further left before what is further right. -/
def Before : Position → Position → Prop
  | .node i, .node i' => i < i'
  | .node _, .body _ _ _ => False
  | .body _ _ _, .node _ => True
  | .body i j p, .body i' j' p' => i < i' ∨ i = i' ∧ (j < j' ∨ j = j' ∧ p.Before p')

theorem not_before_self (p : Position) : ¬ p.Before p := by
  induction p with
  | node i => simp [Before]
  | body i j p ih => simp [Before, ih]

theorem Before.asymm {p q : Position} (h : p.Before q) : ¬ q.Before p := by
  induction p generalizing q with
  | node i =>
    cases q with
    | node i' => simp only [Before] at h ⊢; omega
    | body i' j' q => exact h.elim
  | body i j p ih =>
    cases q with
    | node i' => exact id
    | body i' j' q =>
      rintro (hi | ⟨rfl, hj | ⟨rfl, hq⟩⟩)
      · obtain hi' | ⟨rfl, -⟩ := h <;> omega
      · obtain hi' | ⟨-, hj' | ⟨rfl, -⟩⟩ := h <;> omega
      · obtain hi' | ⟨-, hj' | ⟨-, hp⟩⟩ := h
        · omega
        · omega
        · exact ih hp hq

theorem before_trichotomy (p q : Position) : p.Before q ∨ p = q ∨ q.Before p := by
  induction p generalizing q with
  | node i =>
    cases q with
    | node i' => simpa [Before] using Nat.lt_trichotomy i i'
    | body i' j' q => exact .inr (.inr trivial)
  | body i j p ih =>
    cases q with
    | node i' => exact .inl trivial
    | body i' j' q =>
      rcases Nat.lt_trichotomy i i' with hi | rfl | hi
      · exact .inl (.inl hi)
      · rcases Nat.lt_trichotomy j j' with hj | rfl | hj
        · exact .inl (.inr ⟨rfl, .inl hj⟩)
        · rcases ih q with h | rfl | h
          · exact .inl (.inr ⟨rfl, .inr ⟨rfl, h⟩⟩)
          · exact .inr (.inl rfl)
          · exact .inr (.inr (.inr ⟨rfl, .inr ⟨rfl, h⟩⟩))
        · exact .inr (.inr (.inr ⟨rfl, .inl hj⟩))
      · exact .inr (.inr (.inl hi))

/-- The position of a node in a branch of the choice at a position. -/
def inside (p : Position) (j : Nat) (q : Position) : Position :=
  match p with
  | .node i => .body i j q
  | .body i k p => .body i k (p.inside j q)

theorem inside_before (p : Position) (j : Nat) (q : Position) : (p.inside j q).Before p := by
  induction p with
  | node i => trivial
  | body i k p ih => exact .inr ⟨rfl, .inr ⟨rfl, ih⟩⟩

end Position

namespace Tree

/-- The node at a position. -/
def node? (t : Tree) : Position → Option (Node Tree)
  | .node i => t.nodes[i]?
  | .body i j p => (t.nodes[i]?.bind fun x => x.bodies[j]?).bind fun body => body.node? p

theorem node?_inside {t : Tree} {p : Position} {x : Node Tree} (h : t.node? p = some x) (j : Nat)
    (q : Position) : t.node? (p.inside j q) = x.bodies[j]?.bind fun body => body.node? q := by
  induction p generalizing t with
  | node i =>
    rw [node?] at h
    rw [Position.inside, node?, h, Option.bind_some]
  | body i k p ih =>
    obtain ⟨body, hb, h⟩ := Option.bind_eq_some_iff.1 h
    rw [Position.inside, node?, hb, Option.bind_some, ih h]

/-! ## the nodes in order -/

mutual

/-- All nodes of a tree with their positions, inner sequences before outer ones. -/
def placed : Tree → List (Position × Node Tree)
  | .sequence ns => placedNodes 0 ns ++ ns.zipIdx.map fun x => (.node x.2, x.1)

/-- The nodes nested in a row, of which the first has the number `i`. -/
def placedNodes (i : Nat) : List (Node Tree) → List (Position × Node Tree)
  | [] => []
  | .plural _ bs _ :: rest => placedBranches i 0 bs ++ placedNodes (i + 1) rest
  | .literal _ :: rest | .placeholder _ _ _ :: rest | .quantity :: rest => placedNodes (i + 1) rest

/-- The nodes in the branches of the choice with the number `i`, of which the first has the
number `j`. -/
def placedBranches (i j : Nat) : List (Branch Tree) → List (Position × Node Tree)
  | [] => []
  | ⟨_, body⟩ :: rest =>
    body.placed.map (fun x => (.body i j x.1, x.2)) ++ placedBranches i (j + 1) rest

end

mutual

theorem map_snd_placed : (t : Tree) → t.placed.map Prod.snd = t.allNodes
  | .sequence ns => by
    rw [placed, allNodes, List.map_append, map_snd_placedNodes 0 ns]
    simp [Function.comp_def]

theorem map_snd_placedNodes (i : Nat) :
    (ns : List (Node Tree)) → (placedNodes i ns).map Prod.snd = nestedNodes ns
  | [] => rfl
  | .literal _ :: rest | .placeholder _ _ _ :: rest | .quantity :: rest => by
    rw [placedNodes, nestedNodes, map_snd_placedNodes (i + 1) rest]
  | .plural _ bs _ :: rest => by
    rw [placedNodes, nestedNodes, List.map_append, map_snd_placedBranches i 0 bs,
      map_snd_placedNodes (i + 1) rest]

theorem map_snd_placedBranches (i j : Nat) :
    (bs : List (Branch Tree)) → (placedBranches i j bs).map Prod.snd = nestedBranches bs
  | [] => rfl
  | ⟨_, body⟩ :: rest => by
    rw [placedBranches, nestedBranches, List.map_append, map_snd_placedBranches i (j + 1) rest,
      ← map_snd_placed body, List.map_map]
    rfl

end

/-- What is nested in branches stands in the body of one of them. -/
theorem placedBranches_cases {i j : Nat} {bs : List (Branch Tree)} {y : Position × Node Tree}
    (h : y ∈ placedBranches i j bs) : ∃ k q, y.1 = .body i k q ∧ j ≤ k := by
  induction bs generalizing j with
  | nil => cases h
  | cons b rest ih =>
    obtain ⟨_, body⟩ := b
    rw [placedBranches, List.mem_append, List.mem_map] at h
    obtain ⟨z, -, rfl⟩ | h := h
    · exact ⟨j, z.1, rfl, Nat.le_refl j⟩
    · obtain ⟨k, q, hy, hk⟩ := ih h
      exact ⟨k, q, hy, Nat.le_of_succ_le hk⟩

/-- What is nested in a row stands in a body of one of its choices. -/
theorem placedNodes_cases {i : Nat} {ns : List (Node Tree)} {y : Position × Node Tree}
    (h : y ∈ placedNodes i ns) : ∃ k j q, y.1 = .body k j q ∧ i ≤ k := by
  induction ns generalizing i with
  | nil => cases h
  | cons x rest ih =>
    have later : y ∈ placedNodes (i + 1) rest → ∃ k j q, y.1 = .body k j q ∧ i ≤ k := by
      intro h
      obtain ⟨k, j, q, hy, hk⟩ := ih h
      exact ⟨k, j, q, hy, Nat.le_of_succ_le hk⟩
    cases x with
    | literal | placeholder | quantity => exact later h
    | plural r bs source =>
      rw [placedNodes, List.mem_append] at h
      obtain h | h := h
      · obtain ⟨k, q, hy, -⟩ := placedBranches_cases h
        exact ⟨i, k, q, hy, Nat.le_refl i⟩
      · exact later h

mutual

/-- Every node is listed at its position, and only there. -/
theorem mem_placed_iff : (t : Tree) → (p : Position) → (x : Node Tree) →
    ((p, x) ∈ t.placed ↔ t.node? p = some x)
  | .sequence ns, .node k, x => by
    have hn : (Position.node k, x) ∉ placedNodes 0 ns := fun h => by
      obtain ⟨_, _, _, hy, -⟩ := placedNodes_cases h
      cases hy
    rw [placed, List.mem_append, or_iff_right hn, List.mem_map]
    simp only [Prod.exists, List.mem_zipIdx_iff_getElem?, Prod.mk.injEq, Position.node.injEq, node?,
      nodes]
    constructor
    · rintro ⟨y, i, hy, rfl, rfl⟩
      exact hy
    · exact fun hx => ⟨x, k, hx, rfl, rfl⟩
  | .sequence ns, .body k j q, x => by
    have hm := mem_placedNodes_iff ns 0 k j q x
    rw [Nat.zero_add] at hm
    rw [placed, List.mem_append, hm, or_iff_left]
    simp

theorem mem_placedNodes_iff : (ns : List (Node Tree)) → (i k j : Nat) → (q : Position) →
    (x : Node Tree) →
    ((.body (i + k) j q, x) ∈ placedNodes i ns ↔ (sequence ns).node? (.body k j q) = some x)
  | [], i, k, j, q, x => by simp [placedNodes, node?, nodes]
  | .literal _ :: rest, i, k, j, q, x | .placeholder _ _ _ :: rest, i, k, j, q, x
  | .quantity :: rest, i, k, j, q, x => by
    rw [placedNodes]
    cases k with
    | zero =>
      refine iff_of_false (fun h => ?_) (by simp [node?, nodes, Node.bodies])
      obtain ⟨_, _, _, hy, hk⟩ := placedNodes_cases h
      cases hy
      omega
    | succ k =>
      rw [← Nat.add_assoc, Nat.add_right_comm]
      exact mem_placedNodes_iff rest (i + 1) k j q x
  | .plural _ bs _ :: rest, i, k, j, q, x => by
    rw [placedNodes, List.mem_append]
    cases k with
    | zero =>
      have hb := mem_placedBranches_iff bs i 0 j q x
      rw [Nat.zero_add] at hb
      rw [Nat.add_zero, hb, or_iff_left]
      · simp [node?, nodes, Node.bodies]
      · intro h
        obtain ⟨_, _, _, hy, hk⟩ := placedNodes_cases h
        cases hy
        omega
    | succ k =>
      rw [or_iff_right, ← Nat.add_assoc, Nat.add_right_comm]
      · exact mem_placedNodes_iff rest (i + 1) k j q x
      · intro h
        obtain ⟨_, _, hy, -⟩ := placedBranches_cases h
        cases hy

theorem mem_placedBranches_iff : (bs : List (Branch Tree)) → (i j k : Nat) → (q : Position) →
    (x : Node Tree) → ((.body i (j + k) q, x) ∈ placedBranches i j bs ↔
      ((bs.map Branch.body)[k]?.bind fun body => body.node? q) = some x)
  | [], i, j, k, q, x => by simp [placedBranches]
  | ⟨_, body⟩ :: rest, i, j, k, q, x => by
    rw [placedBranches, List.mem_append]
    cases k with
    | zero =>
      rw [or_iff_left]
      · simp [mem_placed_iff body]
      · intro h
        obtain ⟨_, _, hy, hk⟩ := placedBranches_cases h
        cases hy
        omega
    | succ k =>
      rw [or_iff_right, ← Nat.add_assoc, Nat.add_right_comm]
      · exact mem_placedBranches_iff rest i (j + 1) k q x
      · simp

end

theorem mem_allNodes_iff (t : Tree) (x : Node Tree) :
    x ∈ t.allNodes ↔ ∃ p, t.node? p = some x := by
  rw [← map_snd_placed, List.mem_map]
  simp only [Prod.exists, mem_placed_iff, exists_eq_right]

/-! ## the order of the list -/

/-- The nodes stand in ascending order of their positions. -/
abbrev Ascending (l : List (Position × Node Tree)) : Prop := l.Pairwise fun x y => x.1.Before y.1

mutual

theorem pairwise_placed : (t : Tree) → Ascending t.placed
  | .sequence ns => by
    rw [placed, Ascending, List.pairwise_append, List.pairwise_map]
    refine ⟨pairwise_placedNodes ns 0, ?_, fun x hx y hy => ?_⟩
    · have hr := List.pairwise_lt_range' (s := 0) (n := ns.length)
      rwa [← List.zipIdx_map_snd, List.pairwise_map] at hr
    · obtain ⟨_, _, _, hx, -⟩ := placedNodes_cases hx
      obtain ⟨z, -, rfl⟩ := List.mem_map.1 hy
      rw [hx]
      trivial

theorem pairwise_placedNodes : (ns : List (Node Tree)) → (i : Nat) → Ascending (placedNodes i ns)
  | [], i => .nil
  | .literal _ :: rest, i | .placeholder _ _ _ :: rest, i | .quantity :: rest, i =>
    pairwise_placedNodes rest (i + 1)
  | .plural _ bs _ :: rest, i => by
    rw [placedNodes, Ascending, List.pairwise_append]
    refine ⟨pairwise_placedBranches bs i 0, pairwise_placedNodes rest (i + 1), fun x hx y hy => ?_⟩
    obtain ⟨_, _, hx, -⟩ := placedBranches_cases hx
    obtain ⟨_, _, _, hy, hi⟩ := placedNodes_cases hy
    rw [hx, hy]
    exact .inl hi

theorem pairwise_placedBranches : (bs : List (Branch Tree)) → (i j : Nat) →
    Ascending (placedBranches i j bs)
  | [], i, j => .nil
  | ⟨_, body⟩ :: rest, i, j => by
    rw [placedBranches, Ascending, List.pairwise_append, List.pairwise_map]
    refine ⟨?_, pairwise_placedBranches rest i (j + 1), fun x hx y hy => ?_⟩
    · exact (pairwise_placed body).imp fun h => .inr ⟨rfl, .inr ⟨rfl, h⟩⟩
    · obtain ⟨z, -, rfl⟩ := List.mem_map.1 hx
      obtain ⟨_, _, hy, hj⟩ := placedBranches_cases hy
      rw [hy]
      exact .inr ⟨rfl, .inl hj⟩

end

/-- What is found first among all nodes is found at the least position. -/
theorem findSome?_allNodes_eq_some_iff {β : Type} (t : Tree) (f : Node Tree → Option β) (b : β) :
    t.allNodes.findSome? f = some b ↔
      ∃ p x, t.node? p = some x ∧ f x = some b ∧
        ∀ q y, t.node? q = some y → q.Before p → f y = none := by
  rw [← map_snd_placed, List.findSome?_map, List.findSome?_eq_some_iff]
  have ho := pairwise_placed t
  constructor
  · rintro ⟨before, ⟨p, x⟩, after, hl, hx, hn⟩
    have hm := mem_placed_iff t
    rw [hl] at hm ho
    refine ⟨p, x, (hm p x).1 (by simp), hx, fun q y hy hq => ?_⟩
    obtain ⟨-, ha, hb⟩ := List.pairwise_append.1 ho
    -- a node at a smaller position can only stand in front
    rcases List.mem_append.1 ((hm q y).2 hy) with h | h
    · exact hn _ h
    rcases List.mem_cons.1 h with h | h
    · cases h
      exact absurd hq p.not_before_self
    · exact absurd hq ((List.pairwise_cons.1 ha).1 _ h).asymm
  · rintro ⟨p, x, hx, hb, hn⟩
    obtain ⟨before, after, hl⟩ := List.append_of_mem ((mem_placed_iff t p x).2 hx)
    refine ⟨before, (p, x), after, hl, hb, fun y hy => ?_⟩
    rw [hl] at ho
    refine hn y.1 y.2 ((mem_placed_iff t _ _).1 (by simp [hl, hy])) ?_
    exact (List.pairwise_append.1 ho).2.2 y hy _ List.mem_cons_self

end Tree

end Phrasebook
