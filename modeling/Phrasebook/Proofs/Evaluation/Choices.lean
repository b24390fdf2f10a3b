import Phrasebook.Proofs.Evaluation.Pieces

/-!
# Phrasebook.Proofs.Evaluation.Choices

Choices that have a branch for `other`.

A template is valid exactly when every choice in it, at any depth, has a branch for
`other` (`error?_eq_none_iff`).  Such a choice selects a branch whatever its value is and
in every locale (`Branch.isSome_select?`), so no choice of a valid template drops out of
the pieces (`Tree.HasOthers.dropped_not_mem`).
-/

namespace Phrasebook

namespace Branch

variable {β γ : Type}

theorem hasOther_map (f : β → γ) (bs : List (Branch β)) :
    hasOther (bs.map (Branch.map f)) = hasOther bs := by
  rw [hasOther, List.any_map]
  rfl

/-- With a branch for `other` some branch is selected. -/
theorem isSome_select? {bs : List (Branch β)} (h : hasOther bs = true) (v : Value) (l : Locale) :
    (select? bs v l).isSome = true := by
  have ho : (find? bs (.category .other)).isSome = true := by
    rw [find?, List.find?_isSome]
    exact List.any_eq_true.1 h
  simp only [select?, Option.isSome_or, ho, Bool.or_true]

end Branch

namespace Tree

/-- All choices among some nodes have a branch for `other`. -/
def OthersIn (ns : List (Node Tree)) : Prop :=
  ∀ r bs source, .plural r bs source ∈ ns → Branch.hasOther bs = true

/-- Every choice of a tree, at any depth, has a branch for `other`. -/
def HasOthers (t : Tree) : Prop := OthersIn t.allNodes

theorem othersIn_append {ns ns' : List (Node Tree)} :
    OthersIn (ns ++ ns') ↔ OthersIn ns ∧ OthersIn ns' := by
  constructor
  · intro h
    exact ⟨fun r bs source hm => h r bs source (List.mem_append_left _ hm),
      fun r bs source hm => h r bs source (List.mem_append_right _ hm)⟩
  · rintro ⟨h, h'⟩ r bs source hm
    exact (List.mem_append.1 hm).elim (h r bs source) (h' r bs source)

theorem OthersIn.tail {x : Node Tree} {ns : List (Node Tree)} (h : OthersIn (x :: ns)) :
    OthersIn ns :=
  fun r bs source hm => h r bs source (List.mem_cons_of_mem x hm)

mutual

theorem HasOthers.dropped_not_mem (args : Arguments) (l : Locale) (q : Option Value)
    (source : String) : (t : Tree) → t.HasOthers → .dropped source ∉ t.pieces args l q
  | .sequence ns, h => by
    rw [HasOthers, allNodes, othersIn_append] at h
    rw [pieces]
    exact dropped_not_mem_nodes args l q source ns h.1 h.2

theorem dropped_not_mem_nodes (args : Arguments) (l : Locale) (q : Option Value)
    (source : String) : (ns : List (Node Tree)) → OthersIn (nestedNodes ns) → OthersIn ns →
      .dropped source ∉ piecesNodes args l q ns
  | [], _, _ => by simp [piecesNodes]
  | .literal s :: rest, hn, h => by
    rw [nestedNodes] at hn
    simpa [piecesNodes] using dropped_not_mem_nodes args l q source rest hn h.tail
  | .placeholder r d src :: rest, hn, h => by
    rw [nestedNodes] at hn
    have hr := dropped_not_mem_nodes args l q source rest hn h.tail
    cases ha : args.get? r <;> simpa [piecesNodes, ha] using hr
  | .quantity :: rest, hn, h => by
    rw [nestedNodes] at hn
    have hr := dropped_not_mem_nodes args l q source rest hn h.tail
    cases q <;> simpa [piecesNodes] using hr
  | .plural r bs src :: rest, hn, h => by
    rw [nestedNodes, othersIn_append] at hn
    have hr := dropped_not_mem_nodes args l q source rest hn.2 h.tail
    rw [piecesNodes, List.mem_append, not_or]
    refine ⟨?_, hr⟩
    cases args.get? r with
    | none => simp
    | some v =>
      have hb := dropped_not_mem_branches args l v source bs hn.1
      have ho : Branch.hasOther (piecesBranches args l v bs) = true := by
        rw [piecesBranches_eq, Branch.hasOther_map]
        exact h r bs src List.mem_cons_self
      obtain ⟨b, hs⟩ := Option.isSome_iff_exists.1 (Branch.isSome_select? ho v l)
      simp only [hs]
      exact hb b (Branch.mem_of_select? hs)

theorem dropped_not_mem_branches (args : Arguments) (l : Locale) (v : Value) (source : String) :
    (bs : List (Branch Tree)) → OthersIn (nestedBranches bs) →
      ∀ b ∈ piecesBranches args l v bs, .dropped source ∉ b.body
  | [], _ => by simp [piecesBranches]
  | ⟨s, body⟩ :: rest, h => by
    rw [nestedBranches, othersIn_append] at h
    rw [piecesBranches]
    exact List.forall_mem_cons.2
      ⟨HasOthers.dropped_not_mem args l (some v) source body h.1,
        dropped_not_mem_branches args l v source rest h.2⟩

end

end Tree

namespace Template

theorem nodeError?_eq_none_iff (f : Nat → Tree) (x : Node Nat) :
    nodeError? x = none ↔
      ∀ r bs source, x.map f = .plural r bs source → Branch.hasOther bs = true := by
  cases x with
  | plural r bs source =>
    have hm := Branch.hasOther_map f bs
    unfold nodeError?
    cases ho : Branch.hasOther bs <;> simp [Node.map, hm, ho]
  | literal | placeholder | quantity => simp [nodeError?, Node.map]

/-- A template is valid exactly when every choice has a branch for `other`. -/
theorem error?_eq_none_iff (t : Tree) : (ofTree t).error? = none ↔ t.HasOthers := by
  rw [error?, List.findSome?_eq_none_iff, Tree.HasOthers, Tree.OthersIn, ← map_nodes_ofTree]
  constructor
  · intro h r bs source hm
    obtain ⟨x, hx, he⟩ := List.mem_map.1 hm
    exact (nodeError?_eq_none_iff _ x).1 (h x hx) r bs source he
  · intro h x hx
    refine (nodeError?_eq_none_iff (ofTree t).treeAt x).2 fun r bs source he => ?_
    exact h r bs source (List.mem_map.2 ⟨x, hx, he⟩)

end Template

end Phrasebook
