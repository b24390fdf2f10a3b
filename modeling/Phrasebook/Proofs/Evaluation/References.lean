import Phrasebook.Proofs.Evaluation.Outcome
import Phrasebook.Proofs.Template.RoundTrip

/-!
# Phrasebook.Proofs.Evaluation.References

What a template reads of its arguments.

The references of a tree are those of all its nodes, in chosen branches and in others
(`Tree.references`); the arguments of a template are their texts
(`Template.mem_arguments`).

* The pieces of a tree depend on the values of its references only
  (`Tree.pieces_congr`), although a value may select a branch, be the quantity in it, or
  be set in.
* References of parsed templates have the same text only if they are the same
  (`render_inj_of_mem_references`): a name does not begin with a digit, so that it is
  never read as a position.
-/

namespace Phrasebook

/-! ## references of a tree -/

theorem Node.reference?_map {β γ : Type} (f : β → γ) (x : Node β) :
    (x.map f).reference? = x.reference? := by
  cases x <;> rfl

namespace Tree

/-- What the nodes of a tree refer to, at any depth. -/
def references (t : Tree) : List Reference := t.allNodes.filterMap Node.reference?

theorem nestedBranches_eq (bs : List (Branch Tree)) :
    nestedBranches bs = (bs.map Branch.body).flatMap allNodes := by
  induction bs with
  | nil => rfl
  | cons b rest ih =>
    rw [nestedBranches, ih]
    rfl

/-- A row refers to what its first node refers to, itself or in its bodies, and to what
the rest refers to. -/
theorem mem_references_cons (x : Node Tree) (rest : List (Node Tree)) (r : Reference) :
    r ∈ (sequence (x :: rest)).references ↔
      x.reference? = some r ∨ (∃ body ∈ x.bodies, r ∈ body.references) ∨
        r ∈ (sequence rest).references := by
  have hn : nestedNodes (x :: rest) = x.bodies.flatMap allNodes ++ nestedNodes rest := by
    cases x with
    | plural r' bs source => rw [nestedNodes, nestedBranches_eq, Node.bodies]
    | literal | placeholder | quantity => rfl
  simp only [references, allNodes, hn, List.mem_filterMap, List.mem_append, List.mem_cons,
    List.mem_flatMap]
  grind

section

variable {x : Node Tree} {rest : List (Node Tree)} {r : Reference}

theorem mem_references_head (h : x.reference? = some r) :
    r ∈ (sequence (x :: rest)).references :=
  (mem_references_cons x rest r).2 (.inl h)

theorem mem_references_body {body : Tree} (hb : body ∈ x.bodies) (h : r ∈ body.references) :
    r ∈ (sequence (x :: rest)).references :=
  (mem_references_cons x rest r).2 (.inr (.inl ⟨body, hb, h⟩))

theorem mem_references_tail (h : r ∈ (sequence rest).references) :
    r ∈ (sequence (x :: rest)).references :=
  (mem_references_cons x rest r).2 (.inr (.inr h))

end

/-! ## references in normal form -/

section

open Template (Place isReference)

mutual

/-- The references of a tree in normal form can be written. -/
theorem isReference_of_canonicalAt : (t : Tree) → (p : Place) → (depth : Nat) →
    t.CanonicalAt p depth → ∀ r ∈ t.references, isReference r = true
  | .sequence ns, p, depth, h => isReference_of_canonicalNodes ns p depth h

theorem isReference_of_canonicalNodes : (ns : List (Node Tree)) → (p : Place) → (depth : Nat) →
    CanonicalNodes p depth ns → ∀ r ∈ (sequence ns).references, isReference r = true
  | [], _, _, _ => by
    intro r hr
    cases hr
  | .literal s :: rest, p, depth, h => by
    intro r hr
    rw [CanonicalNodes] at h
    obtain hr | ⟨_, hb, -⟩ | hr := (mem_references_cons _ rest r).1 hr
    · cases hr
    · cases hb
    · exact isReference_of_canonicalNodes rest p depth h.2.2 r hr
  | .placeholder r' d source :: rest, p, depth, h => by
    intro r hr
    rw [CanonicalNodes] at h
    obtain hr | ⟨_, hb, -⟩ | hr := (mem_references_cons _ rest r).1 hr
    · cases hr
      exact h.2.1
    · cases hb
    · exact isReference_of_canonicalNodes rest p depth h.2.2.2 r hr
  | .quantity :: rest, p, depth, h => by
    intro r hr
    rw [CanonicalNodes] at h
    obtain hr | ⟨_, hb, -⟩ | hr := (mem_references_cons _ rest r).1 hr
    · cases hr
    · cases hb
    · exact isReference_of_canonicalNodes rest p depth h.2 r hr
  | .plural r' bs source :: rest, p, depth, h => by
    intro r hr
    rw [CanonicalNodes] at h
    obtain ⟨-, hr', -, hbs, hrest⟩ := h
    obtain hr | ⟨body, hb, hr⟩ | hr := (mem_references_cons _ rest r).1 hr
    · cases hr
      exact hr'
    · exact isReference_of_canonicalBranches bs (depth + 1) hbs body hb r hr
    · exact isReference_of_canonicalNodes rest p depth hrest r hr

theorem isReference_of_canonicalBranches : (bs : List (Branch Tree)) → (depth : Nat) →
    CanonicalBranches depth bs →
      ∀ body ∈ bs.map Branch.body, ∀ r ∈ body.references, isReference r = true
  | [], _, _ => by
    intro body hb
    cases hb
  | ⟨_, body⟩ :: rest, depth, h => by
    rw [CanonicalBranches] at h
    exact List.forall_mem_cons.2 ⟨isReference_of_canonicalAt body .branch depth h.1,
      isReference_of_canonicalBranches rest depth h.2⟩

end

end

/-! ## what the pieces depend on -/

section

variable {args args' : Arguments} (l : Locale)

mutual

/-- The pieces of a tree depend on the values of its references only. -/
theorem pieces_congr : (t : Tree) → (q : Option Value) →
    (∀ r ∈ t.references, args.get? r = args'.get? r) → t.pieces args l q = t.pieces args' l q
  | .sequence ns, q, h => by
    rw [pieces, pieces]
    exact piecesNodes_congr ns q h

theorem piecesNodes_congr : (ns : List (Node Tree)) → (q : Option Value) →
    (∀ r ∈ (sequence ns).references, args.get? r = args'.get? r) →
      piecesNodes args l q ns = piecesNodes args' l q ns
  | [], _, _ => rfl
  | .literal s :: rest, q, h => by
    rw [piecesNodes, piecesNodes,
      piecesNodes_congr rest q fun r hr => h r (mem_references_tail hr)]
  | .placeholder r d source :: rest, q, h => by
    rw [piecesNodes, piecesNodes, h r (mem_references_head rfl),
      piecesNodes_congr rest q fun r hr => h r (mem_references_tail hr)]
  | .quantity :: rest, q, h => by
    have hr := piecesNodes_congr rest q fun r hr => h r (mem_references_tail hr)
    simp only [piecesNodes, hr]
  | .plural r bs source :: rest, q, h => by
    have hb : ∀ v, piecesBranches args l v bs = piecesBranches args' l v bs := fun v =>
      piecesBranches_congr bs v fun body hb r hr => h r (mem_references_body hb hr)
    have hr := piecesNodes_congr rest q fun r hr => h r (mem_references_tail hr)
    simp only [piecesNodes, h r (mem_references_head rfl), hb, hr]

theorem piecesBranches_congr : (bs : List (Branch Tree)) → (v : Value) →
    (∀ body ∈ bs.map Branch.body, ∀ r ∈ body.references, args.get? r = args'.get? r) →
      piecesBranches args l v bs = piecesBranches args' l v bs
  | [], _, _ => rfl
  | ⟨s, body⟩ :: rest, v, h => by
    obtain ⟨hb, hr⟩ := List.forall_mem_cons.1 h
    rw [piecesBranches, piecesBranches, pieces_congr body (some v) hb,
      piecesBranches_congr rest v hr]

end

end

end Tree

namespace Template

/-! ## references of a template -/

/-- What the nodes of a template refer to, in the order of the layout. -/
def references (t : Template) : List Reference := t.nodes.toList.filterMap Node.reference?

/-- The arguments of a template are the texts of its references. -/
theorem mem_arguments (t : Template) (name : String) :
    name ∈ t.arguments ↔ ∃ r ∈ t.references, r.render = name := by
  rw [arguments, Std.TreeSet.mem_toList, Std.TreeSet.mem_ofList, List.contains_iff_mem,
    List.mem_map, references]

theorem references_parse (text : String) :
    (parse text).references = (parse text).tree.references := by
  have h := map_nodes_ofTree (Parser.tree text.toList)
  have hf : Node.reference? ∘ Node.map (parse text).treeAt = Node.reference? :=
    funext (Node.reference?_map _)
  rw [tree_parse, Tree.references, ← h, List.filterMap_map, references]
  exact congrArg (List.filterMap · _) hf.symm

/-- What can be written is read back, so no two references share a text. -/
theorem render_inj_of_isReference {r r' : Reference} (hr : isReference r = true)
    (hr' : isReference r' = true) (h : r.render = r'.render) : r = r' := by
  have hd : isDelimiter '}' = true := by decide
  have he := readReference?_render hr hd []
  rw [h, readReference?_render hr' hd, Option.some.injEq, Prod.mk.injEq] at he
  exact he.1.symm

theorem render_inj_of_mem_references {text text' : String} {r r' : Reference}
    (hr : r ∈ (parse text).references) (hr' : r' ∈ (parse text').references)
    (h : r.render = r'.render) : r = r' := by
  rw [references_parse] at hr hr'
  exact render_inj_of_isReference
    (Tree.isReference_of_canonicalAt _ .top 0 (canonical_parse text) r hr)
    (Tree.isReference_of_canonicalAt _ .top 0 (canonical_parse text') r' hr') h

/-! ## what an evaluation depends on -/

/-- What pieces make of a context does not depend on its arguments. -/
theorem outcome_withArguments (c : Context) (args : Arguments) (out : Message)
    (ps : List Piece) :
    Pieces.outcome { c with arguments := args } out ps =
      ((Pieces.outcome c out ps).1, { (Pieces.outcome c out ps).2 with arguments := args }) := by
  cases hf : Pieces.failure? c.policy ps with
  | some name =>
    have hf' : Pieces.failure? { c with arguments := args }.policy ps = some name := hf
    rw [Pieces.outcome_of_failure hf, Pieces.outcome_of_failure hf']
  | none =>
    have hf' : Pieces.failure? { c with arguments := args }.policy ps = none := hf
    rw [Pieces.outcome_of_none hf, Pieces.outcome_of_none hf']
    rfl

/-- A template reads nothing but its arguments.  Evaluated with other arguments that have
the same value, or none, for every reference whose text is among the arguments of the
template, it gives the same message or error and changes the context in the same way; and
the texts tell the references of parsed templates apart, names from positions too. -/
theorem evaluate_parse_congr (text : String) :
    (∀ (c : Context) (args : Arguments),
      (∀ r : Reference, r.render ∈ (parse text).arguments →
        args.get? r = c.arguments.get? r) →
      (parse text).evaluate { c with arguments := args } =
        (((parse text).evaluate c).1,
          { ((parse text).evaluate c).2 with arguments := args })) ∧
      ∀ text', ∀ r ∈ (parse text).references, ∀ r' ∈ (parse text').references,
        r.render = r'.render → r = r' := by
  refine ⟨fun c args h => ?_, fun text' r hr r' hr' => render_inj_of_mem_references hr hr'⟩
  have hp : (parse text).tree.pieces args c.locale c.quantity? =
      (parse text).tree.pieces c.arguments c.locale c.quantity? := by
    refine Tree.pieces_congr c.locale _ _ fun r hr => h r ?_
    rw [← references_parse] at hr
    exact (mem_arguments _ _).2 ⟨r, hr, rfl⟩
  rw [evaluate, evaluate, evalSequence_eq_outcome, evalSequence_eq_outcome,
    ← outcome_withArguments]
  exact congrArg (Pieces.outcome _ .empty) hp

/-- A choice with references in both branches and behind it. -/
def branching : String :=
  "\x7bn, plural, one\x7b\x7bm\x7d\x7d other\x7b\x7bk\x7d\x7b0\x7d\x7d\x7d \x7bm\x7d\x7bk\x7d"

/-- An argument for the choice. -/
def five : Arguments := .ofNamed [("n", .integer 5)]

theorem evaluate_parse_congr_branching :
    ((parse branching).evaluate
        (.fresh "key" .english (five.insert "x" (.text "unread")) .leave)).1 =
      ((parse branching).evaluate (.fresh "key" .english five .leave)).1 ∧
      ∀ r ∈ (parse branching).references, r.render = "0" → r = .index 0 := by
  have hx : "x" ∉ (parse branching).arguments := by decide +kernel
  have ha : ∀ r : Reference, r.render ∈ (parse branching).arguments →
      (five.insert "x" (.text "unread")).get? r = five.get? r := by
    intro r hr
    cases r with
    | index i => rfl
    | name s =>
      have hs : "x" ≠ s := by
        rintro rfl
        exact hx hr
      simp [Arguments.get?, Arguments.named?, Arguments.insert, Std.TreeMap.getElem?_insert, hs]
  obtain ⟨he, hi⟩ := evaluate_parse_congr branching
  have h0 : Reference.index 0 ∈ (parse branching).references := by decide +kernel
  have hf := congrArg Prod.fst (he (.fresh "key" .english five .leave) _ ha)
  exact ⟨hf, fun r hr h => hi branching r hr _ h0 (h.trans (by decide +kernel))⟩

end Template

end Phrasebook
