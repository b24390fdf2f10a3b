import Mathlib.Data.List.Forall2
import Phrasebook.Proofs.Evaluation.References

/-!
# Phrasebook.Proofs.Evaluation.Opacity

Values are set in as they are.

An evaluation looks at a value for two things only: whether it is there, and which branch
it selects.  So two evaluations of one template go the same way when their arguments
define the same references and select the same branches (`Node.Indifferent`).  What they
give then corresponds place by place: the same texts, and values of the same references
(`Segment.Rel` of `Arguments.Shared`).  Nothing in a value is read as a placeholder, runs
into the text beside it or is cut.

The two runs are compared piece by piece (`Tree.rel_pieces`).  Merging keeps the
correspondence, since it looks at texts alone (`Message.rel_merged`).
-/

namespace Phrasebook

/-! ## correspondence -/

/-- Values of one reference, among some, under two arguments. -/
def Arguments.Shared (args args' : Arguments) (rs : List Reference) (v v' : Value) : Prop :=
  ∃ r ∈ rs, args.get? r = some v ∧ args'.get? r = some v'

/-- The same text, or related values with the same directive. -/
inductive Segment.Rel {ν : Type} (R : ν → ν → Prop) : Segment ν → Segment ν → Prop where
  | text (s : String) : Rel R (.text s) (.text s)
  | value {v v' : ν} (h : R v v') (directive : Option String) :
    Rel R (.value v directive) (.value v' directive)

/-- The same error, or messages of related segments. -/
inductive Message.ResultRel (R : Value → Value → Prop) :
    Except ResolveError Message → Except ResolveError Message → Prop where
  | error (e : ResolveError) : ResultRel R (.error e) (.error e)
  | ok {m m' : Message} (h : List.Forall₂ (Segment.Rel R) m.segments m'.segments) :
    ResultRel R (.ok m) (.ok m')

/-- The same piece, up to related values. -/
inductive Piece.Rel (R : Value → Value → Prop) : Piece → Piece → Prop where
  | text (s : String) : Rel R (.text s) (.text s)
  | value {v v' : Value} (h : R v v') (directive : Option String) :
    Rel R (.value v directive) (.value v' directive)
  | missing (r : Reference) (source : String) : Rel R (.missing r source) (.missing r source)
  | dropped (source : String) : Rel R (.dropped source) (.dropped source)

section

variable {R : Value → Value → Prop}

/-! ## from pieces to messages -/

namespace Message

/-- Putting a segment in front of others looks at texts only, and these are the same. -/
theorem rel_consMerged {x x' : Segment Value} (hx : x.Rel R x') {l l' : List (Segment Value)}
    (hl : List.Forall₂ (Segment.Rel R) l l') :
    List.Forall₂ (Segment.Rel R) (consMerged x l) (consMerged x' l') := by
  cases hx with
  | value h d => exact .cons (.value h d) hl
  | text s =>
    have hs : List.Forall₂ (Segment.Rel R) [.text s] [.text s] := .cons (.text s) .nil
    cases hl with
    | nil => by_cases he : s = "" <;> simp [consMerged, he, Segment.Rel.text]
    | cons hy hrest =>
      cases hy with
      | text t => exact .cons (.text (s ++ t)) hrest
      | value h d =>
        have hrest := List.Forall₂.cons (.value h d) hrest
        by_cases he : s = ""
        · simpa [consMerged, he] using hrest
        · simpa [consMerged, he] using List.rel_append hs hrest

theorem rel_merged {l l' : List (Segment Value)} (h : List.Forall₂ (Segment.Rel R) l l') :
    List.Forall₂ (Segment.Rel R) (merged l) (merged l') :=
  List.rel_foldr (R := Segment.Rel R) (P := List.Forall₂ (Segment.Rel R))
    (fun _ _ hx _ _ hl => rel_consMerged hx hl) .nil h

end Message

namespace Pieces

variable {ps ps' : List Piece}

theorem rel_segment? {p p' : Piece} (h : p.Rel R p') (policy : MissingArgumentPolicy) :
    Option.Rel (Segment.Rel R) (p.segment? policy) (p'.segment? policy) := by
  cases h with
  | text s => exact .some (.text s)
  | value h d => exact .some (.value h d)
  | dropped source => exact .none
  | missing r source =>
    cases policy with
    | leave => exact .some (.text source)
    | marker mark => exact .some (.text _)
    | error => exact .none

/-- Related pieces miss the same arguments. -/
theorem missing_eq_of_rel (h : List.Forall₂ (Piece.Rel R) ps ps') : missing ps = missing ps' := by
  induction h with
  | nil => rfl
  | cons hp _ ih =>
    cases hp <;> simp only [missing, List.filterMap_cons, Piece.missing?] at ih ⊢ <;> rw [ih]

/-- Related pieces fail at the same argument. -/
theorem failure?_eq_of_rel (h : List.Forall₂ (Piece.Rel R) ps ps')
    (policy : MissingArgumentPolicy) : failure? policy ps = failure? policy ps' := by
  cases policy with
  | leave | marker => rfl
  | error =>
    rw [failure?, failure?, ← List.head?_filterMap, ← List.head?_filterMap]
    exact congrArg List.head? (missing_eq_of_rel h)

theorem recorded_eq_of_rel (h : List.Forall₂ (Piece.Rel R) ps ps')
    (policy : MissingArgumentPolicy) : recorded policy ps = recorded policy ps' := by
  cases policy with
  | error => rfl
  | leave | marker => exact congrArg List.eraseDups (missing_eq_of_rel h)

/-- Related pieces fail alike or give messages of related segments. -/
theorem rel_message (h : List.Forall₂ (Piece.Rel R) ps ps') (key : String)
    (policy : MissingArgumentPolicy) :
    Message.ResultRel R (message key policy ps) (message key policy ps') := by
  rw [message, message, failure?_eq_of_rel h policy]
  cases failure? policy ps' with
  | some name => exact .error _
  | none =>
    have hs : List.Forall₂ (Segment.Rel R) (ps.filterMap (Piece.segment? policy))
        (ps'.filterMap (Piece.segment? policy)) :=
      List.rel_filterMap (R := Piece.Rel R) (fun _ _ hp => rel_segment? hp policy) h
    exact .ok (Message.rel_merged hs)

end Pieces

end

/-! ## from arguments to pieces -/

/-- A node where evaluations with two arguments go the same way: its reference, one of those
listed, has a value in both or in neither, and a choice selects the same branch by both. -/
structure Node.Indifferent {β : Type} (args args' : Arguments) (l : Locale)
    (rs : List Reference) (x : Node β) : Prop where
  listed : ∀ r, x.reference? = some r → r ∈ rs
  defined : ∀ r, x.reference? = some r → (args.get? r).isSome = (args'.get? r).isSome
  selected : ∀ r bs source, x = .plural r bs source → ∀ v v',
    args.get? r = some v → args'.get? r = some v' → Branch.select? bs v l = Branch.select? bs v' l

section

variable {args args' : Arguments} {l : Locale} {rs : List Reference}

/-- The reference of such a node has no value, or values that are shared. -/
theorem Node.Indifferent.get?_cases {β : Type} {x : Node β} {r : Reference}
    (h : x.Indifferent args args' l rs) (hr : x.reference? = some r) :
    (args.get? r = none ∧ args'.get? r = none) ∨
      ∃ v v', args.get? r = some v ∧ args'.get? r = some v' ∧ args.Shared args' rs v v' := by
  have hd := h.defined r hr
  cases hv : args.get? r with
  | none =>
    rw [hv, Option.isSome_none, eq_comm, Option.isSome_eq_false_iff,
      Option.isNone_iff_eq_none] at hd
    exact .inl ⟨rfl, hd⟩
  | some v =>
    rw [hv, Option.isSome_some, eq_comm, Option.isSome_iff_exists] at hd
    obtain ⟨v', hv'⟩ := hd
    exact .inr ⟨v, v', rfl, hv', r, h.listed r hr, hv, hv'⟩

/-- A node stays indifferent with other bodies, since none is looked at. -/
theorem Node.Indifferent.map {β γ : Type} {x : Node β} (h : x.Indifferent args args' l rs)
    (f : β → γ) : (x.map f).Indifferent args args' l rs where
  listed r hr := h.listed r (Node.reference?_map f x ▸ hr)
  defined r hr := h.defined r (Node.reference?_map f x ▸ hr)
  selected := by
    intro r bs source he v v' hv hv'
    cases x with
    | plural r' bs' source' =>
      cases he
      rw [Branch.select?_map, Branch.select?_map, h.selected r bs' source rfl v v' hv hv']
    | literal | placeholder | quantity => cases he

namespace Tree

mutual

/-- Where all nodes of a tree are indifferent, its pieces are related; `q` and `q'` are the
quantities of the innermost choice around it. -/
theorem rel_pieces : (t : Tree) → (∀ x ∈ t.allNodes, x.Indifferent args args' l rs) →
    ∀ {q q' : Option Value}, Option.Rel (args.Shared args' rs) q q' →
      List.Forall₂ (Piece.Rel (args.Shared args' rs)) (t.pieces args l q) (t.pieces args' l q')
  | .sequence ns, h, q, q', hq => by
    rw [allNodes, List.forall_mem_append] at h
    rw [pieces, pieces]
    exact rel_piecesNodes ns h.1 h.2 hq

theorem rel_piecesNodes : (ns : List (Node Tree)) →
    (∀ x ∈ nestedNodes ns, x.Indifferent args args' l rs) →
    (∀ x ∈ ns, x.Indifferent args args' l rs) →
    ∀ {q q' : Option Value}, Option.Rel (args.Shared args' rs) q q' →
      List.Forall₂ (Piece.Rel (args.Shared args' rs)) (piecesNodes args l q ns)
        (piecesNodes args' l q' ns)
  | [], _, _, _, _, _ => .nil
  | .literal s :: rest, hn, h, q, q', hq => by
    rw [nestedNodes] at hn
    rw [piecesNodes, piecesNodes]
    exact .cons (.text s) (rel_piecesNodes rest hn (List.forall_mem_cons.1 h).2 hq)
  | .placeholder r d source :: rest, hn, h, q, q', hq => by
    rw [nestedNodes] at hn
    obtain ⟨hx, h⟩ := List.forall_mem_cons.1 h
    have hrest := rel_piecesNodes rest hn h hq
    rw [piecesNodes, piecesNodes]
    obtain ⟨hv, hv'⟩ | ⟨v, v', hv, hv', hs⟩ := hx.get?_cases rfl
    · rw [hv, hv']
      exact .cons (.missing r source) hrest
    · rw [hv, hv']
      exact .cons (.value hs d) hrest
  | .quantity :: rest, hn, h, q, q', hq => by
    rw [nestedNodes] at hn
    have hrest := rel_piecesNodes rest hn (List.forall_mem_cons.1 h).2 hq
    cases hq with
    | none => exact .cons (.text "#") hrest
    | some hs => exact .cons (.value hs none) hrest
  | .plural r bs source :: rest, hn, h, q, q', hq => by
    rw [nestedNodes, List.forall_mem_append] at hn
    obtain ⟨hx, h⟩ := List.forall_mem_cons.1 h
    rw [piecesNodes_cons, piecesNodes_cons args']
    refine List.rel_append ?_ (rel_piecesNodes rest hn.2 h hq)
    rw [piecesNodes_plural, piecesNodes_plural]
    obtain ⟨hv, hv'⟩ | ⟨v, v', hv, hv', hs⟩ := hx.get?_cases rfl
    · rw [hv, hv']
      exact .cons (.missing r source) .nil
    · rw [hv, hv']
      dsimp only
      rw [← hx.selected r bs source rfl v v' hv hv']
      cases hb : Branch.select? bs v l with
      | none => exact .cons (.dropped source) .nil
      | some b => exact rel_piecesBranches bs hn.1 hs b (Branch.mem_of_select? hb)

theorem rel_piecesBranches : (bs : List (Branch Tree)) →
    (∀ x ∈ nestedBranches bs, x.Indifferent args args' l rs) →
    ∀ {v v' : Value}, args.Shared args' rs v v' → ∀ b ∈ bs,
      List.Forall₂ (Piece.Rel (args.Shared args' rs)) (b.body.pieces args l (some v))
        (b.body.pieces args' l (some v'))
  | [], _, _, _, _, _, hb => by cases hb
  | ⟨s, body⟩ :: rest, h, v, v', hs, b, hb => by
    rw [nestedBranches, List.forall_mem_append] at h
    obtain rfl | hb := List.mem_cons.1 hb
    · exact rel_pieces body h.1 (.some hs)
    · exact rel_piecesBranches rest h.2 hs b hb

end

end Tree

/-! ## two evaluations -/

namespace Template

/-- What is indifferent in the layout is so in the tree. -/
theorem indifferent_allNodes_parse {text : String}
    (h : ∀ x ∈ (parse text).nodes, x.Indifferent args args' l rs) :
    ∀ x ∈ (parse text).tree.allNodes, x.Indifferent args args' l rs := by
  intro x hx
  rw [tree_parse, ← map_nodes_ofTree] at hx
  obtain ⟨y, hy, rfl⟩ := List.mem_map.1 hx
  exact (h y (Array.mem_toList_iff.1 hy)).map _

/-- Values are never looked into, but to select branches.  Let two arguments define the
same references of a template, and let every choice of it select the same branch by the
values of its reference under both.  Then both evaluations fail with the same error, or give
messages of equally many segments, which hold in each place the same text, or the two values
of one reference with the same directive.  They record the same missing arguments. -/
theorem rel_evaluate_parse (text key : String) (l : Locale) (policy : MissingArgumentPolicy)
    {args args' : Arguments}
    (hd : ∀ r ∈ (parse text).references, (args.get? r).isSome = (args'.get? r).isSome)
    (hs : ∀ r bs source, .plural r bs source ∈ (parse text).nodes → ∀ v v',
      args.get? r = some v → args'.get? r = some v' →
        Branch.select? bs v l = Branch.select? bs v' l) :
    Message.ResultRel (args.Shared args' (parse text).references)
        ((parse text).evaluate (.fresh key l args policy)).1
        ((parse text).evaluate (.fresh key l args' policy)).1 ∧
      ((parse text).evaluate (.fresh key l args policy)).2.missing =
        ((parse text).evaluate (.fresh key l args' policy)).2.missing := by
  have hn : ∀ x ∈ (parse text).nodes,
      x.Indifferent args args' l (parse text).references := by
    intro x hx
    have hr : ∀ r, x.reference? = some r → r ∈ (parse text).references := fun r hr =>
      List.mem_filterMap.2 ⟨x, Array.mem_toList_iff.2 hx, hr⟩
    exact ⟨hr, fun r h => hd r (hr r h), fun r bs source he => hs r bs source (he ▸ hx)⟩
  have hp : List.Forall₂ (Piece.Rel (args.Shared args' (parse text).references))
      ((parse text).tree.pieces args l none) ((parse text).tree.pieces args' l none) :=
    Tree.rel_pieces _ (indifferent_allNodes_parse hn) .none
  have he : ∀ args, (parse text).evaluate (.fresh key l args policy) = _ := fun args =>
    evaluate_eq_message (parse text) (c := .fresh key l args policy) rfl
  rw [he, he]
  exact ⟨Pieces.rel_message hp key policy, Pieces.recorded_eq_of_rel hp policy⟩

/-- A choice with its quantity and a placeholder in it. -/
def addressed : String := "\x7bn, plural, one\x7bone\x7d other\x7b# \x7bwho, bold\x7d\x7d\x7d"

/-- Values that look like parts of a template. -/
def templateLike : Arguments :=
  .ofNamed [("n", .text "\x7bn, plural, one\x7b#\x7d\x7d"), ("who", .text "\x7bwho\x7d\n#")]

/-- Values of other kinds for the same references. -/
def nested : Arguments :=
  .ofNamed [("n", .message [.text "#", .value (.integer 1) none]), ("who", .integer 1)]

theorem rel_evaluate_parse_addressed :
    Message.ResultRel (templateLike.Shared nested (parse addressed).references)
        ((parse addressed).evaluate (.fresh "key" .english templateLike .error)).1
        ((parse addressed).evaluate (.fresh "key" .english nested .error)).1 ∧
      ((parse addressed).evaluate (.fresh "key" .english templateLike .error)).2.missing =
        ((parse addressed).evaluate (.fresh "key" .english nested .error)).2.missing := by
  refine rel_evaluate_parse addressed "key" .english .error (by decide +kernel) ?_
  intro r bs source hx v v' hv hv'
  have hn : (parse addressed).nodes =
      #[.literal "one", .quantity, .literal " ",
        .placeholder (.name "who") (some "bold") "\x7bwho, bold\x7d",
        .plural (.name "n") [⟨.category .one, 0⟩, ⟨.category .other, 1⟩] addressed] := by
    decide +kernel
  rw [hn] at hx
  simp only [List.mem_toArray, List.mem_cons, Node.plural.injEq, reduceCtorEq, false_or,
    List.not_mem_nil, or_false] at hx
  obtain ⟨rfl, rfl, -⟩ := hx
  cases hv
  cases hv'
  decide +kernel

end Template

end

end Phrasebook
