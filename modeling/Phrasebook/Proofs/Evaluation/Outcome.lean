import Phrasebook.Proofs.Evaluation.Pieces
import Phrasebook.Proofs.Locale.Tag

/-!
# Phrasebook.Proofs.Evaluation.Outcome

Evaluating a layout is reading its tree.

`Pieces.outcome` says what pieces make of a context and a message.  Evaluating a node,
a row of nodes and a sequence continues by the pieces of the tree (`evalNode_eq`,
`evalNodes_eq`, `evalSequence_eq_outcome`), and `evaluate_parse_eq_pieces` states it for
whole evaluations of parsed templates.

The walk over the layout binds quantities and releases them again.  That they are the
same afterwards, also past an error, needs no separate argument: the context reached
differs from the first one in the recorded names only (`Context.record`).
-/

namespace Phrasebook

/-! ## records -/

namespace Context

/-- The context with names recorded, each once. -/
def record (c : Context) (names : List String) : Context :=
  { c with missing := c.missing ++ (names.removeAll c.missing).eraseDups }

theorem record_nil (c : Context) : c.record [] = c := by
  simp [record, List.removeAll]

/-- Where nothing was missed before, the names are recorded as they come. -/
theorem record_of_nil {c : Context} (h : c.missing = []) (names : List String) :
    c.record names = { c with missing := names.eraseDups } := by
  have hn : names.removeAll [] = names := List.filter_eq_self.2 (by simp)
  rw [record, h, List.nil_append, hn]

theorem record_cons (c : Context) (name : String) (names : List String) :
    c.record (name :: names) = (c.addMissing name).record names := by
  unfold record addMissing
  by_cases h : name ∈ c.missing
  · simp [List.removeAll, h]
  · have hl : (name :: names).removeAll c.missing = name :: names.removeAll c.missing := by
      simp [List.removeAll, h]
    have hr : names.removeAll (c.missing ++ [name]) =
        (names.removeAll c.missing).filter fun b => !b == name := by
      rw [List.removeAll, List.removeAll, List.filter_filter]
      refine List.filter_congr fun b _ => ?_
      by_cases hb : b = name <;> simp [hb]
    rw [if_neg h, hl, List.eraseDups_cons, hr, List.append_assoc, List.singleton_append]

theorem record_append (c : Context) (names names' : List String) :
    c.record (names ++ names') = (c.record names).record names' := by
  induction names generalizing c with
  | nil => rw [List.nil_append, record_nil]
  | cons name names ih => rw [List.cons_append, record_cons, record_cons, ih]

end Context

/-! ## outcomes -/

namespace Template

/-- Goes on from an outcome, unless it is an error. -/
def andThen (o : Outcome) (k : Context → Message → Outcome) : Outcome :=
  match o with
  | (.ok out, c) => k c out
  | (.error e, c) => (.error e, c)

end Template

open Template (Outcome andThen)

namespace Pieces

/-- What evaluating to these pieces makes of a context and a message. -/
def outcome (c : Context) (out : Message) (ps : List Piece) : Outcome :=
  match failure? c.policy ps with
  | some name => (.error (.missingArgument c.key name), c)
  | none =>
    (.ok ((ps.filterMap (Piece.segment? c.policy)).foldl Message.push out), c.record (missing ps))

section

variable {c : Context} {ps : List Piece}

theorem outcome_of_failure {name : String} (h : failure? c.policy ps = some name) (out : Message) :
    outcome c out ps = (.error (.missingArgument c.key name), c) := by
  rw [outcome, h]

theorem outcome_of_none (h : failure? c.policy ps = none) (out : Message) :
    outcome c out ps =
      (.ok ((ps.filterMap (Piece.segment? c.policy)).foldl Message.push out),
        c.record (missing ps)) := by
  rw [outcome, h]

end

theorem failure?_append (policy : MissingArgumentPolicy) (ps qs : List Piece) :
    failure? policy (ps ++ qs) = (failure? policy ps).or (failure? policy qs) := by
  cases policy with
  | error => exact List.findSome?_append
  | leave | marker => rfl

/-- Pieces that do not fail although missing arguments are errors miss nothing. -/
theorem missing_of_failure? {ps : List Piece} (h : failure? .error ps = none) :
    missing ps = [] :=
  List.filterMap_eq_nil_iff.2 (List.findSome?_eq_none_iff.1 h)

/-- Pieces fail only where missing arguments are errors. -/
theorem policy_of_failure? {policy : MissingArgumentPolicy} {ps : List Piece} {name : String}
    (h : failure? policy ps = some name) : policy = .error := by
  cases policy with
  | error => rfl
  | leave | marker => cases h

/-- Pieces that do not fail have all their missing names recorded. -/
theorem recorded_of_none {policy : MissingArgumentPolicy} {ps : List Piece}
    (h : failure? policy ps = none) : recorded policy ps = (missing ps).eraseDups := by
  cases policy with
  | error => rw [missing_of_failure? h, recorded, List.eraseDups_nil]
  | leave | marker => rfl

/-- More pieces continue what those before them reached, unless these failed. -/
theorem outcome_append (c : Context) (out : Message) (ps qs : List Piece) :
    outcome c out (ps ++ qs) = andThen (outcome c out ps) fun c out => outcome c out qs := by
  have ha := failure?_append c.policy ps qs
  cases hp : failure? c.policy ps with
  | some name =>
    rw [hp, Option.some_or] at ha
    rw [outcome_of_failure ha, outcome_of_failure hp, andThen]
  | none =>
    rw [hp, Option.none_or] at ha
    rw [outcome_of_none hp, andThen]
    cases hq : failure? c.policy qs with
    | some name =>
      -- nothing was recorded on the way to the failure
      have hm : missing ps = [] := missing_of_failure? (policy_of_failure? hq ▸ hp)
      rw [hm, c.record_nil, outcome_of_failure hq, outcome_of_failure (ha.trans hq)]
    | none =>
      have hr : failure? (c.record (missing ps)).policy qs = none := hq
      rw [outcome_of_none (ha.trans hq), outcome_of_none hr, List.filterMap_append,
        List.foldl_append, ← c.record_append, missing, List.filterMap_append]
      rfl

/-- What comes after an outcome sees a context with more names recorded. -/
theorem andThen_outcome_congr {c : Context} {out : Message} {ps : List Piece}
    {k k' : Context → Message → Outcome}
    (h : ∀ names out, k (c.record names) out = k' (c.record names) out) :
    andThen (outcome c out ps) k = andThen (outcome c out ps) k' := by
  cases hp : failure? c.policy ps with
  | some name => rw [outcome_of_failure hp, andThen, andThen]
  | none => rw [outcome_of_none hp, andThen, andThen, h]

/-- A quantity that is bound for these pieces and released after them was never there. -/
theorem outcome_bindQuantity (c : Context) (v : Value) (out : Message) (ps : List Piece) :
    ((outcome (c.bindQuantity v) out ps).1, (outcome (c.bindQuantity v) out ps).2.releaseQuantity) =
      outcome c out ps := by
  cases hp : failure? c.policy ps with
  | some name =>
    have hb : failure? (c.bindQuantity v).policy ps = some name := hp
    rw [outcome_of_failure hb, outcome_of_failure hp]
    rfl
  | none =>
    have hb : failure? (c.bindQuantity v).policy ps = none := hp
    rw [outcome_of_none hb, outcome_of_none hp]
    rfl

/-- Pieces that miss nothing record nothing. -/
theorem outcome_of_missing_eq_nil (ps : List Piece) (h : missing ps = []) (c : Context)
    (out : Message) :
    outcome c out ps =
      (.ok ((ps.filterMap (Piece.segment? c.policy)).foldl Message.push out), c) := by
  have hf : failure? c.policy ps = none := by
    unfold failure?
    split
    · exact List.findSome?_eq_none_iff.2 (List.filterMap_eq_nil_iff.1 h)
    · rfl
  rw [outcome_of_none hf, h, c.record_nil]

end Pieces

/-! ## evaluation -/

namespace Template

open Pieces (outcome)

/-- Evaluates a single node; `below` evaluates the bodies in it. -/
def evalNode (below : Nat → Context → Message → Outcome) (x : Node Nat) (c : Context)
    (out : Message) : Outcome :=
  match x with
  | .literal s => (.ok (out.pushText s), c)
  | .placeholder r directive source => evalPlaceholder r directive source c out
  | .quantity => evalQuantity c out
  | .plural r branches source =>
    match c.arguments.get? r with
    | none => evalMissing r source c out
    | some v =>
      match Branch.select? branches v c.locale with
      | none => (.ok out, c)
      | some b =>
        ((below b.body (c.bindQuantity v) out).1,
          (below b.body (c.bindQuantity v) out).2.releaseQuantity)

theorem evalNodes_cons (below : Nat → Context → Message → Outcome) (x : Node Nat)
    (rest : List (Node Nat)) (c : Context) (out : Message) :
    evalNodes below (x :: rest) c out =
      andThen (evalNode below x c out) (evalNodes below rest) := by
  cases x <;> rfl

/-- An argument that was not given is a missing piece. -/
theorem evalMissing_eq (r : Reference) (source : String) (c : Context) (out : Message) :
    evalMissing r source c out = outcome c out [.missing r source] := by
  have hr : c.addMissing r.render = c.record [r.render] := by
    rw [Context.record_cons, Context.record_nil]
  unfold evalMissing outcome
  cases hp : c.policy with
  | leave =>
    dsimp only
    rw [hr]
    rfl
  | marker mark =>
    dsimp only
    rw [hr]
    rfl
  | error => rfl

section

variable {below : Nat → Context → Message → Outcome} {f : Nat → Tree}

/-- Evaluating a node continues by its pieces, if evaluating its bodies does. -/
theorem evalNode_eq
    (h : ∀ body c out, below body c out =
      outcome c out ((f body).pieces c.arguments c.locale c.quantity?))
    (x : Node Nat) (c : Context) (out : Message) :
    evalNode below x c out =
      outcome c out (Tree.piecesNodes c.arguments c.locale c.quantity? [x.map f]) := by
  cases x with
  | literal s => exact (Pieces.outcome_of_missing_eq_nil [.text s] rfl c out).symm
  | placeholder r d source =>
    simp only [evalNode, evalPlaceholder, Node.map, Tree.piecesNodes]
    cases c.arguments.get? r with
    | none => exact evalMissing_eq r source c out
    | some v => exact (Pieces.outcome_of_missing_eq_nil [.value v d] rfl c out).symm
  | quantity =>
    simp only [evalNode, evalQuantity, Node.map, Tree.piecesNodes]
    cases c.quantity? with
    | none => exact (Pieces.outcome_of_missing_eq_nil [.text "#"] rfl c out).symm
    | some v => exact (Pieces.outcome_of_missing_eq_nil [.value v none] rfl c out).symm
  | plural r bs source =>
    rw [Node.map, Tree.piecesNodes_plural, evalNode]
    cases c.arguments.get? r with
    | none => exact evalMissing_eq r source c out
    | some v =>
      dsimp only
      rw [Branch.select?_map]
      cases Branch.select? bs v c.locale with
      | none => exact (Pieces.outcome_of_missing_eq_nil [.dropped source] rfl c out).symm
      | some b =>
        dsimp only [Option.map_some]
        rw [h]
        exact Pieces.outcome_bindQuantity c v out _

/-- Evaluating a row of nodes continues by their pieces, if evaluating the bodies does. -/
theorem evalNodes_eq
    (h : ∀ body c out, below body c out =
      outcome c out ((f body).pieces c.arguments c.locale c.quantity?))
    (ns : List (Node Nat)) (c : Context) (out : Message) :
    evalNodes below ns c out =
      outcome c out (Tree.piecesNodes c.arguments c.locale c.quantity? (ns.map (Node.map f))) := by
  induction ns generalizing c out with
  | nil => exact (Pieces.outcome_of_missing_eq_nil [] rfl c out).symm
  | cons x rest ih =>
    rw [List.map_cons, Tree.piecesNodes_cons, Pieces.outcome_append, evalNodes_cons, evalNode_eq h]
    exact Pieces.andThen_outcome_congr fun names out => ih (c.record names) out

end

/-- Evaluating a sequence continues by the pieces of its tree. -/
theorem evalSequence_eq_outcome (t : Template) (id : Nat) (c : Context) (out : Message) :
    t.evalSequence id c out =
      outcome c out ((t.treeAt id).pieces c.arguments c.locale c.quantity?) := by
  induction id using Nat.strongRecOn generalizing c out with
  | _ id ih =>
    rw [treeAt_eq, Tree.pieces, evalSequence]
    refine evalNodes_eq (fun body c out => ?_) _ c out
    unfold bodyTree
    split
    · next hlt => exact ih body hlt c out
    · exact (Pieces.outcome_of_missing_eq_nil [] rfl c out).symm

/-- What pieces make of a context in which nothing was missed, starting from no message. -/
theorem outcome_empty {c : Context} (h : c.missing = []) (ps : List Piece) :
    outcome c .empty ps =
      (Pieces.message c.key c.policy ps, { c with missing := Pieces.recorded c.policy ps }) := by
  cases hf : Pieces.failure? c.policy ps with
  | some name =>
    have hr : Pieces.recorded c.policy ps = c.missing := by
      rw [Pieces.policy_of_failure? hf, h]
      rfl
    rw [Pieces.outcome_of_failure hf, Pieces.message, hf, hr]
  | none =>
    rw [Pieces.outcome_of_none hf, Pieces.message, hf, Context.record_of_nil h,
      Pieces.recorded_of_none hf, ← Message.ofSegments_eq]
    rfl

/-- Where nothing was missed before, evaluating gives the message of the pieces and
changes the record of missing arguments only. -/
theorem evaluate_eq_message (t : Template) {c : Context} (h : c.missing = []) :
    t.evaluate c =
      (Pieces.message c.key c.policy (t.tree.pieces c.arguments c.locale c.quantity?),
        { c with
          missing :=
            Pieces.recorded c.policy (t.tree.pieces c.arguments c.locale c.quantity?) }) := by
  rw [evaluate, evalSequence_eq_outcome, outcome_empty h]
  rfl

/-- Evaluating a parsed template reads the tree that was parsed.  It gives the message of
the pieces, or the error at the first missing one if the policy asks for it; the
quantities bound before are bound after it, error or not; and it records the missing
arguments, each once and in the order in which they are met, unless the policy makes them
errors. -/
theorem evaluate_parse_eq_pieces (text key : String) (l : Locale) (args : Arguments)
    (policy : MissingArgumentPolicy) (quantities : List Value) :
    (parse text).evaluate ⟨key, l, args, policy, quantities, []⟩ =
      (Pieces.message key policy
          ((Parser.tree text.toList).pieces args l quantities.head?),
        ⟨key, l, args, policy, quantities,
          Pieces.recorded policy
            ((Parser.tree text.toList).pieces args l quantities.head?)⟩) := by
  rw [← tree_parse]
  exact evaluate_eq_message (parse text) rfl

/-- An evaluation that fails at a missing argument records no name, though it met one. -/
theorem evaluate_error_records_nothing :
    ((parse "\x7bn\x7d").evaluate (.fresh "k" .english .empty .error)).2.missing ≠
      (Pieces.missing
        ((Parser.tree "\x7bn\x7d".toList).pieces .empty .english none)).eraseDups := by
  decide +kernel

end Template

end Phrasebook
