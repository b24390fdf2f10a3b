import Phrasebook.Proofs.Message.Merging
import Phrasebook.Proofs.Template.WellFormed

/-!
# Phrasebook.Proofs.Evaluation.Pieces

What a template contributes to a message, read off its tree.

`Tree.pieces` goes through a tree from left to right and lists texts, values and missing
arguments.  It hands down the quantity of the innermost choice and knows nothing of
policies, messages or stacks.  What a policy makes of the pieces is said afterwards:
they fail at the first missing argument (`Pieces.failure?`), or give the merged row of
their segments (`Pieces.message`); and some of the names are recorded
(`Pieces.recorded`).

A choice takes the pieces of the body chosen and no others (`piecesNodes_plural`).
-/

namespace Phrasebook

/-! ## pieces -/

/-- What a template contributes to a message. -/
inductive Piece where
  | text (s : String)
  | value (v : Value) (directive : Option String)
  /-- An argument that was not given, with the text of its placeholder or choice. -/
  | missing (r : Reference) (source : String)
  /-- A choice that has no branch for its value. -/
  | dropped (source : String)

namespace Tree

mutual

/-- The pieces of a sequence; `q` is the quantity of the innermost choice around it. -/
def pieces (args : Arguments) (l : Locale) (q : Option Value) : Tree → List Piece
  | .sequence ns => piecesNodes args l q ns

/-- The pieces of a row of nodes. -/
def piecesNodes (args : Arguments) (l : Locale) (q : Option Value) :
    List (Node Tree) → List Piece
  | [] => []
  | .literal s :: rest => .text s :: piecesNodes args l q rest
  | .placeholder r d source :: rest =>
    (match args.get? r with
    | some v => .value v d
    | none => .missing r source) :: piecesNodes args l q rest
  | .quantity :: rest =>
    (match q with
    | some v => .value v none
    | none => .text "#") :: piecesNodes args l q rest
  | .plural r bs source :: rest =>
    (match args.get? r with
    | none => [.missing r source]
    | some v =>
      match Branch.select? (piecesBranches args l v bs) v l with
      | some b => b.body
      | none => [.dropped source]) ++ piecesNodes args l q rest

/-- Branches with the pieces of their bodies, where `v` is the quantity. -/
def piecesBranches (args : Arguments) (l : Locale) (v : Value) :
    List (Branch Tree) → List (Branch (List Piece))
  | [] => []
  | ⟨s, body⟩ :: rest => ⟨s, body.pieces args l (some v)⟩ :: piecesBranches args l v rest

end

end Tree

namespace Piece

/-- The segment that a piece is under a policy. -/
def segment? (policy : MissingArgumentPolicy) : Piece → Option (Segment Value)
  | .text s => some (.text s)
  | .value v d => some (.value v d)
  | .missing r source =>
    match policy with
    | .leave => some (.text source)
    | .marker mark => some (.text (MissingArgumentPolicy.markerText mark r.render))
    | .error => none
  | .dropped _ => none

/-- The name of the argument that a piece misses. -/
def missing? : Piece → Option String
  | .missing r _ => some r.render
  | _ => none

end Piece

namespace Pieces

/-- The name at which pieces fail under a policy. -/
def failure? (policy : MissingArgumentPolicy) (ps : List Piece) : Option String :=
  match policy with
  | .error => ps.findSome? Piece.missing?
  | _ => none

/-- The names of the missing arguments, in order. -/
def missing (ps : List Piece) : List String := ps.filterMap Piece.missing?

/-- What pieces give under a policy: a message, unless they fail. -/
def message (key : String) (policy : MissingArgumentPolicy) (ps : List Piece) :
    Except ResolveError Message :=
  match failure? policy ps with
  | some name => .error (.missingArgument key name)
  | none => .ok ⟨Message.merged (ps.filterMap (Piece.segment? policy))⟩

/-- The names that an evaluation to these pieces records: each missing argument once, in
the order in which they are met.  An evaluation that fails has named the one it fails at and
records none. -/
def recorded (policy : MissingArgumentPolicy) (ps : List Piece) : List String :=
  match policy with
  | .error => []
  | _ => (missing ps).eraseDups

end Pieces

/-! ## choices -/

namespace Branch

variable {β γ : Type}

theorem find?_map (f : β → γ) (bs : List (Branch β)) (s : Selector) :
    find? (bs.map (Branch.map f)) s = (find? bs s).map (Branch.map f) := by
  rw [find?, find?, List.find?_map]
  rfl

theorem select?_map (f : β → γ) (bs : List (Branch β)) (v : Value) (l : Locale) :
    select? (bs.map (Branch.map f)) v l = (select? bs v l).map (Branch.map f) := by
  unfold select?
  simp only [find?_map, Option.map_or, Option.map_bind, Function.comp_def]

end Branch

namespace Tree

variable (args : Arguments) (l : Locale)

theorem piecesBranches_eq (v : Value) (bs : List (Branch Tree)) :
    piecesBranches args l v bs = bs.map (Branch.map (pieces args l (some v))) := by
  induction bs with
  | nil => rfl
  | cons b rest ih =>
    rw [piecesBranches, ih, List.map_cons]
    rfl

/-- The pieces of a choice are those of the body chosen, with the value as quantity. -/
theorem piecesNodes_plural (q : Option Value) (r : Reference) (bs : List (Branch Tree))
    (source : String) :
    piecesNodes args l q [.plural r bs source] =
      match args.get? r with
      | none => [.missing r source]
      | some v =>
        match Branch.select? bs v l with
        | some b => b.body.pieces args l (some v)
        | none => [.dropped source] := by
  simp only [piecesNodes, List.append_nil]
  cases args.get? r with
  | none => rfl
  | some v =>
    dsimp only
    rw [piecesBranches_eq, Branch.select?_map]
    cases Branch.select? bs v l <;> rfl

theorem piecesNodes_cons (q : Option Value) (x : Node Tree) (rest : List (Node Tree)) :
    piecesNodes args l q (x :: rest) = piecesNodes args l q [x] ++ piecesNodes args l q rest := by
  cases x with
  | plural r bs source => simp only [piecesNodes, List.append_nil]
  | literal | placeholder | quantity => rfl

end Tree

end Phrasebook
