import Phrasebook.Template.Parser

/-!
# Phrasebook.Template.Layout

Parsed templates, laid out flat.

All nodes stand in one array.  A sequence is a span of it, and the branches of a
plural choice name the sequences of their bodies by number.  `ofTree` lays the
bodies of a sequence down before the sequence itself, so

* every sequence is one span and the spans follow each other without gaps;
* a body has a smaller number than the sequence that holds its choice, and the
  root has the greatest.

Walks over the layout go down these numbers, and so they end.
-/

namespace Phrasebook

/-- The place of a sequence among the nodes. -/
structure Span where
  start : Nat
  stop : Nat
deriving DecidableEq

/-- A parsed template. -/
structure Template where
  nodes : Array (Node Nat)
  spans : Array Span
  root : Nat
deriving DecidableEq

namespace Template

/-! ## laying out -/

/-- Sequences laid out so far. -/
structure Layout where
  nodes : Array (Node Nat)
  spans : Array Span

namespace Layout

/-- No sequences. -/
def empty : Layout := ⟨#[], #[]⟩

/-- One more sequence; its number is the count of those before it. -/
def addSequence (l : Layout) (ns : List (Node Nat)) : Nat × Layout :=
  (l.spans.size,
    { nodes := l.nodes ++ ns
      spans := l.spans.push ⟨l.nodes.size, l.nodes.size + ns.length⟩ })

mutual

/-- One more sequence after all those nested in it. -/
def addTree (l : Layout) : Tree → Nat × Layout
  | .sequence ns =>
    let (ns, l) := addNodes l ns
    l.addSequence ns

/-- The sequences nested in a row of nodes, with the nodes that refer to them. -/
def addNodes (l : Layout) : List (Node Tree) → List (Node Nat) × Layout
  | [] => ([], l)
  | .literal s :: rest =>
    let (rest, l) := addNodes l rest
    (.literal s :: rest, l)
  | .placeholder r d source :: rest =>
    let (rest, l) := addNodes l rest
    (.placeholder r d source :: rest, l)
  | .quantity :: rest =>
    let (rest, l) := addNodes l rest
    (.quantity :: rest, l)
  | .plural r bs source :: rest =>
    let (bs, l) := addBranches l bs
    let (rest, l) := addNodes l rest
    (.plural r bs source :: rest, l)

/-- The bodies of branches, with the branches that refer to them. -/
def addBranches (l : Layout) : List (Branch Tree) → List (Branch Nat) × Layout
  | [] => ([], l)
  | ⟨selector, body⟩ :: rest =>
    let (id, l) := addTree l body
    let (rest, l) := addBranches l rest
    (⟨selector, id⟩ :: rest, l)

end

end Layout

/-- The flat layout of a tree. -/
def ofTree (t : Tree) : Template :=
  let (root, l) := Layout.empty.addTree t
  ⟨l.nodes, l.spans, root⟩

/-- The template of a text.  Every text is a template. -/
def parse (text : String) : Template := ofTree (Parser.tree text.toList)

/-! ## looking at a template -/

/-- The nodes of a sequence; none if there is no such sequence. -/
def sequence (t : Template) (id : Nat) : List (Node Nat) :=
  match t.spans[id]? with
  | some ⟨start, stop⟩ =>
    if start ≤ stop ∧ stop ≤ t.nodes.size then (t.nodes.extract start stop).toList else []
  | none => []

/-- The nodes of the root sequence. -/
def rootNodes (t : Template) : List (Node Nat) := t.sequence t.root

/-- There are no nodes. -/
def isEmpty (t : Template) : Bool := t.nodes.isEmpty

/-- There are no nodes but literals. -/
def isLiteral (t : Template) : Bool := t.nodes.all Node.isLiteral

/-- The texts of the arguments that a template refers to, ascending, each once. -/
def arguments (t : Template) : List String :=
  (Std.TreeSet.ofList ((t.nodes.toList.filterMap Node.reference?).map Reference.render)).toList

/-! ## validity -/

/-- What makes a template invalid. -/
inductive Error where
  /-- A plural choice has no branch for `other`. -/
  | missingOther (source : String)
deriving DecidableEq, Repr

/-- The wording of an error. -/
def Error.message : Error → String
  | .missingOther source => "plural placeholder '" ++ source ++ "' has no 'other' branch"

/-- The error of a single node. -/
def nodeError? : Node Nat → Option Error
  | .plural _ bs source => if Branch.hasOther bs then none else some (.missingOther source)
  | _ => none

/-- The first error in the order of the layout: inner sequences before outer ones,
left to right. -/
def error? (t : Template) : Option Error := t.nodes.toList.findSome? nodeError?

end Template

end Phrasebook
