import Phrasebook.Arguments
import Phrasebook.Plural.Rules

/-!
# Phrasebook.Template.Node

What message templates are made of.

A sequence is a row of nodes: literal text, placeholders, plural choices, and
inside the branches of a choice the mark `#` for its quantity.  The node type is
open in the bodies of its branches: in a `Tree` they are sequences again, in the
flat layout of a parsed template they are the numbers of sequences
(`Phrasebook.Template.Layout`).
-/

namespace Phrasebook

/-- The condition of a plural branch: an exact number, or a plural category. -/
inductive Selector where
  | exact (n : Int64)
  | category (c : Plural.Category)
deriving DecidableEq

/-- The text of a condition. -/
def Selector.render : Selector → String
  | .exact n => "=" ++ Number.renderInt n.toInt
  | .category c => c.keyword

/-- A branch of a plural choice. -/
structure Branch (β : Type) where
  selector : Selector
  body : β
deriving DecidableEq

/-- A node of a template over the bodies of its branches.  Placeholders and plural
choices keep their text as written, braces included. -/
inductive Node (β : Type) where
  | literal (text : String)
  | placeholder (argument : Reference) (directive : Option String) (source : String)
  | plural (argument : Reference) (branches : List (Branch β)) (source : String)
  | quantity
deriving DecidableEq

/-- A sequence of nodes with the sequences nested in it. -/
inductive Tree where
  | sequence (nodes : List (Node Tree))

namespace Node

variable {β : Type}

/-- Literal text. -/
def isLiteral : Node β → Bool
  | .literal _ => true
  | _ => false

/-- The argument that a node refers to. -/
def reference? : Node β → Option Reference
  | .placeholder r _ _ => some r
  | .plural r _ _ => some r
  | _ => none

end Node

namespace Tree

/-- The nodes of a sequence. -/
def nodes : Tree → List (Node Tree)
  | .sequence ns => ns

/-- A node in front of others; text in front of text is one literal. -/
def consMerged (x : Node Tree) (ns : List (Node Tree)) : List (Node Tree) :=
  match x, ns with
  | .literal a, .literal b :: ns => .literal (a ++ b) :: ns
  | x, ns => x :: ns

/-- The sequence of a row of nodes, adjacent literals made one. -/
def merged (ns : List (Node Tree)) : Tree := .sequence (ns.foldr consMerged [])

end Tree

/-! ## choosing a branch -/

namespace Branch

variable {β : Type}

/-- The first branch with a condition. -/
def find? (branches : List (Branch β)) (s : Selector) : Option (Branch β) :=
  branches.find? fun b => b.selector == s

/-- Whether there is a branch for the category `other`. -/
def hasOther (branches : List (Branch β)) : Bool :=
  branches.any fun b => b.selector == .category .other

/-- The plural category of a value in a locale; `other` if it has no quantity. -/
def categoryOf (v : Value) (l : Locale) : Plural.Category :=
  match v.quantity? with
  | some d => Plural.decimalCategory l d
  | none => .other

/-- The branch for a value: the first whose exact number it is, else the first of
its category, else the first for `other`. -/
def select? (branches : List (Branch β)) (v : Value) (l : Locale) : Option (Branch β) :=
  let exact := v.exactInteger?.bind fun n => find? branches (.exact n)
  exact.or ((find? branches (.category (categoryOf v l))).or (find? branches (.category .other)))

end Branch

end Phrasebook
