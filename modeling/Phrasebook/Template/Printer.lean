import Phrasebook.Template.Layout

/-!
# Phrasebook.Template.Printer

Templates written back as text, in one normal form: characters that could be
taken for braces, marks or escapes are escaped, a directive follows a comma and
a blank, and each branch of a plural choice follows a blank.

The printer is given twice: for trees, and for the flat layout that a parsed
template has.
-/

namespace Phrasebook

open Template (Place)

/-- A character of literal text. -/
def Template.Place.escape (p : Place) (c : Char) : List Char :=
  if p.isText c then [c] else ['\\', c]

/-- A literal. -/
def Template.Place.printLiteral (p : Place) (s : String) : List Char := s.toList.flatMap p.escape

/-- A placeholder. -/
def Template.printPlaceholder (r : Reference) (directive : Option String) : List Char :=
  match directive with
  | some d => '{' :: (r.render.toList ++ ", ".toList ++ d.toList ++ ['}'])
  | none => '{' :: (r.render.toList ++ ['}'])

/-- The opening of a plural choice. -/
def Template.printPluralMark (r : Reference) : List Char :=
  '{' :: (r.render.toList ++ ", plural,".toList)

/-- A branch with the text of its body. -/
def Template.printBranch (s : Selector) (body : List Char) : List Char :=
  ' ' :: (s.render.toList ++ '{' :: (body ++ ['}']))

namespace Tree

mutual

/-- The text of a sequence. -/
def print (p : Place) : Tree → List Char
  | .sequence ns => printNodes p ns

/-- The text of a row of nodes. -/
def printNodes (p : Place) : List (Node Tree) → List Char
  | [] => []
  | .literal s :: rest => p.printLiteral s ++ printNodes p rest
  | .placeholder r d _ :: rest => Template.printPlaceholder r d ++ printNodes p rest
  | .quantity :: rest => '#' :: printNodes p rest
  | .plural r bs _ :: rest =>
    Template.printPluralMark r ++ printBranches bs ++ '}' :: printNodes p rest

/-- The text of branches. -/
def printBranches : List (Branch Tree) → List Char
  | [] => []
  | ⟨s, body⟩ :: rest => Template.printBranch s (body.print .branch) ++ printBranches rest

end

/-- The text of a template given as a tree. -/
def display (t : Tree) : String := String.ofList (t.print .top)

end Tree

namespace Template

/-- The text of branches whose bodies are printed by `body`. -/
def printBranches (body : Nat → List Char) : List (Branch Nat) → List Char
  | [] => []
  | b :: rest => printBranch b.selector (body b.body) ++ printBranches body rest

/-- The text of nodes; `body` prints the bodies of their branches. -/
def printNodes (body : Nat → List Char) (p : Place) : List (Node Nat) → List Char
  | [] => []
  | .literal s :: rest => p.printLiteral s ++ printNodes body p rest
  | .placeholder r d _ :: rest => printPlaceholder r d ++ printNodes body p rest
  | .quantity :: rest => '#' :: printNodes body p rest
  | .plural r bs _ :: rest =>
    printPluralMark r ++ printBranches body bs ++ '}' :: printNodes body p rest

/-- The text of a sequence by number.  Bodies have smaller numbers; a body that
had not would print as nothing. -/
def printSequence (t : Template) (p : Place) (id : Nat) : List Char :=
  printNodes (fun body => if _h : body < id then printSequence t .branch body else []) p
    (t.sequence id)
termination_by id

/-- The text of a template. -/
def display (t : Template) : String := String.ofList (t.printSequence .top t.root)

example : (parse "a \\\x7b \x7bn , x y \x7d").display = "a \\\x7b \x7bn, x y\x7d" := by
  decide +kernel

end Template

end Phrasebook
