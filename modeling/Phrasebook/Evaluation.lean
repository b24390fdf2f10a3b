import Phrasebook.Policy
import Phrasebook.Template.Layout

/-!
# Phrasebook.Evaluation

Evaluating a template to a message.

Literals are copied.  A placeholder sets in the value of its argument, with its
directive.  A plural choice selects a branch by the value of its argument and
binds `#` to that value while the branch is evaluated.  An argument that was not
given is treated by the policy, the branches of its choice included.

The context is handed from node to node, also past an error: it holds the bound
quantities, innermost first, and the names of the missing arguments in the order
in which they were met, each once.
-/

namespace Phrasebook

/-- What an evaluation reads and records. -/
structure Context where
  key : String
  locale : Locale
  arguments : Arguments
  policy : MissingArgumentPolicy
  quantities : List Value
  missing : List String

namespace Context

/-- A context in which nothing is bound and nothing missed. -/
def fresh (key : String) (locale : Locale) (arguments : Arguments)
    (policy : MissingArgumentPolicy) : Context :=
  ⟨key, locale, arguments, policy, [], []⟩

/-- Binds a quantity inside those already bound. -/
def bindQuantity (c : Context) (v : Value) : Context := { c with quantities := v :: c.quantities }

/-- Releases the innermost quantity. -/
def releaseQuantity (c : Context) : Context := { c with quantities := c.quantities.tail }

/-- The innermost quantity. -/
def quantity? (c : Context) : Option Value := c.quantities.head?

/-- Records a missing argument. -/
def addMissing (c : Context) (name : String) : Context :=
  if name ∈ c.missing then c else { c with missing := c.missing ++ [name] }

end Context

namespace Template

/-- The outcome of evaluating into a message, and the context afterwards. -/
abbrev Outcome := Except ResolveError Message × Context

/-- Continues a message where an argument was not given. -/
def evalMissing (r : Reference) (source : String) (c : Context) (out : Message) : Outcome :=
  let name := r.render
  match c.policy with
  | .leave => (.ok (out.pushText source), c.addMissing name)
  | .marker text =>
    (.ok (out.pushText (MissingArgumentPolicy.markerText text name)), c.addMissing name)
  | .error => (.error (.missingArgument c.key name), c)

/-- Continues a message with a placeholder. -/
def evalPlaceholder (r : Reference) (directive : Option String) (source : String) (c : Context)
    (out : Message) : Outcome :=
  match c.arguments.get? r with
  | some v => (.ok (out.pushValue v directive), c)
  | none => evalMissing r source c out

/-- Continues a message with the quantity of the innermost choice. -/
def evalQuantity (c : Context) (out : Message) : Outcome :=
  match c.quantity? with
  | some v => (.ok (out.pushValue v none), c)
  | none => (.ok (out.pushText "#"), c)

/-- Continues a message with a sequence; `below` evaluates the bodies in it. -/
def evalNodes (below : Nat → Context → Message → Outcome) (ns : List (Node Nat)) (c : Context)
    (out : Message) : Outcome :=
  match ns with
  | [] => (.ok out, c)
  | n :: rest =>
    let step : Outcome :=
      match n with
      | .literal s => (.ok (out.pushText s), c)
      | .placeholder r directive source => evalPlaceholder r directive source c out
      | .quantity => evalQuantity c out
      | .plural r branches source =>
        match c.arguments.get? r with
        | none => evalMissing r source c out
        | some v =>
          match Branch.select? branches v c.locale with
          | none => (.ok out, c)
          | some b =>
            let (result, c) := below b.body (c.bindQuantity v) out
            (result, c.releaseQuantity)
    match step with
    | (.ok out, c) => evalNodes below rest c out
    | (.error e, c) => (.error e, c)

/-- Continues a message with a sequence by number.  Bodies have smaller numbers; a
body that had not would add nothing. -/
def evalSequence (t : Template) (id : Nat) (c : Context) (out : Message) : Outcome :=
  evalNodes
    (fun body c out => if _h : body < id then evalSequence t body c out else (.ok out, c))
    (t.sequence id) c out
termination_by id

/-- Evaluates a template. -/
def evaluate (t : Template) (c : Context) : Outcome := t.evalSequence t.root c .empty

end Template

end Phrasebook
