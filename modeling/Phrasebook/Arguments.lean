import Phrasebook.Message
import Std.Data.TreeMap

/-!
# Phrasebook.Arguments

What a template may refer to: arguments by name and by position.
-/

namespace Phrasebook

/-- A reference to an argument. -/
inductive Reference where
  | name (s : String)
  | index (i : UInt64)
deriving DecidableEq

/-- The text of a reference: the name, or the position in digits. -/
def Reference.render : Reference → String
  | .name s => s
  | .index i => Number.render i.toNat

/-- Arguments by name and by position. -/
structure Arguments where
  named : Std.TreeMap String Value
  positional : List Value

namespace Arguments

/-- No arguments. -/
def empty : Arguments := ⟨∅, []⟩

instance : Inhabited Arguments := ⟨empty⟩

/-- Arguments by position only. -/
def ofPositional (values : List Value) : Arguments := ⟨∅, values⟩

/-- Arguments by name only; of two values for one name the later stays. -/
def ofNamed (entries : List (String × Value)) : Arguments :=
  ⟨entries.foldl (fun m e => m.insert e.1 e.2) ∅, []⟩

/-- One more argument by name, in place of an earlier one of that name. -/
def insert (a : Arguments) (name : String) (v : Value) : Arguments :=
  { a with named := a.named.insert name v }

/-- One more argument by position. -/
def push (a : Arguments) (v : Value) : Arguments := { a with positional := a.positional ++ [v] }

/-- The argument of a name. -/
def named? (a : Arguments) (name : String) : Option Value := a.named[name]?

/-- The argument that a reference means. -/
def get? (a : Arguments) : Reference → Option Value
  | .name s => a.named? s
  | .index i => a.positional[i.toNat]?

/-- There are no arguments. -/
def isEmpty (a : Arguments) : Bool := a.named.isEmpty && a.positional.isEmpty

end Arguments

end Phrasebook
