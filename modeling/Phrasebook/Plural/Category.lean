/-!
# Phrasebook.Plural.Category

The six plural categories and their keywords.
-/

namespace Phrasebook.Plural

/-- A plural category.  Every plural choice should have a branch for `other`. -/
inductive Category where
  | zero
  | one
  | two
  | few
  | many
  | other
deriving DecidableEq, Repr

namespace Category

/-- All categories, in their usual order. -/
def all : List Category := [.zero, .one, .two, .few, .many, .other]

/-- The keyword of a category. -/
def keyword : Category → String
  | .zero => "zero"
  | .one => "one"
  | .two => "two"
  | .few => "few"
  | .many => "many"
  | .other => "other"

/-- The category of a keyword. -/
def ofKeyword? (keyword : String) : Option Category :=
  all.find? fun c => c.keyword == keyword

/-- The place of a category in the usual order. -/
def index (c : Category) : Nat := all.idxOf c

@[simp] theorem ofKeyword?_keyword (c : Category) : ofKeyword? c.keyword = some c := by
  cases c <;> decide

end Category

/-- A keyword that names no category. -/
inductive CategoryError where
  | unknown (keyword : String)
deriving DecidableEq, Repr

/-- The wording of the error. -/
def CategoryError.message : CategoryError → String
  | .unknown keyword => "unknown plural category '" ++ keyword ++ "'"

/-- The category of a keyword, or the error that names it. -/
def Category.parse (keyword : String) : Except CategoryError Category :=
  match ofKeyword? keyword with
  | some c => .ok c
  | none => .error (.unknown keyword)

end Phrasebook.Plural
