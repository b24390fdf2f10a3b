import Phrasebook.Locale.Basic
import Phrasebook.MessageId

/-!
# Phrasebook.Policy

What happens when a message or an argument is missing: the policies that a
configuration chooses from, and the errors that they may ask for.

A marker is a text with marks in braces.  The marks of a missing key are
substituted one after the other, first `key` and then `locale`.
-/

namespace Phrasebook

/-- A failed resolution, where a policy asks for one. -/
inductive ResolveError where
  | missingKey (key locale : String) (suggestions : List String)
  | missingId (id : MessageId) (locale : String)
  | missingArgument (key argument : String)
deriving DecidableEq

/-- The closing remark of an error that has suggestions. -/
def ResolveError.remark (suggestions : List String) : String :=
  if suggestions.isEmpty then "" else " (did you mean: " ++ ", ".intercalate suggestions ++ "?)"

/-- The wording of an error. -/
def ResolveError.message : ResolveError → String
  | .missingKey key locale suggestions =>
    "message '" ++ key ++ "' not found for '" ++ locale ++ "'" ++ remark suggestions
  | .missingId id locale => "message id " ++ id.hex ++ " not found for '" ++ locale ++ "'"
  | .missingArgument key argument =>
    "message '" ++ key ++ "' references missing argument '" ++ argument ++ "'"

/-- What to answer for a key that no locale of the chain has. -/
inductive MissingKeyPolicy where
  /-- The key itself. -/
  | returnKey
  /-- A text with marks for the key and the locale. -/
  | marker (text : String)
  | error
deriving DecidableEq

/-- What to write for an argument that was not given. -/
inductive MissingArgumentPolicy where
  /-- The placeholder as written. -/
  | leave
  /-- A text with a mark for the name. -/
  | marker (text : String)
  | error
deriving DecidableEq

/-- A marker for a missing key. -/
def MissingKeyPolicy.markerText (marker key : String) (l : Locale) : String :=
  Text.replaceAll "\x7blocale\x7d" l.tag (Text.replaceAll "\x7bkey\x7d" key marker)

/-- A marker for a missing argument. -/
def MissingArgumentPolicy.markerText (marker name : String) : String :=
  Text.replaceAll "\x7bname\x7d" name marker

/-- The answer of the policy for a missing key that is neither returned as an
error. -/
def MissingKeyPolicy.substitute? (p : MissingKeyPolicy) (key : String) (l : Locale) :
    Option String :=
  match p with
  | .returnKey => some key
  | .marker text => some (markerText text key l)
  | .error => none

end Phrasebook
