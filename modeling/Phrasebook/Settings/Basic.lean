import Phrasebook.Policy

/-!
# Phrasebook.Settings.Basic

What an engine is set up with: the default locale, at which every fallback chain
ends; the locale that is formatted in unless another is named; and the policies
for what is missing.

Settings are written as JSON: an object with the four fields, a policy being an
object that names its kind and, for a marker, the text.
-/

namespace Phrasebook

/-- The settings of an engine. -/
structure Settings where
  defaultLocale : Locale
  locale : Option Locale
  missingKey : MissingKeyPolicy
  missingArgument : MissingArgumentPolicy
deriving DecidableEq

/-- The policy for a missing argument as a JSON value. -/
def MissingArgumentPolicy.toJson : MissingArgumentPolicy → Json
  | .leave => .object [("kind", .string "leave_delimiters")]
  | .marker text => .object [("kind", .string "marker"), ("text", .string text)]
  | .error => .object [("kind", .string "error")]

/-- The policy for a missing key as a JSON value. -/
def MissingKeyPolicy.toJson : MissingKeyPolicy → Json
  | .returnKey => .object [("kind", .string "return_key")]
  | .marker text => .object [("kind", .string "marker"), ("text", .string text)]
  | .error => .object [("kind", .string "error")]

namespace Settings

/-- The settings with a default locale and nothing else chosen: a missing key is
its own message, and a missing argument leaves its placeholder. -/
def ofDefault (l : Locale) : Settings := ⟨l, none, .returnKey, .leave⟩

/-- The locale to format in. -/
def activeLocale (s : Settings) : Locale := s.locale.getD s.defaultLocale

/-- Settings as a JSON value. -/
def toJson (s : Settings) : Json :=
  .object
    [("default_locale", .string s.defaultLocale.tag),
     ("locale", (s.locale.map fun l => Json.string l.tag).getD .null),
     ("missing_key_policy", s.missingKey.toJson),
     ("missing_placeholder_policy", s.missingArgument.toJson)]

end Settings

end Phrasebook
