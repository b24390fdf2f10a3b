import Phrasebook.Bundle

/-!
# Phrasebook.Comparison

A target locale beside its source.

Findings come in two passes: over the keys of the target, those the source
does not have and those whose templates refer to other arguments; then over the
keys of the source, those that are not translated.  Each pass is in ascending
order of the keys.
-/

namespace Phrasebook

/-- A finding about a target. -/
inductive Finding where
  /-- The source does not have the key. -/
  | unknownKey (key locale : String)
  /-- The two templates refer to different arguments. -/
  | argumentMismatch (key locale : String) (source target : List String)
  /-- The target does not have the key. -/
  | untranslated (key locale : String)
deriving DecidableEq, Repr

/-- The wording of a finding. -/
def Finding.message : Finding → String
  | .unknownKey key tag => "'" ++ key ++ "' in '" ++ tag ++ "' does not exist in the source"
  | .argumentMismatch key tag source target =>
    "'" ++ key ++ "' in '" ++ tag ++ "' uses arguments [" ++ ", ".intercalate target ++
      "], source uses [" ++ ", ".intercalate source ++ "]"
  | .untranslated key tag => "'" ++ key ++ "' is not translated in '" ++ tag ++ "'"

namespace Bundle

/-- The finding about a template of the target. -/
def finding? (source target : Bundle) (key raw : String) : Option Finding :=
  let tag := target.locale.tag
  match source.get? key with
  | none => some (.unknownKey key tag)
  | some sourceRaw =>
    let expected := (Template.parse sourceRaw).arguments
    let used := (Template.parse raw).arguments
    if expected = used then none else some (.argumentMismatch key tag expected used)

/-- What is to be said about a target beside its source. -/
def compare (source target : Bundle) : List Finding :=
  target.entries.toList.filterMap (fun e => finding? source target e.1 e.2) ++
    (source.keys.filter fun key => !target.contains key).map fun key =>
      .untranslated key target.locale.tag

end Bundle

end Phrasebook
