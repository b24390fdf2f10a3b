import Phrasebook.Locale.Basic
import Phrasebook.MessageId
import Phrasebook.Json.Fault
import Phrasebook.Template.Layout

/-!
# Phrasebook.Bundle

The raw templates of one locale, with an index from message identifiers to keys.

A bundle can only be made of keys with distinct identifiers.  Keys are indexed in
ascending order; the first whose identifier is already in use is reported
together with the smaller key that uses it.
-/

namespace Phrasebook

/-- Raw templates by key. -/
abbrev Entries := Std.TreeMap String String

/-- Entries of which the later wins for a key. -/
def Entries.ofList (entries : List (String × String)) : Entries :=
  entries.foldl (fun m e => m.insert e.1 e.2) ∅

/-- Entries laid over others. -/
def Entries.overlay (below above : Entries) : Entries :=
  above.foldl (fun m key raw => m.insert key raw) below

/-! ## why a load fails -/

/-- Why templates are not loaded. -/
inductive LoadError where
  | io (path : String) (reason : String)
  | json (path : String) (fault : Json.Fault)
  | notAnObject (path : String)
  | invalidTemplate (locale key : String) (error : Template.Error)
  | emptyKey (locale : String)
  | idCollision (locale first second : String)
  | locale (error : Locale.Error)
deriving DecidableEq

/-- The wording of an error. -/
def LoadError.message : LoadError → String
  | .io path reason => "failed to read '" ++ path ++ "': " ++ reason
  | .json path fault => path ++ ": invalid JSON: " ++ fault.message
  | .notAnObject path => path ++ ": expected a JSON object at the top level"
  | .invalidTemplate tag key error =>
    "invalid template '" ++ key ++ "' in '" ++ tag ++ "': " ++ error.message
  | .emptyKey tag => "empty message key in '" ++ tag ++ "'"
  | .idCollision tag first second =>
    "message id collision in '" ++ tag ++ "': '" ++ first ++ "' and '" ++ second ++ "'"
  | .locale error => error.message

/-! ## bundles -/

/-- The templates of a locale before they are loaded. -/
structure BundleSource where
  locale : Locale
  entries : Entries

/-- The templates of a locale as loaded. -/
structure Bundle where
  locale : Locale
  version : UInt64
  entries : Entries
  ids : Std.TreeMap UInt64 String

namespace Bundle

/-- Keys by identifier, on top of those indexed already.  Two keys of one
identifier are an error. -/
def index (ids : Std.TreeMap UInt64 String) :
    List String → Except (String × String) (Std.TreeMap UInt64 String)
  | [] => .ok ids
  | key :: keys =>
    let id := (MessageId.ofKey key).hash
    match ids[id]? with
    | some earlier =>
      if earlier ≠ key then .error (earlier, key) else index (ids.insert id key) keys
    | none => index (ids.insert id key) keys

/-- The bundle of entries. -/
def make (locale : Locale) (version : UInt64) (entries : Entries) : Except LoadError Bundle :=
  match index ∅ entries.keys with
  | .ok ids => .ok ⟨locale, version, entries, ids⟩
  | .error (first, second) => .error (.idCollision locale.tag first second)

/-- The raw template of a key. -/
def get? (b : Bundle) (key : String) : Option String := b.entries[key]?

/-- Whether there is a template for a key. -/
def contains (b : Bundle) (key : String) : Bool := b.entries.contains key

/-- The key of an identifier. -/
def keyForId? (b : Bundle) (id : MessageId) : Option String := b.ids[id.hash]?

/-- All keys, ascending. -/
def keys (b : Bundle) : List String := b.entries.keys

/-- The number of templates. -/
def size (b : Bundle) : Nat := b.entries.size

/-- There are no templates. -/
def isEmpty (b : Bundle) : Bool := b.entries.isEmpty

end Bundle

end Phrasebook
