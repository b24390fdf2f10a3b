import Phrasebook.Bundle

/-!
# Phrasebook.Catalog

The bundles of all locales.

A load makes a new bundle with a new version, greater than all before it; a
version is used up by every bundle that is staged, also when the load then
fails.  Loading several bundles publishes all of them or none: they are staged
one after the other, so a locale listed twice is merged with itself.

A `Snapshot` is what readers look at; a catalog can go on while a snapshot is
kept.
-/

namespace Phrasebook

/-- How a load treats the keys a locale already has. -/
inductive LoadMode where
  /-- They are dropped. -/
  | replaceAll
  /-- They stay unless they are loaded anew. -/
  | merge
deriving DecidableEq

/-- The bundles by locale tag. -/
structure Snapshot where
  bundles : Std.TreeMap String Bundle

namespace Snapshot

/-- No bundles. -/
def empty : Snapshot := ⟨∅⟩

/-- The bundle of a locale. -/
def bundle? (s : Snapshot) (l : Locale) : Option Bundle := s.bundles[l.tag]?

/-- The snapshot in which a locale has the given bundle. -/
def insert (s : Snapshot) (l : Locale) (b : Bundle) : Snapshot := ⟨s.bundles.insert l.tag b⟩

/-- The snapshot without a locale. -/
def erase (s : Snapshot) (l : Locale) : Snapshot := ⟨s.bundles.erase l.tag⟩

/-- The first locale of a chain that has a key, with the raw template. -/
def lookup? (s : Snapshot) (chain : List Locale) (key : String) : Option (Bundle × String) :=
  chain.findSome? fun l => do
    let b ← s.bundle? l
    let raw ← b.get? key
    return (b, raw)

/-- The bundles of the locales of a chain. -/
def bundlesOf (s : Snapshot) (chain : List Locale) : List Bundle := chain.filterMap s.bundle?

/-- The keys that the locales of a chain have, ascending, each once. -/
def keysOf (s : Snapshot) (chain : List Locale) : List String :=
  (Std.TreeSet.ofList ((s.bundlesOf chain).flatMap Bundle.keys)).toList

/-- The loaded locales, in ascending order of their tags. -/
def locales (s : Snapshot) : List Locale := s.bundles.values.map Bundle.locale

end Snapshot

/-- The current snapshot, and the version of the next bundle. -/
structure Catalog where
  snapshot : Snapshot
  nextVersion : UInt64

namespace Catalog

/-- A catalog without bundles. -/
def empty : Catalog := ⟨.empty, 1⟩

/-- What a locale has after a load. -/
def merged (s : Snapshot) (l : Locale) (entries : Entries) (mode : LoadMode) : Entries :=
  match mode, s.bundle? l with
  | .merge, some b => b.entries.overlay entries
  | _, _ => entries

/-- Stages a bundle: the version it uses up, and the snapshot with the bundle. -/
def stage (s : Snapshot) (version : UInt64) (l : Locale) (entries : Entries) (mode : LoadMode) :
    Except LoadError Snapshot :=
  (Bundle.make l version (merged s l entries mode)).map (s.insert l)

/-- Loads the templates of a locale; the result is the version of its bundle. -/
def load (c : Catalog) (l : Locale) (entries : Entries) (mode : LoadMode) :
    Except LoadError UInt64 × Catalog :=
  match stage c.snapshot c.nextVersion l entries mode with
  | .ok s => (.ok c.nextVersion, ⟨s, c.nextVersion + 1⟩)
  | .error e => (.error e, { c with nextVersion := c.nextVersion + 1 })

/-- Stages bundles one after the other: the versions used, the snapshot reached or
the first error, and the next version. -/
def stageAll (s : Snapshot) (next : UInt64) (mode : LoadMode) :
    List (Locale × Entries) → Except LoadError (List UInt64 × Snapshot) × UInt64
  | [] => (.ok ([], s), next)
  | (l, entries) :: rest =>
    match stage s next l entries mode with
    | .error e => (.error e, next + 1)
    | .ok s =>
      match stageAll s (next + 1) mode rest with
      | (.ok (versions, s), last) => (.ok (next :: versions, s), last)
      | (.error e, last) => (.error e, last)

/-- Loads several bundles at once; the result is their versions in order. -/
def loadMany (c : Catalog) (loads : List (Locale × Entries)) (mode : LoadMode) :
    Except LoadError (List UInt64) × Catalog :=
  match stageAll c.snapshot c.nextVersion mode loads with
  | (.ok (versions, s), next) => (.ok versions, ⟨s, next⟩)
  | (.error e, next) => (.error e, { c with nextVersion := next })

/-- Removes a locale; the result tells whether it was loaded. -/
def remove (c : Catalog) (l : Locale) : Bool × Catalog :=
  if (c.snapshot.bundle? l).isSome then (true, { c with snapshot := c.snapshot.erase l })
  else (false, c)

/-- Removes every locale. -/
def clear (c : Catalog) : Catalog := { c with snapshot := .empty }

end Catalog

end Phrasebook
