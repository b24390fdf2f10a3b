import Phrasebook.Engine.Basic

/-!
# Phrasebook.Engine.Loading

Loading templates into an engine and removing them.

Templates are checked before anything is published: no key is empty, and every
plural choice has a branch for `other`.  A load that fails leaves what readers
can see as it was.  A load that succeeds drops the cached templates of its
locales and no others.
-/

namespace Phrasebook.Engine

/-- The entries to load, each checked before the next; of two for one key the later
stays. -/
def checkedFrom (l : Locale) (checked : Entries) :
    List (String × String) → Except LoadError Entries
  | [] => .ok checked
  | (key, raw) :: rest =>
    if key = "" then .error (.emptyKey l.tag)
    else
      match (Template.parse raw).error? with
      | some e => .error (.invalidTemplate l.tag key e)
      | none => checkedFrom l (checked.insert key raw) rest

/-- The entries to load, or the first error among them. -/
def checked (l : Locale) (entries : List (String × String)) : Except LoadError Entries :=
  checkedFrom l ∅ entries

/-- The engine without cached templates of the given locales. -/
def invalidate (e : Engine) (ls : List Locale) : Engine :=
  { e with cache := ls.foldl TemplateCache.invalidate e.cache }

/-- Loads templates of a locale; the result is their number. -/
def load (e : Engine) (l : Locale) (entries : List (String × String)) (mode : LoadMode) :
    Except LoadError Nat × Engine :=
  match checked l entries with
  | .error err => (.error err, e)
  | .ok entries =>
    match e.catalog.load l entries mode with
    | (.error err, catalog) => (.error err, { e with catalog })
    | (.ok _, catalog) => (.ok entries.size, { e with catalog }.invalidate [l])

/-- The bundles to load, or the first error among them. -/
def checkedAll (bundles : List BundleSource) : Except LoadError (List (Locale × Entries)) :=
  bundles.mapM fun b => (checked b.locale b.entries.toList).map fun entries => (b.locale, entries)

/-- Loads the bundles that a loader produced, all or none; the result is the number
of their templates. -/
def loadFrom (e : Engine) (loaded : Except LoadError (List BundleSource)) (mode : LoadMode) :
    Except LoadError Nat × Engine :=
  match loaded.bind checkedAll with
  | .error err => (.error err, e)
  | .ok loads =>
    match e.catalog.loadMany loads mode with
    | (.error err, catalog) => (.error err, { e with catalog })
    | (.ok _, catalog) =>
      (.ok (loads.foldl (fun n x => n + x.2.size) 0),
        { e with catalog }.invalidate (loads.map Prod.fst))

/-- Removes the templates of a locale; the result tells whether there were any. -/
def unload (e : Engine) (l : Locale) : Bool × Engine :=
  match e.catalog.remove l with
  | (true, catalog) => (true, { e with catalog }.invalidate [l])
  | (false, catalog) => (false, { e with catalog })

end Phrasebook.Engine
