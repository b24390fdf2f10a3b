import Phrasebook.Settings.Basic
import Phrasebook.Locale.Fallback
import Phrasebook.Catalog
import Phrasebook.TemplateCache

/-!
# Phrasebook.Engine.Basic

An engine: the settings it was made with, the catalog, the cache of parsed
templates, the current default locale, the locale to format in, and a memo of
fallback chains.

The memo answers for a locale as long as the chain it holds ends with the current
default locale.  A chain that it cannot answer is computed and, unless the memo
is full, kept.  A new default locale empties the memo.
-/

namespace Phrasebook

/-- The state of an engine. -/
structure Engine where
  settings : Settings
  catalog : Catalog
  cache : TemplateCache
  default : Locale
  chains : Std.TreeMap String (List Locale)
  active : Locale

namespace Engine

/-- A new engine without bundles. -/
def new (s : Settings) : Engine :=
  { settings := s
    catalog := .empty
    cache := .empty
    default := s.defaultLocale
    chains := ∅
    active := s.activeLocale }

/-! ## locales -/

/-- The engine with another default locale. -/
def setDefault (e : Engine) (l : Locale) : Engine := { e with default := l, chains := ∅ }

/-- The engine with another locale to format in. -/
def setActive (e : Engine) (l : Locale) : Engine := { e with active := l }

/-- The loaded locales, in ascending order of their tags. -/
def available (e : Engine) : List Locale := e.catalog.snapshot.locales

/-! ## fallback chains -/

/-- The most chains that the memo holds. -/
def maxChains : Nat := 256

/-- The chain that the memo answers for a locale. -/
def memoized? (e : Engine) (l : Locale) : Option (List Locale) :=
  e.chains[l.tag]?.filter fun chain => chain.getLast? == some e.default

/-- The engine with a chain in its memo, if there is room. -/
def memoize (e : Engine) (l : Locale) (chain : List Locale) : Engine :=
  if e.chains.size < maxChains ∨ e.chains.contains l.tag then
    { e with chains := e.chains.insert l.tag chain }
  else e

/-- The locales to look in for a request, most specific first. -/
def chain (e : Engine) (l : Locale) : List Locale × Engine :=
  match e.memoized? l with
  | some chain => (chain, e)
  | none =>
    let chain := l.fallbackChain e.default
    (chain, e.memoize l chain)

end Engine

end Phrasebook
