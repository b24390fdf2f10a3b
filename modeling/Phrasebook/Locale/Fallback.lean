import Phrasebook.Locale.Basic

/-!
# Phrasebook.Locale.Fallback

The locales in which a message is looked up, most specific first.

A request is relaxed one subtag at a time: without its region, without its
script, and down to the bare language.  The chain ends with the default locale;
where the default is one of the relaxations, it ends there.
-/

namespace Phrasebook.Locale

/-- A locale and its relaxations, most specific first, each once. -/
def relaxations (l : Locale) : List Locale :=
  let region := if l.region.isSome then [l.withoutRegion] else []
  let script := if l.script.isSome && l.region.isSome then [l.withoutScript] else []
  ([l] ++ region ++ script ++ [l.languageOnly]).eraseDups

/-- A list up to and including the first occurrence of an element, or the whole
list and the element if it does not occur. -/
def endingAt (last : Locale) : List Locale → List Locale
  | [] => [last]
  | l :: ls => if l = last then [l] else l :: endingAt last ls

/-- The locales to look in for a request, most specific first. -/
def fallbackChain (requested default : Locale) : List Locale :=
  endingAt default requested.relaxations

end Phrasebook.Locale
