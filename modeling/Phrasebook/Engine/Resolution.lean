import Phrasebook.Engine.Basic
import Phrasebook.Evaluation
import Phrasebook.Suggestion
import Phrasebook.Comparison

/-!
# Phrasebook.Engine.Resolution

Resolving messages.

The first locale of the fallback chain that has a key supplies its template, and
the plural rules of that locale apply.  Its parse comes from the cache.  For a key
that no locale of the chain has, the policy for missing keys answers.
-/

namespace Phrasebook.Engine

/-- The key under which an ad-hoc template is evaluated. -/
def adHocKey : String := "<template>"

/-- Evaluates a text as a template, with the plural rules of a locale. -/
def evaluate (e : Engine) (key raw : String) (l : Locale) (args : Arguments) :
    Except ResolveError Message :=
  ((Template.parse raw).evaluate (.fresh key l args e.settings.missingArgument)).1

/-- Evaluates a template of a bundle. -/
def render (e : Engine) (key : String) (b : Bundle) (raw : String) (args : Arguments) :
    Except ResolveError Message × Engine :=
  let (t, cache) := e.cache.getOrBuild b.locale key b.version raw
  ((t.evaluate (.fresh key b.locale args e.settings.missingArgument)).1, { e with cache })

/-- The answer for a key that no locale of a chain has. -/
def missing (e : Engine) (key : String) (l : Locale) (chain : List Locale) :
    Except ResolveError Message :=
  match e.settings.missingKey.substitute? key l with
  | some text => .ok (.ofText text)
  | none =>
    .error (.missingKey key l.tag (Suggestion.suggest key (e.catalog.snapshot.keysOf chain)))

/-- The answer for an identifier that no locale of a chain has. -/
def missingId (e : Engine) (id : MessageId) (l : Locale) : Except ResolveError Message :=
  match e.settings.missingKey.substitute? id.render l with
  | some text => .ok (.ofText text)
  | none => .error (.missingId id l.tag)

/-! ## messages -/

/-- Resolves a key in a chain. -/
def resolveIn (e : Engine) (chain : List Locale) (key : String) (l : Locale) (args : Arguments) :
    Except ResolveError Message × Engine :=
  match e.catalog.snapshot.lookup? chain key with
  | some (b, raw) => e.render key b raw args
  | none => (e.missing key l chain, e)

/-- Resolves a key for a locale. -/
def resolve (e : Engine) (key : String) (l : Locale) (args : Arguments) :
    Except ResolveError Message × Engine :=
  let (chain, e) := e.chain l
  e.resolveIn chain key l args

/-- Resolves a key for a locale; a fallback template stands in for a missing key. -/
def resolveOr (e : Engine) (key : String) (l : Locale) (args : Arguments) (fallback : String) :
    Except ResolveError Message × Engine :=
  let (chain, e) := e.chain l
  match e.catalog.snapshot.lookup? chain key with
  | some (b, raw) => e.render key b raw args
  | none => (e.evaluate key fallback l args, e)

/-- Resolves an identifier for a locale: the first locale of the chain that knows it
tells its key, which is then resolved as such. -/
def resolveId (e : Engine) (id : MessageId) (l : Locale) (args : Arguments) :
    Except ResolveError Message × Engine :=
  let (chain, e) := e.chain l
  match (e.catalog.snapshot.bundlesOf chain).findSome? (Bundle.keyForId? · id) with
  | some key => e.resolveIn chain key l args
  | none => (e.missingId id l, e)

/-- Resolves a key and cuts the message into lines. -/
def resolveLines (e : Engine) (key : String) (l : Locale) (args : Arguments) :
    Except ResolveError (List Message) × Engine :=
  let (result, e) := e.resolve key l args
  (result.map Message.splitLines, e)

/-- Resolves a key for the active locale. -/
def format (e : Engine) (key : String) (args : Arguments) : Except ResolveError Message × Engine :=
  e.resolve key e.active args

/-- Evaluates an ad-hoc template for a locale. -/
def evaluateText (e : Engine) (template : String) (l : Locale) (args : Arguments) :
    Except ResolveError Message :=
  e.evaluate adHocKey template l args

/-! ## what is there -/

/-- The keys that can be resolved for a locale, ascending. -/
def keys (e : Engine) (l : Locale) : List String × Engine :=
  let (chain, e) := e.chain l
  (e.catalog.snapshot.keysOf chain, e)

/-- Whether a key can be resolved for a locale. -/
def contains (e : Engine) (key : String) (l : Locale) : Bool × Engine :=
  let (chain, e) := e.chain l
  ((e.catalog.snapshot.lookup? chain key).isSome, e)

/-- What is to be said about a target beside its source locale; nothing unless both
are loaded. -/
def compare (e : Engine) (source target : Locale) : List Finding :=
  match e.catalog.snapshot.bundle? source, e.catalog.snapshot.bundle? target with
  | some s, some t => s.compare t
  | _, _ => []

end Phrasebook.Engine
