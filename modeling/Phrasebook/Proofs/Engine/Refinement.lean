import Phrasebook.Proofs.Engine.Coherence
import Phrasebook.Proofs.Engine.Refusal

/-!
# Phrasebook.Proofs.Engine.Refinement

What an engine remembers is not seen in its answers.

The reference is an engine that remembers nothing (`PlainEngine`): it has the raw
templates of every locale and parses the one it needs anew for every request; its
chains are computed anew, and there are no bundles and no versions.  A load is refused by
what there is against it in the texts (`Refuses`), not by the checks of an engine, and puts
what it is given otherwise.

The proof has two halves.  Forgetting what an engine remembers (`view`) turns every
operation into that of the plain engine (`view_perform`), since the loads that fail are those
that are refused.  In a coherent engine, and so after every run, a request is answered as
by the view (`Coherent.resolve_eq`).
-/

namespace Phrasebook

/-! ## the reference -/

/-- An engine that remembers nothing. -/
structure PlainEngine where
  settings : Settings
  contents : Contents
  default : Locale
  active : Locale

namespace PlainEngine

/-- A new engine without templates. -/
def new (s : Settings) : PlainEngine :=
  { settings := s
    contents := fun _ => none
    default := s.defaultLocale
    active := s.activeLocale }

/-- The engine after an operation that is not refused.  A load puts all that it is given, of two
templates for one key the later; queries change nothing. -/
def apply (e : PlainEngine) : Engine.Operation → PlainEngine
  | .load l entries mode => { e with contents := e.contents.put mode (l, .ofList entries) }
  | .loadFrom (.ok bundles) mode =>
    { e with
      contents := bundles.foldl
        (fun c b => c.put mode (b.locale, .ofList b.entries.toList)) e.contents }
  | .loadFrom (.error _) _ => e
  | .unload l => { e with contents := Function.update e.contents l none }
  | .setDefault l => { e with default := l }
  | .setActive l => { e with active := l }
  | .query _ => e

open Classical in
/-- The engine after an operation; one that is refused changes nothing. -/
noncomputable def perform (e : PlainEngine) (op : Engine.Operation) : PlainEngine :=
  if Engine.Refuses e.contents.texts op then e else e.apply op

/-- The engine after one operation after the other. -/
noncomputable def run (e : PlainEngine) (ops : List Engine.Operation) : PlainEngine :=
  ops.foldl perform e

/-- Resolves a key for a locale: the first locale of the fallback chain that has the
key supplies the raw template and the plural rules. -/
def resolve (e : PlainEngine) (key : String) (l : Locale) (args : Arguments) :
    Except ResolveError Message :=
  let chain := l.fallbackChain e.default
  match e.contents.lookup? chain key with
  | some (winner, raw) =>
    ((Template.parse raw).evaluate (.fresh key winner args e.settings.missingArgument)).1
  | none =>
    match e.settings.missingKey.substitute? key l with
    | some text => .ok (.ofText text)
    | none =>
      .error (.missingKey key l.tag (Suggestion.suggest key (e.contents.keysOf chain)))

end PlainEngine

namespace Engine

/-! ## forgetting -/

/-- An engine without what it remembers. -/
def view (e : Engine) : PlainEngine :=
  { settings := e.settings
    contents := e.catalog.snapshot.contents
    default := e.default
    active := e.active }

theorem view_new (s : Settings) : (new s).view = .new s := by
  rw [view, PlainEngine.new, new, Catalog.empty, Snapshot.contents_empty]

theorem view_ask (e : Engine) (q : Query) : (e.ask q).view = e.view := by
  rw [ask_frame]
  rfl

/-- An engine with other versions to come looks the same. -/
theorem view_of_nextVersion (e : Engine) (n : UInt64) :
    view { e with catalog := { e.catalog with nextVersion := n } } = e.view := rfl

theorem view_load {e : Engine} {l : Locale} {entries : List (String × String)} {mode : LoadMode}
    (h : ¬ e.Fails (.load l entries mode)) :
    (e.load l entries mode).2.view = e.view.apply (.load l entries mode) := by
  rcases hl : e.load l entries mode with ⟨err | n, e'⟩
  · exact absurd ⟨err, congrArg Prod.fst hl⟩ h
  · have hc := contents_of_load_eq_ok hl
    obtain ⟨version, catalog, -, -, rfl⟩ := load_eq_ok hl
    exact congrArg (fun contents => { e.view with contents }) hc

theorem view_loadFrom {e : Engine} {loaded : Except LoadError (List BundleSource)}
    {mode : LoadMode} (h : ¬ e.Fails (.loadFrom loaded mode)) :
    (e.loadFrom loaded mode).2.view = e.view.apply (.loadFrom loaded mode) := by
  cases loaded with
  | error err => exact absurd ⟨err, rfl⟩ h
  | ok bundles =>
    rcases hl : e.loadFrom (.ok bundles) mode with ⟨err | n, e'⟩
    · exact absurd ⟨err, congrArg Prod.fst hl⟩ h
    · have hc := contents_of_loadFrom_eq_ok hl
      obtain ⟨_, versions, catalog, -, -, -, rfl⟩ := loadFrom_eq_ok hl
      exact congrArg (fun contents => { e.view with contents }) hc

theorem view_unload (e : Engine) (l : Locale) :
    (e.unload l).2.view = { e.view with contents := Function.update e.view.contents l none } := by
  unfold unload Catalog.remove
  by_cases hl : (e.catalog.snapshot.bundle? l).isSome
  · rw [if_pos hl]
    dsimp only [view, invalidate]
    rw [Snapshot.contents_erase]
  · have hn : e.catalog.snapshot.contents l = none := by
      rw [Snapshot.contents, Option.not_isSome_iff_eq_none.1 hl, Option.map_none]
    rw [if_neg hl]
    dsimp only [view]
    rw [← hn, Function.update_eq_self]

/-- Forgetting commutes with every operation that does not fail. -/
theorem view_perform_of_not_fails {e : Engine} {op : Operation} (h : ¬ e.Fails op) :
    (e.perform op).view = e.view.apply op := by
  cases op with
  | load l entries mode => exact view_load h
  | loadFrom loaded mode => exact view_loadFrom h
  | unload l => exact view_unload e l
  | setDefault l => rfl
  | setActive l => rfl
  | query q => exact view_ask e q

/-- Forgetting commutes with every operation: what fails is what is refused. -/
theorem view_perform (e : Engine) (op : Operation) : (e.perform op).view = e.view.perform op := by
  have hf : e.Fails op ↔ Refuses e.view.contents.texts op := fails_iff_refuses e op
  rw [PlainEngine.perform]
  split
  · next hr =>
    obtain ⟨n, hn⟩ := (hf.2 hr).perform_eq
    rw [hn, view_of_nextVersion]
  · next hr => exact view_perform_of_not_fails (mt hf.1 hr)

theorem view_run (e : Engine) (ops : List Operation) : (e.run ops).view = e.view.run ops := by
  induction ops generalizing e with
  | nil => rfl
  | cons op ops ih =>
    calc ((e.perform op).run ops).view
        = (e.perform op).view.run ops := ih (e.perform op)
      _ = (e.view.perform op).run ops := by rw [view_perform]

/-! ## answers -/

/-- A coherent engine answers a request in a chain as its view does. -/
theorem Coherent.resolveIn_eq {e : Engine} (he : e.Coherent) (key : String) (l : Locale)
    (args : Arguments) :
    (e.resolveIn (l.fallbackChain e.default) key l args).1 = e.view.resolve key l args := by
  have hc := he.sound.lookup?_contents (l.fallbackChain e.default) key
  have hk := e.catalog.snapshot.keysOf_contents (l.fallbackChain e.default)
  unfold resolveIn PlainEngine.resolve
  dsimp only [view]
  rw [hc, hk]
  cases hl : e.catalog.snapshot.lookup? (l.fallbackChain e.default) key with
  | none => rfl
  | some r =>
    obtain ⟨b, raw⟩ := r
    obtain ⟨l', -, hb, hr⟩ := Snapshot.bundle?_of_lookup? hl
    exact he.render_fst hb hr args

theorem Coherent.resolve_eq {e : Engine} (he : e.Coherent) (key : String) (l : Locale)
    (args : Arguments) : (e.resolve key l args).1 = e.view.resolve key l args := by
  have hf := chain_frame e l
  have hv : (e.chain l).2.view = e.view := by rw [hf]; rfl
  have hd : (e.chain l).2.default = e.default := by rw [hf]
  rw [resolve]
  dsimp only
  rw [he.chain_eq l, ← hv, ← (he.chain l).resolveIn_eq key l args, hd]

/-- After every run of a new engine, failed loads included, every request is answered as
by the engine that remembers nothing after the same run. -/
theorem resolve_run_eq_plain (s : Settings) (ops : List Operation) (key : String) (l : Locale)
    (args : Arguments) :
    (((new s).run ops).resolve key l args).1 =
      ((PlainEngine.new s).run ops).resolve key l args := by
  rw [(coherent_run s ops).resolve_eq key l args, view_run, view_new]

end Engine

end Phrasebook
