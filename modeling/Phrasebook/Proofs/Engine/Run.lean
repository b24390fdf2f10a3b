import Phrasebook.Engine.Loading
import Phrasebook.Engine.Resolution
import Phrasebook.Proofs.Catalog.Contents

/-!
# Phrasebook.Proofs.Engine.Run

Runs of an engine, and what one operation can do to its state.

Operations are loads, removals, changes of the two locales, and queries.  Queries
that look at no chain (`evaluateText`, `compare`, `available`) leave the engine as it
is and are no operations.

* A query computes or recalls one chain and renders at most one template of the
  snapshot (`touched_ask`), so it changes the memo and the cache at most
  (`ask_frame`).
* Both kinds of loading publish a list of checked loads (`load_eq_publish`,
  `loadFrom_eq_publish`); one that fails uses up versions at most, and one that
  succeeds stages all of the list (`publish_cases`).
-/

namespace Phrasebook.Engine

/-! ## operations -/

/-- A query that needs a fallback chain. -/
inductive Query where
  | resolve (key : String) (l : Locale) (args : Arguments)
  | resolveOr (key : String) (l : Locale) (args : Arguments) (fallback : String)
  | resolveId (id : MessageId) (l : Locale) (args : Arguments)
  | resolveLines (key : String) (l : Locale) (args : Arguments)
  | format (key : String) (args : Arguments)
  | chain (l : Locale)
  | keys (l : Locale)
  | contains (key : String) (l : Locale)

/-- The locale whose chain a query needs. -/
def Query.locale (q : Query) (e : Engine) : Locale :=
  match q with
  | .resolve _ l _ | .resolveOr _ l _ _ | .resolveId _ l _ | .resolveLines _ l _ => l
  | .chain l | .keys l | .contains _ l => l
  | .format _ _ => e.active

/-- The engine after a query. -/
def ask (e : Engine) : Query → Engine
  | .resolve key l args => (e.resolve key l args).2
  | .resolveOr key l args fallback => (e.resolveOr key l args fallback).2
  | .resolveId id l args => (e.resolveId id l args).2
  | .resolveLines key l args => (e.resolveLines key l args).2
  | .format key args => (e.format key args).2
  | .chain l => (e.chain l).2
  | .keys l => (e.keys l).2
  | .contains key l => (e.contains key l).2

/-- An operation that may change the state of an engine. -/
inductive Operation where
  | load (l : Locale) (entries : List (String × String)) (mode : LoadMode)
  | loadFrom (loaded : Except LoadError (List BundleSource)) (mode : LoadMode)
  | unload (l : Locale)
  | setDefault (l : Locale)
  | setActive (l : Locale)
  | query (q : Query)

/-- The engine after an operation. -/
def perform (e : Engine) : Operation → Engine
  | .load l entries mode => (e.load l entries mode).2
  | .loadFrom loaded mode => (e.loadFrom loaded mode).2
  | .unload l => (e.unload l).2
  | .setDefault l => e.setDefault l
  | .setActive l => e.setActive l
  | .query q => e.ask q

/-- The engine after one operation after the other. -/
def run (e : Engine) (ops : List Operation) : Engine := ops.foldl perform e

/-- What holds of an engine and is kept by every operation holds after every run. -/
theorem run_induction {P : Engine → Prop} (step : ∀ e op, P e → P (e.perform op)) {e : Engine}
    (he : P e) (ops : List Operation) : P (e.run ops) := by
  induction ops generalizing e with
  | nil => exact he
  | cons op ops ih => exact ih (step e op he)

theorem run_append (e : Engine) (before after : List Operation) :
    e.run (before ++ after) = (e.run before).run after :=
  List.foldl_append

theorem run_concat (e : Engine) (ops : List Operation) (op : Operation) :
    e.run (ops ++ [op]) = (e.run ops).perform op :=
  run_append e ops [op]

/-! ## queries -/

/-- What a query does after its chain is known: nothing, or a template of the snapshot
is rendered. -/
inductive Touched (e : Engine) : Engine → Prop where
  | same : Touched e e
  | rendered {l : Locale} {b : Bundle} {key raw : String} {args : Arguments}
      (hb : e.catalog.snapshot.bundle? l = some b) (hr : b.get? key = some raw) :
      Touched e (e.render key b raw args).2

theorem Touched.of_lookup? {e : Engine} {chain : List Locale} {key raw : String} {b : Bundle}
    (h : e.catalog.snapshot.lookup? chain key = some (b, raw)) (args : Arguments) :
    Touched e (e.render key b raw args).2 := by
  obtain ⟨l, -, hb, hr⟩ := Snapshot.bundle?_of_lookup? h
  exact .rendered hb hr

theorem touched_resolveIn (e : Engine) (chain : List Locale) (key : String) (l : Locale)
    (args : Arguments) : Touched e (e.resolveIn chain key l args).2 := by
  unfold resolveIn
  split
  · next h => exact .of_lookup? h args
  · exact .same

/-- A query computes or recalls its chain and renders at most one template. -/
theorem touched_ask (e : Engine) (q : Query) : Touched (e.chain (q.locale e)).2 (e.ask q) := by
  cases q with
  | resolve key l args => exact touched_resolveIn _ _ key l args
  | resolveLines key l args => exact touched_resolveIn _ _ key l args
  | format key args => exact touched_resolveIn _ _ key e.active args
  | resolveOr key l args fallback =>
    rw [ask, resolveOr]
    dsimp only [Query.locale]
    split
    · next h => exact .of_lookup? h args
    · exact .same
  | resolveId id l args =>
    rw [ask, resolveId]
    dsimp only [Query.locale]
    split
    · exact touched_resolveIn _ _ _ l args
    · exact .same
  | chain l => exact .same
  | keys l => exact .same
  | contains key l => exact .same

/-- Finding a chain changes the memo at most. -/
theorem chain_frame (e : Engine) (l : Locale) :
    (e.chain l).2 = { e with chains := (e.chain l).2.chains } := by
  unfold chain memoize
  split
  · rfl
  · split <;> rfl

theorem Touched.frame {e e' : Engine} (h : Touched e e') : e' = { e with cache := e'.cache } := by
  cases h <;> rfl

/-- A query changes the memo and the cache at most. -/
theorem ask_frame (e : Engine) (q : Query) :
    e.ask q = { e with chains := (e.ask q).chains, cache := (e.ask q).cache } := by
  have ht := (touched_ask e q).frame
  rw [chain_frame] at ht
  rw [ht]

/-! ## loads -/

/-- Publishes checked loads, all or none. -/
def publish (e : Engine) (loads : Except LoadError (List (Locale × Entries))) (mode : LoadMode) :
    Engine :=
  match loads with
  | .error _ => e
  | .ok loads =>
    match e.catalog.loadMany loads mode with
    | (.error _, catalog) => { e with catalog }
    | (.ok _, catalog) => { e with catalog }.invalidate (loads.map Prod.fst)

theorem load_eq_publish (e : Engine) (l : Locale) (entries : List (String × String))
    (mode : LoadMode) :
    (e.load l entries mode).2 = e.publish ((checked l entries).map fun x => [(l, x)]) mode := by
  unfold load publish
  cases checked l entries with
  | error err => rfl
  | ok x =>
    simp only [Except.map, Catalog.load, Catalog.loadMany, Catalog.stageAll]
    cases Catalog.stage e.catalog.snapshot e.catalog.nextVersion l x mode <;> rfl

theorem loadFrom_eq_publish (e : Engine) (loaded : Except LoadError (List BundleSource))
    (mode : LoadMode) : (e.loadFrom loaded mode).2 = e.publish (loaded.bind checkedAll) mode := by
  unfold loadFrom publish
  cases loaded.bind checkedAll with
  | error err => rfl
  | ok loads =>
    dsimp only
    rcases e.catalog.loadMany loads mode with ⟨_ | _, _⟩ <;> rfl

/-- What publishing does to an engine: versions are used up, or all loads are staged. -/
theorem publish_cases (e : Engine) (loads : Except LoadError (List (Locale × Entries)))
    (mode : LoadMode) :
    (∃ n, e.publish loads mode = { e with catalog := { e.catalog with nextVersion := n } }) ∨
      ∃ ls versions s n,
        Catalog.stageAll e.catalog.snapshot e.catalog.nextVersion mode ls =
          (.ok (versions, s), n) ∧
        e.publish loads mode = { e with catalog := ⟨s, n⟩ }.invalidate (ls.map Prod.fst) := by
  unfold publish
  cases loads with
  | error err => exact .inl ⟨e.catalog.nextVersion, rfl⟩
  | ok ls =>
    dsimp only [Catalog.loadMany]
    rcases h : Catalog.stageAll e.catalog.snapshot e.catalog.nextVersion mode ls with ⟨err | r, n⟩
    · exact .inl ⟨n, rfl⟩
    · exact .inr ⟨ls, r.1, r.2, n, h, rfl⟩

end Phrasebook.Engine
