import Phrasebook.Proofs.Engine.Alike
import Phrasebook.Proofs.Engine.Refusal

/-!
# Phrasebook.Proofs.Engine.Failure

A load that fails has no effect.

All that it has used up are versions, and the engine with other versions to come is alike
the one before, so that no later call tells whether the load was made
(`load_all_or_nothing`).
-/

namespace Phrasebook.Engine

/-- An engine is alike one that goes on with other versions. -/
theorem alike_of_nextVersion (e : Engine) (n : UInt64) :
    Alike { e with catalog := { e.catalog with nextVersion := n } } e :=
  ⟨rfl, rfl, ⟨rfl, rfl, rfl⟩, rfl, rfl, rfl⟩

/-- Loads are all or nothing.  In every state that a new engine reaches a load fails exactly
when there is something against it; it then leaves everything but the next version as it
is, and all later calls are answered as if it had not been made. -/
theorem load_all_or_nothing (s : Settings) (ops : List Operation) (op : Operation) :
    (((new s).run ops).Fails op ↔ Refuses ((new s).run ops).catalog.snapshot.texts op) ∧
      (((new s).run ops).Fails op →
        (∃ n, ((new s).run ops).perform op =
          { (new s).run ops with
            catalog := { ((new s).run ops).catalog with nextVersion := n } }) ∧
        ∀ calls, (((new s).run ops).perform op).answers calls =
          ((new s).run ops).answers calls) := by
  refine ⟨fails_iff_refuses _ op, fun hf => ?_⟩
  obtain ⟨n, hn⟩ := hf.perform_eq
  have he := coherent_run s ops
  have ha : (((new s).run ops).perform op).Alike ((new s).run ops) := by
    rw [hn]
    exact alike_of_nextVersion _ n
  exact ⟨⟨n, hn⟩, fun calls => ha.answers_eq (he.perform op) he calls⟩

/-- A loader has two bundles of a locale, of which the first can be staged and the second has two
keys of one identifier. -/
def halfStaged : Operation :=
  .loadFrom (.ok [⟨.english, .ofList [("k", "b")]⟩,
    ⟨.english, .ofList [("AuHH3scoLSF", "x"), ("LLwCZu4z3qH", "y")]⟩]) .merge

/-- The key of the first bundle is there already, and its template is cached. -/
def beforeHalfStaged : List Operation :=
  [.load .english [("k", "a")] .replaceAll, .query (.resolve "k" .english .empty)]

theorem load_all_or_nothing_halfStaged :
    ((new (.ofDefault .english)).run beforeHalfStaged).Fails halfStaged ∧
      Refuses ((new (.ofDefault .english)).run beforeHalfStaged).catalog.snapshot.texts
        halfStaged ∧
      ∀ calls, (((new (.ofDefault .english)).run beforeHalfStaged).perform halfStaged).answers calls =
        ((new (.ofDefault .english)).run beforeHalfStaged).answers calls := by
  have hn : (((new (.ofDefault .english)).run beforeHalfStaged).loadFrom
      (.ok [⟨.english, .ofList [("k", "b")]⟩,
        ⟨.english, .ofList [("AuHH3scoLSF", "x"), ("LLwCZu4z3qH", "y")]⟩]) .merge).1.toOption =
          none := by
    decide +kernel
  have hf : ((new (.ofDefault .english)).run beforeHalfStaged).Fails halfStaged := by
    rw [halfStaged, Fails]
    cases h : (((new (.ofDefault .english)).run beforeHalfStaged).loadFrom
      (.ok [⟨.english, .ofList [("k", "b")]⟩,
        ⟨.english, .ofList [("AuHH3scoLSF", "x"), ("LLwCZu4z3qH", "y")]⟩]) .merge).1 with
    | error err => exact ⟨err, rfl⟩
    | ok total =>
      rw [h] at hn
      cases hn
  obtain ⟨hr, hu⟩ := load_all_or_nothing (.ofDefault .english) beforeHalfStaged halfStaged
  exact ⟨hf, hr.1 hf, (hu hf).2⟩

end Phrasebook.Engine
