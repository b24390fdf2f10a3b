import Phrasebook.Proofs.Catalog.Identifiers
import Phrasebook.Proofs.Engine.Coherence

/-!
# Phrasebook.Proofs.Engine.Identifiers

Resolving by identifier.

An identifier is turned into a key by the first locale of the chain that knows it, and the
key is then resolved in the whole chain (`resolveId_eq_resolve`).  A key that can be
resolved has a known identifier; but the first locale that knows it may have another
key with it, since identifiers are told apart in each locale by itself.  So resolving by the
identifier of a key is resolving that first key (`resolveId_ofKey_of_contains`).
-/

namespace Phrasebook

namespace Engine

open Phrasebook.Bundle (FirstKey)

variable {e : Engine}

/-- An identifier that is known resolves as the key that the first bundle has for it. -/
theorem resolveId_eq_resolve {id : MessageId} {key : String} {l : Locale}
    (h : (e.catalog.snapshot.bundlesOf (e.chain l).1).findSome? (Bundle.keyForId? · id) = some key)
    (args : Arguments) : e.resolveId id l args = e.resolve key l args := by
  have hc : (e.chain l).2.catalog = e.catalog := by rw [chain_frame]
  rw [resolveId, resolve]
  dsimp only
  rw [hc, h]

/-- In a coherent engine the first key of the chain with an identifier is resolved for it. -/
theorem Coherent.resolveId_of_firstKey (he : e.Coherent) {id : MessageId} {key : String}
    {l : Locale}
    (h : FirstKey (e.catalog.snapshot.bundlesOf (l.fallbackChain e.default)) id key)
    (args : Arguments) : e.resolveId id l args = e.resolve key l args := by
  refine resolveId_eq_resolve ?_ args
  rw [he.chain_eq]
  exact (Bundle.findSome?_keyForId?_eq_some_iff
    (fun b hb => he.sound.indexed_of_mem_bundlesOf hb) id key).2 h

/-- A key can be resolved when a bundle of the chain has it. -/
theorem Coherent.contains_iff (he : e.Coherent) (key : String) (l : Locale) :
    (e.contains key l).1 = true ↔
      ∃ b ∈ e.catalog.snapshot.bundlesOf (l.fallbackChain e.default), b.contains key = true := by
  have hc : (e.chain l).2.catalog = e.catalog := by rw [chain_frame]
  rw [contains]
  dsimp only
  rw [hc, he.chain_eq, Snapshot.isSome_lookup?_iff]

/-- In every state that a new engine reaches, the identifier of a key that can be resolved is
resolved as a key: the one that the first locale of the chain has which has a key of this
identifier.  That is the key itself, unless another of the chain shares its identifier. -/
theorem resolveId_ofKey_of_contains (s : Settings) (ops : List Operation) (key : String)
    (l : Locale) (args : Arguments) (h : (((new s).run ops).contains key l).1 = true) :
    (∃ first, FirstKey (((new s).run ops).catalog.snapshot.bundlesOf
        (l.fallbackChain ((new s).run ops).default)) (.ofKey key) first) ∧
      (∀ first, FirstKey (((new s).run ops).catalog.snapshot.bundlesOf
          (l.fallbackChain ((new s).run ops).default)) (.ofKey key) first →
        ((new s).run ops).resolveId (.ofKey key) l args =
          ((new s).run ops).resolve first l args) ∧
      ((∀ b ∈ ((new s).run ops).catalog.snapshot.bundlesOf
            (l.fallbackChain ((new s).run ops).default),
          ∀ k, b.contains k = true → MessageId.ofKey k = MessageId.ofKey key → k = key) →
        ((new s).run ops).resolveId (.ofKey key) l args =
          ((new s).run ops).resolve key l args) := by
  have he := coherent_run s ops
  obtain ⟨b, hb, hk⟩ := (he.contains_iff key l).1 h
  obtain ⟨first, hf⟩ := Bundle.exists_firstKey
    (fun b hb => he.sound.indexed_of_mem_bundlesOf hb) hb hk
  refine ⟨⟨first, hf⟩, fun first' hf' => he.resolveId_of_firstKey hf' args, fun hu => ?_⟩
  have hfk : first = key := by
    obtain ⟨b', hb', hc, hid⟩ := hf.exists_mem
    exact hu b' hb' first hc hid
  exact he.resolveId_of_firstKey (hfk ▸ hf) args

/-- Two locales of a chain, each with a key of its own; the keys share their identifier. -/
def sharedIdentifier : List Operation :=
  [.load .german [("AuHH3scoLSF", "x")] .replaceAll,
    .load .english [("LLwCZu4z3qH", "y")] .replaceAll]

theorem resolveId_ofKey_of_contains_sharedIdentifier :
    (((new (.ofDefault .english)).run sharedIdentifier).contains "LLwCZu4z3qH" .german).1 = true ∧
      ((new (.ofDefault .english)).run sharedIdentifier).resolveId (.ofKey "LLwCZu4z3qH") .german
          .empty =
        ((new (.ofDefault .english)).run sharedIdentifier).resolve "AuHH3scoLSF" .german .empty ∧
      ((new (.ofDefault .english)).run sharedIdentifier).resolveId (.ofKey "LLwCZu4z3qH") .english
          .empty =
        ((new (.ofDefault .english)).run sharedIdentifier).resolve "LLwCZu4z3qH" .english
          .empty := by
  have hc : (((new (.ofDefault .english)).run sharedIdentifier).contains "LLwCZu4z3qH"
      .german).1 = true := by
    decide +kernel
  have hc' : (((new (.ofDefault .english)).run sharedIdentifier).contains "LLwCZu4z3qH"
      .english).1 = true := by
    decide +kernel
  have hs := (coherent_run (.ofDefault .english) sharedIdentifier).sound
  have hf : FirstKey (((new (.ofDefault .english)).run sharedIdentifier).catalog.snapshot.bundlesOf
      (Locale.german.fallbackChain ((new (.ofDefault .english)).run sharedIdentifier).default))
      (.ofKey "LLwCZu4z3qH") "AuHH3scoLSF" :=
    (Bundle.findSome?_keyForId?_eq_some_iff (fun b hb => hs.indexed_of_mem_bundlesOf hb) _ _).1
      (by decide +kernel)
  -- the english chain has no other key
  have hk : (((new (.ofDefault .english)).run sharedIdentifier).catalog.snapshot.bundlesOf
      (Locale.english.fallbackChain
        ((new (.ofDefault .english)).run sharedIdentifier).default)).map Bundle.keys =
      [["LLwCZu4z3qH"]] := by
    decide +kernel
  obtain ⟨-, hfirst, -⟩ := resolveId_ofKey_of_contains (.ofDefault .english) sharedIdentifier
    "LLwCZu4z3qH" .german .empty hc
  obtain ⟨-, -, hsame⟩ := resolveId_ofKey_of_contains (.ofDefault .english) sharedIdentifier
    "LLwCZu4z3qH" .english .empty hc'
  refine ⟨hc, hfirst _ hf, hsame fun b hb k hbk _ => ?_⟩
  have hm := List.mem_map_of_mem (f := Bundle.keys) hb
  rw [hk, List.mem_singleton] at hm
  rw [Bundle.contains, Std.TreeMap.contains_iff_mem, ← Std.TreeMap.mem_keys] at hbk
  have hkey : k ∈ b.keys := hbk
  rwa [hm, List.mem_singleton] at hkey

/-- A key that can be resolved is not always what its identifier is resolved as. -/
theorem resolveId_ofKey_ne_resolve :
    (((new (.ofDefault .english)).run sharedIdentifier).contains "LLwCZu4z3qH" .german).1 = true ∧
      (((new (.ofDefault .english)).run sharedIdentifier).resolveId (.ofKey "LLwCZu4z3qH") .german
          .empty).1 ≠
        (((new (.ofDefault .english)).run sharedIdentifier).resolve "LLwCZu4z3qH" .german
          .empty).1 := by
  refine ⟨by decide +kernel, fun h => ?_⟩
  have ht : (((new (.ofDefault .english)).run sharedIdentifier).resolveId (.ofKey "LLwCZu4z3qH")
        .german .empty).1.toOption.map Message.display ≠
      (((new (.ofDefault .english)).run sharedIdentifier).resolve "LLwCZu4z3qH" .german
        .empty).1.toOption.map Message.display := by
    decide +kernel
  exact ht (by rw [h])

end Engine

end Phrasebook
