import Phrasebook.Proofs.Catalog.Cache
import Phrasebook.Proofs.Engine.Run

/-!
# Phrasebook.Proofs.Engine.Coherence

What an engine remembers is what it would compute.

The invariant of runs (`Coherent`) has three parts: bundles stand at their own tags,
the cache fits the snapshot, and a remembered chain is the chain of its locale for
the current default.  Every operation keeps it, a load that fails as well as one that
succeeds (`Coherent.perform`), so it holds in every state that a new engine reaches
(`coherent_run`).
-/

namespace Phrasebook.Engine

/-- The catalog, the cache and the memo of an engine go together. -/
structure Coherent (e : Engine) : Prop where
  sound : e.catalog.snapshot.Sound
  fits : e.cache.Fits e.catalog.snapshot
  memo : ∀ (l : Locale) (chain : List Locale), e.chains[l.tag]? = some chain →
    chain = l.fallbackChain e.default

theorem coherent_new (s : Settings) : (new s).Coherent where
  sound := Snapshot.sound_empty
  fits := TemplateCache.fits_empty _
  memo := by
    intro l chain h
    rw [new, Std.TreeMap.getElem?_emptyc] at h
    cases h

variable {e : Engine}

/-! ## chains -/

/-- A chain is the same computed and remembered. -/
theorem Coherent.chain_eq (he : e.Coherent) (l : Locale) :
    (e.chain l).1 = l.fallbackChain e.default := by
  unfold Engine.chain
  split
  · next chain h =>
    obtain ⟨h, -⟩ := Option.filter_eq_some_iff.1 h
    exact he.memo l chain h
  · rfl

theorem Coherent.memoize (he : e.Coherent) (l : Locale) :
    (e.memoize l (l.fallbackChain e.default)).Coherent := by
  unfold Engine.memoize
  split
  · refine ⟨he.sound, he.fits, ?_⟩
    intro l' chain h
    obtain ⟨hl, rfl⟩ | ⟨-, h⟩ := getElem?_insert_cases h
    · rw [Locale.tag_injective hl]
    · exact he.memo l' chain h
  · exact he

theorem Coherent.chain (he : e.Coherent) (l : Locale) : (e.chain l).2.Coherent := by
  unfold Engine.chain
  split
  · exact he
  · exact he.memoize l

/-! ## templates -/

/-- A template is rendered from its parse, with the plural rules of its locale. -/
theorem Coherent.render_fst (he : e.Coherent) {l : Locale} {b : Bundle} {key raw : String}
    (hb : e.catalog.snapshot.bundle? l = some b) (hr : b.get? key = some raw) (args : Arguments) :
    (e.render key b raw args).1 = e.evaluate key raw b.locale args := by
  have hl := he.sound.locale_eq hb
  rw [render, evaluate]
  dsimp only
  rw [(he.fits.getOrBuild (hl ▸ hb) hr).1]

theorem Coherent.touched (he : e.Coherent) {e' : Engine} (h : Touched e e') : e'.Coherent := by
  cases h with
  | same => exact he
  | rendered hb hr =>
    have hl := he.sound.locale_eq hb
    exact ⟨he.sound, (he.fits.getOrBuild (hl ▸ hb) hr).2, he.memo⟩

/-! ## operations -/

theorem Coherent.ask (he : e.Coherent) (q : Query) : (e.ask q).Coherent :=
  (he.chain (q.locale e)).touched (touched_ask e q)

/-- Invalidating the locales whose bundles change keeps the cache fitting. -/
theorem Coherent.invalidate (he : e.Coherent) {catalog : Catalog}
    (hs : catalog.snapshot.Sound) {ls : List Locale}
    (h : ∀ tag, (∀ l ∈ ls, l.tag ≠ tag) →
      catalog.snapshot.bundles[tag]? = e.catalog.snapshot.bundles[tag]?) :
    Coherent ({ e with catalog }.invalidate ls) :=
  ⟨hs, he.fits.invalidate_all h, he.memo⟩

theorem Coherent.publish (he : e.Coherent) (loads : Except LoadError (List (Locale × Entries)))
    (mode : LoadMode) : (e.publish loads mode).Coherent := by
  obtain ⟨n, h⟩ | ⟨ls, versions, s, n, hst, h⟩ := publish_cases e loads mode
  · rw [h]
    exact ⟨he.sound, he.fits, he.memo⟩
  · rw [h]
    have hs : s.Sound := Catalog.stageAll_induction
      (fun _ _ _ _ _ hst hs => Catalog.sound_stage hs hst) hst he.sound
    refine he.invalidate hs fun tag ht => Catalog.getElem?_stageAll hst ?_
    intro x hx
    exact ht x.1 (List.mem_map_of_mem hx)

theorem Coherent.unload (he : e.Coherent) (l : Locale) : (e.unload l).2.Coherent := by
  unfold Engine.unload Catalog.remove
  by_cases hl : (e.catalog.snapshot.bundle? l).isSome
  · rw [if_pos hl]
    refine he.invalidate (he.sound.erase l) fun tag ht => ?_
    rw [Snapshot.getElem?_erase, if_neg (ht l List.mem_cons_self)]
  · rw [if_neg hl]
    exact he

/-- A new default locale starts with an empty memo. -/
theorem Coherent.setDefault (he : e.Coherent) (l : Locale) : (e.setDefault l).Coherent := by
  refine ⟨he.sound, he.fits, ?_⟩
  intro l' chain h
  rw [Engine.setDefault, Std.TreeMap.getElem?_emptyc] at h
  cases h

/-- Every operation keeps the engine coherent. -/
theorem Coherent.perform (he : e.Coherent) (op : Operation) : (e.perform op).Coherent := by
  cases op with
  | load l entries mode =>
    rw [Engine.perform, load_eq_publish]
    exact he.publish _ mode
  | loadFrom loaded mode =>
    rw [Engine.perform, loadFrom_eq_publish]
    exact he.publish _ mode
  | unload l => exact he.unload l
  | setDefault l => exact he.setDefault l
  | setActive l => exact ⟨he.sound, he.fits, he.memo⟩
  | query q => exact he.ask q

/-- Every state that a new engine reaches is coherent. -/
theorem coherent_run (s : Settings) (ops : List Operation) : ((new s).run ops).Coherent :=
  run_induction (fun _ op he => he.perform op) (coherent_new s) ops

end Phrasebook.Engine
