import Mathlib.Algebra.Order.BigOperators.Group.Finset
import Phrasebook.Proofs.Catalog.Accounting
import Phrasebook.Proofs.Engine.Alike
import Phrasebook.Proofs.Engine.Counting

/-!
# Phrasebook.Proofs.Engine.Caching

What the template cache of an engine holds, told from the run before.

A query renders at most one template, that of a key in the first bundle of its chain that has it
(`Query.rendered?`).  A load that succeeds replaces the bundles of its locales, and unloading
removes one (`Replaces`); both drop what is cached for these locales and leave the rest
(`Coherent.drops_perform`).  So a template is cached after an operation exactly if the operation
renders it, or it was cached before and its bundle is not replaced (`Coherent.has_perform_iff`),
and after a run exactly if it was rendered and its bundle has not been replaced since
(`has_run_iff`).

What is cached is answered by a hit and anything else by a build, so hits can be told from the
run as well.  This does not rest on versions being different, and so needs no bound on how many
are used up.
-/

namespace Phrasebook

/-! ## what is cached -/

/-- A partition of parses has no more templates than its bundle. -/
theorem Partition.Parses.size_le {p : Partition} {b : Bundle} (hp : p.Parses b) :
    p.templates.size ≤ b.size := by
  have hk : p.templates.keys ⊆ b.entries.keys := by
    intro key hk
    rw [Std.TreeMap.mem_keys, Std.TreeMap.mem_iff_isSome_getElem?] at hk ⊢
    obtain ⟨t, ht⟩ := Option.isSome_iff_exists.1 hk
    obtain ⟨raw, hr, -⟩ := hp.parse_eq key t ht
    exact Option.isSome_iff_exists.2 ⟨raw, hr⟩
  have hle := (Std.TreeMap.nodup_keys.subperm hk).length_le
  rwa [Std.TreeMap.length_keys, Std.TreeMap.length_keys] at hle

namespace TemplateCache

/-- There is a template for a locale and key. -/
def Has (c : TemplateCache) (l : Locale) (key : String) : Prop :=
  key ∈ (c.templates l.tag).getD ∅

variable {c : TemplateCache} {s : Snapshot} {b : Bundle}

theorem not_has_empty (l : Locale) (key : String) : ¬ empty.Has l key := by
  simp [Has, templates, empty]

/-- A partition that has one more key than what was cached for its locale. -/
theorem has_insert_iff {l : Locale} {key : String} {p : Partition}
    (hp : ∀ k, k ∈ p.templates ↔ key = k ∨ c.Has l k) {hits builds : UInt64} (l' : Locale)
    (k : String) :
    Has ⟨c.partitions.insert l.tag p, hits, builds⟩ l' k ↔ l = l' ∧ key = k ∨ c.Has l' k := by
  rw [Has, templates_insert, Function.update_apply]
  simp only [Locale.tag_inj]
  split
  · next hl =>
    subst hl
    rw [Option.getD_some, hp, eq_self, true_and]
  · next hl => exact (or_iff_right fun h => hl h.1.symm).symm

/-- Dropping locales drops their templates and leaves those of the others. -/
theorem templates_invalidate_all (ls : List Locale) (c : TemplateCache) (l : Locale) :
    (ls.foldl invalidate c).templates l.tag = if l ∈ ls then none else c.templates l.tag := by
  induction ls generalizing c with
  | nil => simp
  | cons l' ls ih =>
    rw [List.foldl_cons, ih, templates_invalidate, Function.update_apply]
    simp only [Locale.tag_inj, List.mem_cons]
    by_cases hl : l = l' <;> simp [hl]

/-- A request for a template of a bundle is a hit if the template is cached and a build
otherwise; the template is cached then, besides those that were. -/
theorem Fits.request (hc : c.Fits s) (hb : s.bundle? b.locale = some b) (key raw : String) :
    ((c.Has b.locale key ∧ (c.getOrBuild b.locale key b.version raw).2.hits = c.hits + 1 ∧
        (c.getOrBuild b.locale key b.version raw).2.builds = c.builds) ∨
      (¬ c.Has b.locale key ∧ (c.getOrBuild b.locale key b.version raw).2.hits = c.hits ∧
        (c.getOrBuild b.locale key b.version raw).2.builds = c.builds + 1)) ∧
    ∀ l k, (c.getOrBuild b.locale key b.version raw).2.Has l k ↔
      b.locale = l ∧ key = k ∨ c.Has l k := by
  -- the partition that is looked in has what is cached for the locale
  have hp : ∀ k, k ∈ (c.partitions[b.locale.tag]?.getD (.empty b.version)).templates ↔
      c.Has b.locale k := by
    intro k
    rw [templates_getD, Has]
  rw [TemplateCache.getOrBuild, hc.partition?_eq hb]
  generalize c.partitions[b.locale.tag]?.getD (.empty b.version) = p at hp
  dsimp only
  cases ht : p.templates[key]? with
  | some t =>
    have hk : c.Has b.locale key := by
      rw [← hp, Std.TreeMap.mem_iff_isSome_getElem?, ht, Option.isSome_some]
    refine ⟨.inl ⟨hk, rfl, rfl⟩, has_insert_iff fun k => ?_⟩
    rw [hp]
    exact (or_iff_right_of_imp fun h => h ▸ hk).symm
  | none =>
    have hk : ¬ c.Has b.locale key := by
      rw [← hp, Std.TreeMap.mem_iff_isSome_getElem?, ht]
      exact Bool.false_ne_true
    refine ⟨.inr ⟨hk, rfl, rfl⟩, has_insert_iff fun k => ?_⟩
    rw [Std.TreeMap.mem_insert, Std.LawfulEqCmp.compare_eq_iff_eq, hp]

/-- A cache that fits has no more templates than the bundles have. -/
theorem Fits.size_le (hc : c.Fits s) :
    c.size ≤ ∑ tag ∈ s.bundles.keys.toFinset, (s.bundles[tag]?).elim 0 Bundle.size := by
  have hb : ∀ tag ∈ c.partitions.keys.toFinset, ∃ p b, c.partitions[tag]? = some p ∧
      s.bundles[tag]? = some b ∧ p.Parses b := by
    intro tag ht
    rw [List.mem_toFinset, Std.TreeMap.mem_keys, Std.TreeMap.mem_iff_isSome_getElem?] at ht
    obtain ⟨p, hp⟩ := Option.isSome_iff_exists.1 ht
    obtain ⟨b, hb, hpb⟩ := hc tag p hp
    exact ⟨p, b, hp, hb, hpb⟩
  calc c.size
      = ∑ tag ∈ c.partitions.keys.toFinset,
          (c.partitions[tag]?).elim 0 fun p => p.templates.size := c.size_eq_sum
    _ ≤ ∑ tag ∈ c.partitions.keys.toFinset, (s.bundles[tag]?).elim 0 Bundle.size := by
        refine Finset.sum_le_sum fun tag ht => ?_
        obtain ⟨p, b, hp, hb, hpb⟩ := hb tag ht
        rw [hp, hb]
        exact hpb.size_le
    _ ≤ ∑ tag ∈ s.bundles.keys.toFinset, (s.bundles[tag]?).elim 0 Bundle.size := by
        refine Finset.sum_le_sum_of_subset fun tag ht => ?_
        obtain ⟨-, b, -, hb, -⟩ := hb tag ht
        rw [List.mem_toFinset, Std.TreeMap.mem_keys, Std.TreeMap.mem_iff_isSome_getElem?, hb]
        rfl

end TemplateCache

namespace Engine

/-! ## queries -/

/-- The key of the template that a query looks for: an identifier is known to the first bundle
of the chain that has a key for it. -/
def Query.key? (q : Query) (e : Engine) : Option String :=
  match q with
  | .resolve key _ _ | .resolveOr key _ _ _ | .resolveLines key _ _ | .format key _ => some key
  | .resolveId id l _ =>
    (e.catalog.snapshot.bundlesOf (l.fallbackChain e.default)).findSome? (Bundle.keyForId? · id)
  | .chain _ | .keys _ | .contains _ _ => none

/-- The bundle and key of the template that a query renders, if there is one; whether an argument
is missing then does not matter. -/
def Query.rendered? (q : Query) (e : Engine) : Option (Bundle × String) :=
  (q.key? e).bind fun key =>
    (e.catalog.snapshot.lookup? ((q.locale e).fallbackChain e.default) key).map
      fun x => (x.1, key)

/-- The cache after a key is looked up in a chain and rendered. -/
def cacheAfter (e : Engine) (chain : List Locale) (key : String) : TemplateCache :=
  match e.catalog.snapshot.lookup? chain key with
  | some (b, raw) => (e.cache.getOrBuild b.locale key b.version raw).2
  | none => e.cache

variable {e : Engine} {b : Bundle} {key : String}

theorem cache_resolveIn (e : Engine) (chain : List Locale) (key : String) (l : Locale)
    (args : Arguments) : (e.resolveIn chain key l args).2.cache = e.cacheAfter chain key := by
  unfold resolveIn cacheAfter
  rcases e.catalog.snapshot.lookup? chain key with _ | ⟨b, raw⟩ <;> rfl

theorem cacheAfter_chain (e : Engine) (l : Locale) : (e.chain l).2.cacheAfter = e.cacheAfter := by
  rw [chain_frame]
  rfl

/-- A query renders the key that it looks for and nothing else. -/
theorem Coherent.cache_ask (he : e.Coherent) (q : Query) :
    (e.ask q).cache =
      (q.key? e).elim e.cache (e.cacheAfter ((q.locale e).fallbackChain e.default)) := by
  have hn : ∀ l, (e.chain l).2.cache = e.cache := fun l => by rw [chain_frame]
  have hr : ∀ key l args, (e.resolve key l args).2.cache =
      e.cacheAfter (l.fallbackChain e.default) key := by
    intro key l args
    rw [resolve]
    dsimp only
    rw [cache_resolveIn, cacheAfter_chain, he.chain_eq]
  cases q with
  | resolve key l args => exact hr key l args
  | resolveLines key l args => exact hr key l args
  | format key args => exact hr key e.active args
  | resolveOr key l args fallback =>
    change _ = e.cacheAfter (l.fallbackChain e.default) key
    rw [Engine.ask, resolveOr, ← cacheAfter_chain e l, ← he.chain_eq l, cacheAfter]
    dsimp only
    rcases (e.chain l).2.catalog.snapshot.lookup? (e.chain l).1 key with _ | ⟨b, raw⟩ <;> rfl
  | resolveId id l args =>
    have hs : (e.chain l).2.catalog.snapshot = e.catalog.snapshot := by rw [chain_frame]
    rw [Engine.ask, resolveId, Query.key?, ← he.chain_eq l, ← hs]
    dsimp only
    split
    · next key hk =>
      rw [hk, cache_resolveIn, cacheAfter_chain, he.chain_eq]
      rfl
    · next hk =>
      rw [hk]
      exact hn l
  | chain l => exact hn l
  | keys l => exact hn l
  | contains key l => exact hn l

/-- A query that renders no template leaves the cache as it is. -/
theorem Coherent.cache_ask_of_none (he : e.Coherent) {q : Query} (hq : q.rendered? e = none) :
    (e.ask q).cache = e.cache := by
  rw [he.cache_ask]
  rw [Query.rendered?] at hq
  cases hk : q.key? e with
  | none => rfl
  | some key =>
    rw [hk, Option.bind_some, Option.map_eq_none_iff] at hq
    rw [Option.elim_some, cacheAfter, hq]

/-- A template that a query renders is that of a bundle of its own locale, and is asked of the
cache. -/
theorem Coherent.cache_ask_of_some (he : e.Coherent) {q : Query}
    (hq : q.rendered? e = some (b, key)) :
    e.catalog.snapshot.bundle? b.locale = some b ∧
      ∃ raw, (e.ask q).cache = (e.cache.getOrBuild b.locale key b.version raw).2 := by
  rw [he.cache_ask]
  rw [Query.rendered?] at hq
  obtain ⟨key', hk, hq⟩ := Option.bind_eq_some_iff.1 hq
  obtain ⟨⟨b', raw⟩, hl, hq⟩ := Option.map_eq_some_iff.1 hq
  cases hq
  obtain ⟨l, -, hb, -⟩ := Snapshot.bundle?_of_lookup? hl
  refine ⟨he.sound.locale_eq hb ▸ hb, raw, ?_⟩
  rw [hk, Option.elim_some, cacheAfter, hl]

/-! ## other operations -/

/-- The locales that an operation loads or unloads. -/
def Operation.locales : Operation → List Locale
  | .load l _ _ | .unload l => [l]
  | .loadFrom (.ok bundles) _ => bundles.map BundleSource.locale
  | .loadFrom (.error _) _ | .setDefault _ | .setActive _ | .query _ => []

/-- An operation replaces or removes the bundle of a locale, if there is one: it loads the locale
and does not fail, or it unloads it. -/
def Replaces (e : Engine) (op : Operation) (l : Locale) : Prop := ¬ e.Fails op ∧ l ∈ op.locales

/-- What is cached for some locales goes; of the others the bundles stay, and what is cached. -/
structure Drops (e e' : Engine) (gone : Locale → Prop) : Prop where
  templates_of_gone : ∀ l, gone l → e'.cache.templates l.tag = none
  templates_of_not_gone : ∀ l, ¬ gone l → e'.cache.templates l.tag = e.cache.templates l.tag
  bundle?_of_not_gone : ∀ l, ¬ gone l →
    e'.catalog.snapshot.bundle? l = e.catalog.snapshot.bundle? l

theorem drops_none {e' : Engine} {gone : Locale → Prop} (hn : ∀ l, ¬ gone l)
    (hc : e'.cache = e.cache) (hs : e'.catalog.snapshot = e.catalog.snapshot) :
    Drops e e' gone where
  templates_of_gone l h := absurd h (hn l)
  templates_of_not_gone l _ := by rw [hc]
  bundle?_of_not_gone l _ := by rw [hs]

theorem drops_invalidate {catalog : Catalog} {ls : List Locale} {gone : Locale → Prop}
    (hg : ∀ l, gone l ↔ l ∈ ls)
    (h : ∀ l ∉ ls, catalog.snapshot.bundle? l = e.catalog.snapshot.bundle? l) :
    Drops e ({ e with catalog }.invalidate ls) gone where
  templates_of_gone l hl := by
    rw [invalidate, TemplateCache.templates_invalidate_all, if_pos ((hg l).1 hl)]
  templates_of_not_gone l hl := by
    rw [invalidate, TemplateCache.templates_invalidate_all, if_neg (mt (hg l).2 hl)]
  bundle?_of_not_gone l hl := h l (mt (hg l).2 hl)

/-- Loads that the catalog makes change the bundles of their locales only. -/
theorem bundle?_of_loadMany {c c' : Catalog} {loads : List (Locale × Entries)} {mode : LoadMode}
    {versions : List UInt64} (h : c.loadMany loads mode = (.ok versions, c')) {l : Locale}
    (hl : l ∉ loads.map Prod.fst) : c'.snapshot.bundle? l = c.snapshot.bundle? l := by
  rw [Catalog.loadMany] at h
  rcases hst : Catalog.stageAll c.snapshot c.nextVersion mode loads with ⟨err | r, n⟩
  · rw [hst] at h
    cases h
  · rw [hst] at h
    cases h
    refine Catalog.getElem?_stageAll hst fun x hx ht => hl ?_
    exact Locale.tag_injective ht ▸ List.mem_map_of_mem hx

/-- An operation that is no query drops the locales whose bundles it replaces, and no others. -/
theorem Coherent.drops_perform (he : e.Coherent) {op : Operation} (hq : ∀ q, op ≠ .query q) :
    Drops e (e.perform op) (e.Replaces op) := by
  by_cases hf : e.Fails op
  · obtain ⟨n, h⟩ := hf.perform_eq
    rw [h]
    exact drops_none (fun l hr => hr.1 hf) rfl rfl
  have hr : ∀ l, e.Replaces op l ↔ l ∈ op.locales := fun l => and_iff_right hf
  cases op with
  | load l entries mode =>
    rw [Engine.perform]
    rcases h : e.load l entries mode with ⟨err | n, e'⟩
    · exact absurd ⟨err, congrArg Prod.fst h⟩ hf
    · obtain ⟨version, catalog, hl, -, rfl⟩ := load_eq_ok h
      have hm := e.catalog.loadMany_singleton l (.ofList entries) mode
      rw [hl] at hm
      exact drops_invalidate hr fun l' hl' => bundle?_of_loadMany hm hl'
  | loadFrom loaded mode =>
    rw [Engine.perform]
    rcases h : e.loadFrom loaded mode with ⟨err | n, e'⟩
    · exact absurd ⟨err, congrArg Prod.fst h⟩ hf
    · obtain ⟨bundles, versions, catalog, rfl, hl, -, rfl⟩ := loadFrom_eq_ok h
      refine drops_invalidate hr fun l' hl' => bundle?_of_loadMany hl ?_
      rwa [List.map_map]
  | unload l =>
    rw [Engine.perform, Engine.unload, Catalog.remove]
    by_cases hl : (e.catalog.snapshot.bundle? l).isSome
    · rw [if_pos hl]
      refine drops_invalidate hr fun l' hl' => ?_
      have hne : l ≠ l' := fun h => hl' (h ▸ List.mem_cons_self)
      rw [Snapshot.bundle?_erase, if_neg hne]
    · -- what is not loaded is not cached either
      rw [if_neg hl]
      refine ⟨fun l' h => ?_, fun _ _ => rfl, fun _ _ => rfl⟩
      obtain rfl := List.mem_singleton.1 h.2
      rw [TemplateCache.templates, Option.map_eq_none_iff]
      refine Option.eq_none_iff_forall_ne_some.2 fun p hp => hl ?_
      obtain ⟨b, hb, -⟩ := he.fits _ p hp
      exact Option.isSome_iff_exists.2 ⟨b, hb⟩
  | setDefault l => exact drops_none (fun l' h => List.not_mem_nil h.2) rfl rfl
  | setActive l => exact drops_none (fun l' h => List.not_mem_nil h.2) rfl rfl
  | query q => exact absurd rfl (hq q)

/-! ## one operation -/

/-- An operation renders a key of a bundle. -/
def Renders (e : Engine) (op : Operation) (b : Bundle) (key : String) : Prop :=
  ∃ q, op = .query q ∧ q.rendered? e = some (b, key)

theorem Coherent.bundle?_of_renders (he : e.Coherent) {op : Operation} (h : e.Renders op b key) :
    (e.perform op).catalog.snapshot.bundle? b.locale = some b := by
  obtain ⟨q, rfl, hq⟩ := h
  rw [Engine.perform, ask_frame]
  exact (he.cache_ask_of_some hq).1

/-- An operation that does not replace the bundle of a locale leaves it. -/
theorem Coherent.bundle?_perform (he : e.Coherent) {op : Operation} {l : Locale}
    (h : ¬ e.Replaces op l) :
    (e.perform op).catalog.snapshot.bundle? l = e.catalog.snapshot.bundle? l := by
  by_cases hq : ∃ q, op = .query q
  · obtain ⟨q, rfl⟩ := hq
    rw [Engine.perform, ask_frame]
  · exact (he.drops_perform fun q hop => hq ⟨q, hop⟩).bundle?_of_not_gone l h

/-- A template is cached after an operation if the operation renders it, or if it was cached
before and its bundle is not replaced. -/
theorem Coherent.has_perform_iff (he : e.Coherent) (op : Operation) (l : Locale) (key : String) :
    (e.perform op).cache.Has l key ↔
      (∃ b, b.locale = l ∧ e.Renders op b key) ∨ e.cache.Has l key ∧ ¬ e.Replaces op l := by
  by_cases hq : ∃ q, op = .query q
  · obtain ⟨q, rfl⟩ := hq
    have hr : ¬ e.Replaces (.query q) l := fun h => List.not_mem_nil h.2
    simp only [Engine.perform, Renders, Operation.query.injEq, exists_eq_left', hr,
      not_false_eq_true, and_true]
    cases hs : q.rendered? e with
    | none => simp [he.cache_ask_of_none hs]
    | some x =>
      obtain ⟨hb, raw, hc⟩ := he.cache_ask_of_some hs
      rw [hc, (he.fits.request hb x.2 raw).2]
      simp [Prod.ext_iff, eq_comm]
  · have hn : ¬ ∃ b, b.locale = l ∧ e.Renders op b key := by
      rintro ⟨b, -, q, hop, -⟩
      exact hq ⟨q, hop⟩
    have hd := he.drops_perform fun q hop => hq ⟨q, hop⟩
    rw [or_iff_right hn]
    by_cases hr : e.Replaces op l
    · simp [TemplateCache.Has, hd.templates_of_gone l hr, hr]
    · simp [TemplateCache.Has, hd.templates_of_not_gone l hr, hr]

/-! ## runs -/

/-- No operation of a run replaces the bundle of a locale. -/
def Keeps (e : Engine) (l : Locale) : List Operation → Prop
  | [] => True
  | op :: ops => ¬ e.Replaces op l ∧ (e.perform op).Keeps l ops

/-- A run has rendered a key of a bundle, and has not replaced the bundle since: what was rendered
is of the bundle that is published, and of no earlier one. -/
def HasRendered (e : Engine) (ops : List Operation) (b : Bundle) (key : String) : Prop :=
  ∃ before op after, ops = before ++ op :: after ∧ (e.run before).Renders op b key ∧
    ((e.run before).perform op).Keeps b.locale after

variable {ops : List Operation} {l : Locale}

theorem keeps_concat {op : Operation} :
    e.Keeps l (ops ++ [op]) ↔ e.Keeps l ops ∧ ¬ (e.run ops).Replaces op l := by
  induction ops generalizing e with
  | nil => exact and_comm
  | cons op' ops ih =>
    rw [List.cons_append, Keeps, Keeps, ih, and_assoc]
    rfl

theorem not_hasRendered_nil : ¬ e.HasRendered [] b key := by
  rintro ⟨before, op, after, h, -⟩
  exact List.append_ne_nil_of_right_ne_nil _ (List.cons_ne_nil _ _) h.symm

/-- One more operation renders the key itself, or comes after that was done and leaves the
bundle. -/
theorem hasRendered_concat_iff {op : Operation} :
    e.HasRendered (ops ++ [op]) b key ↔
      (e.run ops).Renders op b key ∨
        e.HasRendered ops b key ∧ ¬ (e.run ops).Replaces op b.locale := by
  constructor
  · rintro ⟨before, op', after, h, hr, hk⟩
    obtain rfl | ⟨after, last, rfl⟩ := List.eq_nil_or_concat after
    · obtain ⟨rfl, hop⟩ := List.append_inj' h rfl
      exact .inl (List.singleton_inj.1 hop ▸ hr)
    · rw [← List.concat_cons, List.concat_eq_append, ← List.append_assoc] at h
      obtain ⟨rfl, hop⟩ := List.append_inj' h rfl
      rw [List.concat_eq_append, keeps_concat, ← List.singleton_inj.1 hop] at hk
      refine .inr ⟨⟨before, op', after, rfl, hr, hk.1⟩, ?_⟩
      rw [run_append]
      exact hk.2
  · rintro (hr | ⟨⟨before, op', after, rfl, hr, hk⟩, hn⟩)
    · exact ⟨ops, op, [], rfl, hr, trivial⟩
    · rw [run_append] at hn
      exact ⟨before, op', after ++ [op], by simp, hr, keeps_concat.2 ⟨hk, hn⟩⟩

/-- The bundle of which a key was rendered is still there. -/
theorem bundle?_of_hasRendered {s : Settings} (h : (new s).HasRendered ops b key) :
    ((new s).run ops).catalog.snapshot.bundle? b.locale = some b := by
  induction ops using List.reverseRecOn with
  | nil => exact absurd h not_hasRendered_nil
  | append_singleton ops op ih =>
    rw [run_concat]
    obtain hr | ⟨h, hn⟩ := hasRendered_concat_iff.1 h
    · exact (coherent_run s ops).bundle?_of_renders hr
    · rw [(coherent_run s ops).bundle?_perform hn]
      exact ih h

/-- What is cached after a run was rendered from a bundle that has not been replaced since. -/
theorem has_run_iff (s : Settings) (ops : List Operation) (l : Locale) (key : String) :
    ((new s).run ops).cache.Has l key ↔ ∃ b, b.locale = l ∧ (new s).HasRendered ops b key := by
  induction ops using List.reverseRecOn with
  | nil =>
    refine iff_of_false (TemplateCache.not_has_empty l key) ?_
    rintro ⟨b, -, h⟩
    exact not_hasRendered_nil h
  | append_singleton ops op ih =>
    rw [run_concat, (coherent_run s ops).has_perform_iff, ih]
    constructor
    · rintro (⟨b, hl, hr⟩ | ⟨⟨b, rfl, h⟩, hn⟩)
      · exact ⟨b, hl, hasRendered_concat_iff.2 (.inl hr)⟩
      · exact ⟨b, rfl, hasRendered_concat_iff.2 (.inr ⟨h, hn⟩)⟩
    · rintro ⟨b, rfl, h⟩
      obtain hr | ⟨h, hn⟩ := hasRendered_concat_iff.1 h
      · exact .inl ⟨b, rfl, hr⟩
      · exact .inr ⟨⟨b, rfl, h⟩, hn⟩

/-! ## what a run leaves -/

/-- The number of templates over all locales, bundle by bundle. -/
theorem Coherent.total_eq_sum (he : e.Coherent) :
    e.total = ∑ tag ∈ e.catalog.snapshot.bundles.keys.toFinset,
      (e.catalog.snapshot.bundles[tag]?).elim 0 Bundle.size := by
  rw [List.sum_toFinset _ Std.TreeMap.nodup_keys, ← he.sound.map_tag_locales, List.map_map,
    List.sum_eq_foldl, List.foldl_map]
  rfl

/-- The hits and the builds that have been counted. -/
def counts (e : Engine) : UInt64 × UInt64 := (e.cache.hits, e.cache.builds)

/-- A query that renders a template is counted as a hit if the template is cached, and as a build
otherwise. -/
theorem Coherent.counts_ask (he : e.Coherent) {q : Query} (hq : q.rendered? e = some (b, key)) :
    ((e.ask q).counts = (e.cache.hits + 1, e.cache.builds) ↔ e.cache.Has b.locale key) ∧
      ((e.ask q).counts = (e.cache.hits, e.cache.builds + 1) ↔ ¬ e.cache.Has b.locale key) := by
  obtain ⟨hb, raw, hc⟩ := he.cache_ask_of_some hq
  rw [counts, hc]
  obtain ⟨hk, hh, hn⟩ | ⟨hk, hh, hn⟩ := (he.fits.request hb key raw).1 <;> simp [hk, hh, hn]

/-- In every state that a new engine reaches, failed loads included, a partition of the cache is
that of an available locale at the version of its bundle, and has parses of templates of this
bundle.  An operation that replaces or removes the bundle of a locale leaves no partition for
it; no more templates are cached than there are; and a query that renders a template is counted
as a hit exactly if this key of this bundle was rendered before and the bundle has not been
replaced since, and as a build otherwise. -/
theorem cache_of_run (s : Settings) (ops : List Operation) :
    (∀ (tag : String) (p : Partition), ((new s).run ops).cache.partitions[tag]? = some p →
      ∃ b : Bundle, b.locale.tag = tag ∧ b.locale ∈ ((new s).run ops).available ∧
        ((new s).run ops).catalog.snapshot.bundle? b.locale = some b ∧ p.version = b.version ∧
        ∀ key t, p.templates[key]? = some t →
          ∃ raw, b.get? key = some raw ∧ t = Template.parse raw) ∧
      (∀ op l, ((new s).run ops).Replaces op l →
        (((new s).run ops).perform op).cache.partitions[l.tag]? = none) ∧
      ((new s).run ops).cache.size ≤ ((new s).run ops).total ∧
      ∀ q : Query,
        (q.rendered? ((new s).run ops) = none →
          (((new s).run ops).ask q).counts = ((new s).run ops).counts) ∧
        ∀ b key, q.rendered? ((new s).run ops) = some (b, key) →
          ((((new s).run ops).ask q).counts =
              (((new s).run ops).cache.hits + 1, ((new s).run ops).cache.builds) ↔
            (new s).HasRendered ops b key) ∧
          ((((new s).run ops).ask q).counts =
              (((new s).run ops).cache.hits, ((new s).run ops).cache.builds + 1) ↔
            ¬ (new s).HasRendered ops b key) := by
  have he := coherent_run s ops
  refine ⟨fun tag p hp => ?_, fun op l hr => ?_, ?_, fun q => ⟨fun hq => ?_, fun b key hq => ?_⟩⟩
  · obtain ⟨b, hb, hpb⟩ := he.fits tag p hp
    obtain ⟨rfl, -⟩ := he.sound tag b hb
    refine ⟨b, rfl, ?_, hb, hpb.version_eq, hpb.parse_eq⟩
    exact he.sound.mem_locales_iff.2 (Option.isSome_iff_exists.2 ⟨b, hb⟩)
  · have hq : ∀ q, op ≠ .query q := by
      rintro q rfl
      exact List.not_mem_nil hr.2
    exact Option.map_eq_none_iff.1 ((he.drops_perform hq).templates_of_gone l hr)
  · rw [he.total_eq_sum]
    exact he.fits.size_le
  · rw [counts, counts, he.cache_ask_of_none hq]
  · have hh : ((new s).run ops).cache.Has b.locale key ↔ (new s).HasRendered ops b key := by
      rw [has_run_iff]
      refine ⟨?_, fun h => ⟨b, rfl, h⟩⟩
      -- the bundle that was rendered is still there, so it is the one that is rendered now
      rintro ⟨b', hl, h⟩
      have hb := bundle?_of_hasRendered h
      rw [hl, (he.cache_ask_of_some hq).1] at hb
      exact Option.some.inj hb ▸ h
    rw [← hh]
    exact he.counts_ask hq

/-- English is asked for on behalf of German, before a load fails in which it has two keys of one
identifier. -/
def interrupted : List Operation :=
  [.load .english [("k", "a")] .replaceAll, .query (.resolve "k" .german .empty),
    .loadFrom (.ok [⟨.english, .ofList [("l", "b")]⟩,
      ⟨.english, .ofList [("AuHH3scoLSF", "x"), ("LLwCZu4z3qH", "y")]⟩]) .merge]

/-- Another key of English is loaded. -/
def extension : Operation := .load .english [("l", "b")] .merge

theorem cache_of_run_interrupted :
    (∃ b, (Query.format "k" .empty).rendered? ((new (.ofDefault .english)).run interrupted) =
          some (b, "k") ∧
        (new (.ofDefault .english)).HasRendered interrupted b "k" ∧
        (((new (.ofDefault .english)).run interrupted).ask (.format "k" .empty)).counts = (1, 1)) ∧
      ∃ b, (Query.format "k" .empty).rendered?
            ((new (.ofDefault .english)).run (interrupted ++ [extension])) = some (b, "k") ∧
        ¬ (new (.ofDefault .english)).HasRendered (interrupted ++ [extension]) b "k" ∧
        (((new (.ofDefault .english)).run (interrupted ++ [extension])).ask
          (.format "k" .empty)).counts = (0, 2) := by
  have hr : ∀ ops, (((Query.format "k" .empty).rendered?
      ((new (.ofDefault .english)).run ops)).map Prod.snd) = some "k" →
      ∃ b, (Query.format "k" .empty).rendered? ((new (.ofDefault .english)).run ops) =
        some (b, "k") := by
    intro ops h
    obtain ⟨⟨b, key⟩, hb, rfl⟩ := Option.map_eq_some_iff.1 h
    exact ⟨b, hb⟩
  obtain ⟨b, hb⟩ := hr interrupted (by decide +kernel)
  obtain ⟨b', hb'⟩ := hr (interrupted ++ [extension]) (by decide +kernel)
  obtain ⟨-, -, -, hq⟩ := cache_of_run (.ofDefault .english) interrupted
  obtain ⟨-, -, -, hq'⟩ := cache_of_run (.ofDefault .english) (interrupted ++ [extension])
  refine ⟨⟨b, hb, ?_, by decide +kernel⟩, b', hb', ?_, by decide +kernel⟩
  · exact ((hq (.format "k" .empty)).2 b "k" hb).1.1 (by decide +kernel)
  · exact ((hq' (.format "k" .empty)).2 b' "k" hb').2.1 (by decide +kernel)

end Engine

end Phrasebook
