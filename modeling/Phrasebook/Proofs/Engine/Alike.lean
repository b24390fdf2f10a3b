import Phrasebook.Proofs.Catalog.Run
import Phrasebook.Proofs.Engine.Coherence

/-!
# Phrasebook.Proofs.Engine.Alike

Engines that differ in versions at most.

Versions tie the cache to the bundles, and no answer has one in it.  Engines are alike
(`Alike`) if everything else in them is the same: the templates of every locale, the parses
that are cached for it, the counts of requests, the remembered chains, and the locales.
As long as both are coherent, that is as long as each goes with its own versions, alike
engines give the same answer to every call and stay alike (`Alike.serve`); so
they cannot be told apart (`Alike.answers_eq`).
-/

namespace Phrasebook

/-! ## snapshots -/

/-- The bundle without its version. -/
def Bundle.unversioned (b : Bundle) : Bundle := { b with version := 0 }

theorem Bundle.locale_congr {b b' : Bundle} (h : b.unversioned = b'.unversioned) :
    b.locale = b'.locale := by
  have hl : b.unversioned.locale = b'.unversioned.locale := by
    rw [h]
  exact hl

theorem Bundle.unversioned_make (l : Locale) (version : UInt64) (entries : Entries) :
    (make l version entries).map unversioned = make l 0 entries := by
  unfold make
  cases index ∅ entries.keys <;> rfl

namespace Snapshot

/-- The bundle at a tag, without its version. -/
def unversioned (s : Snapshot) (tag : String) : Option Bundle :=
  s.bundles[tag]?.map Bundle.unversioned

theorem unversioned_insert (s : Snapshot) (l : Locale) (b : Bundle) :
    (s.insert l b).unversioned = Function.update s.unversioned l.tag (some b.unversioned) :=
  map_getElem?_insert Bundle.unversioned s.bundles l.tag b

theorem unversioned_erase (s : Snapshot) (l : Locale) :
    (s.erase l).unversioned = Function.update s.unversioned l.tag none :=
  map_getElem?_erase Bundle.unversioned s.bundles l.tag

theorem map_bundlesOf (s : Snapshot) (chain : List Locale) :
    (s.bundlesOf chain).map Bundle.unversioned = chain.filterMap fun l => s.unversioned l.tag :=
  List.map_filterMap

theorem map_lookup? (s : Snapshot) (chain : List Locale) (key : String) :
    (s.lookup? chain key).map (Prod.map Bundle.unversioned id) =
      chain.findSome? fun l => do
        let b ← s.unversioned l.tag
        let raw ← b.get? key
        return (b, raw) := by
  rw [lookup?, List.map_findSome?]
  congr 1
  funext l
  rw [unversioned, Function.comp_apply, bundle?]
  cases s.bundles[l.tag]? with
  | none => rfl
  | some b =>
    change _ = (b.get? key).bind fun raw => some (b.unversioned, raw)
    change ((b.get? key).bind fun raw => some (b, raw)).map _ = _
    cases b.get? key <;> rfl

/-- The locales are values of a map, in the order of its keys. -/
theorem locales_eq (s : Snapshot) :
    s.locales = (s.bundles.map fun _ b => b.locale).toList.map Prod.snd := by
  rw [locales, values_eq_map_snd, Std.TreeMap.toList_map]
  simp

variable {s s' : Snapshot}

theorem contents_congr (h : s.unversioned = s'.unversioned) : s.contents = s'.contents := by
  have hc : ∀ s : Snapshot, s.contents = fun l => (s.unversioned l.tag).map Bundle.entries := by
    intro s
    funext l
    rw [unversioned, Option.map_map]
    rfl
  rw [hc, hc, h]

/-- What is found for a key is the same but for the version. -/
theorem lookup?_cases (h : s.unversioned = s'.unversioned) (chain : List Locale) (key : String) :
    (s.lookup? chain key = none ∧ s'.lookup? chain key = none) ∨
      ∃ b b' raw, s.lookup? chain key = some (b, raw) ∧ s'.lookup? chain key = some (b', raw) ∧
        b.unversioned = b'.unversioned := by
  have hm := (s.map_lookup? chain key).trans (h ▸ (s'.map_lookup? chain key).symm)
  rcases hl : s.lookup? chain key with _ | ⟨b, raw⟩ <;>
    rcases hl' : s'.lookup? chain key with _ | ⟨b', raw'⟩ <;> rw [hl, hl'] at hm
  · exact .inl ⟨rfl, rfl⟩
  · cases hm
  · cases hm
  · obtain ⟨hb, hr⟩ := Prod.mk.inj (Option.some.inj hm)
    exact .inr ⟨b, b', raw, rfl, by rw [show raw' = raw from hr.symm], hb⟩

theorem keysOf_congr (h : s.unversioned = s'.unversioned) (chain : List Locale) :
    s.keysOf chain = s'.keysOf chain := by
  have hk : ∀ s : Snapshot, (s.bundlesOf chain).flatMap Bundle.keys =
      ((s.bundlesOf chain).map Bundle.unversioned).flatMap Bundle.keys := by
    intro s
    rw [List.flatMap_map]
    rfl
  rw [keysOf, keysOf, hk, hk, map_bundlesOf, map_bundlesOf, h]

theorem keyForId?_congr (h : s.unversioned = s'.unversioned) (chain : List Locale)
    (id : MessageId) :
    (s.bundlesOf chain).findSome? (Bundle.keyForId? · id) =
      (s'.bundlesOf chain).findSome? (Bundle.keyForId? · id) := by
  have hk : ∀ s : Snapshot, (s.bundlesOf chain).findSome? (Bundle.keyForId? · id) =
      ((s.bundlesOf chain).map Bundle.unversioned).findSome? (Bundle.keyForId? · id) := by
    intro s
    rw [List.findSome?_map]
    rfl
  rw [hk, hk, map_bundlesOf, map_bundlesOf, h]

theorem locales_congr (h : s.unversioned = s'.unversioned) : s.locales = s'.locales := by
  rw [locales_eq, locales_eq]
  congr 1
  refine Std.TreeMap.Equiv.toList_eq (.of_forall_constGet?_eq fun tag => ?_)
  have ht := congrArg (Option.map Bundle.locale) (congrFun h tag)
  rw [unversioned, unversioned, Option.map_map, Option.map_map] at ht
  rw [Std.TreeMap.getElem?_map, Std.TreeMap.getElem?_map]
  exact ht

end Snapshot

/-! ## staging -/

namespace Catalog

theorem merged_congr {s s' : Snapshot} (h : s.unversioned = s'.unversioned) (l : Locale)
    (entries : Entries) (mode : LoadMode) : merged s l entries mode = merged s' l entries mode := by
  rw [merged_eq, merged_eq, Snapshot.contents_congr h]

theorem stage_congr {s s' : Snapshot} (h : s.unversioned = s'.unversioned) (version version' : UInt64)
    (l : Locale) (entries : Entries) (mode : LoadMode) :
    (stage s version l entries mode).map Snapshot.unversioned =
      (stage s' version' l entries mode).map Snapshot.unversioned := by
  have hs : ∀ (s : Snapshot) (version : UInt64),
      (stage s version l entries mode).map Snapshot.unversioned =
        (Bundle.make l 0 (merged s l entries mode)).map fun b =>
          Function.update s.unversioned l.tag (some b) := by
    intro s version
    rw [stage, ← Bundle.unversioned_make l version]
    cases Bundle.make l version (merged s l entries mode) with
    | error e => rfl
    | ok b => exact congrArg Except.ok (Snapshot.unversioned_insert s l b)
  rw [hs, hs, merged_congr h, h]

/-- Staging bundles fails with the same error, or gives the same but for the versions. -/
theorem stageAll_congr (mode : LoadMode) (loads : List (Locale × Entries)) {s s' : Snapshot}
    (h : s.unversioned = s'.unversioned) (next next' : UInt64) :
    (stageAll s next mode loads).1.map (fun r => r.2.unversioned) =
      (stageAll s' next' mode loads).1.map (fun r => r.2.unversioned) := by
  induction loads generalizing s s' next next' with
  | nil => exact congrArg Except.ok h
  | cons x rest ih =>
    obtain ⟨l, entries⟩ := x
    have hx := stage_congr h next next' l entries mode
    cases hs : stage s next l entries mode <;> cases hs' : stage s' next' l entries mode <;>
      rw [hs, hs'] at hx
    · cases hx
      rw [stageAll, stageAll, hs, hs']
    · cases hx
    · cases hx
    · next s₁ s₁' =>
      -- The versions that are answered do not matter to what is published.
      have hv : ∀ (r : Except LoadError (List UInt64 × Snapshot)) (version : UInt64),
          (r.map fun r => (version :: r.1, r.2)).map (fun r => r.2.unversioned) =
            r.map fun r => r.2.unversioned := by
        intro r version
        cases r <;> rfl
      rw [stageAll_cons_of_ok hs, stageAll_cons_of_ok hs', hv, hv]
      exact ih (Except.ok.inj hx) (next + 1) (next' + 1)

/-- Loading bundles fails with the same error, or publishes the same but for the versions. -/
theorem loadMany_cases {c c' : Catalog} (h : c.snapshot.unversioned = c'.snapshot.unversioned)
    (loads : List (Locale × Entries)) (mode : LoadMode) :
    (∃ err n n', c.loadMany loads mode = (.error err, { c with nextVersion := n }) ∧
        c'.loadMany loads mode = (.error err, { c' with nextVersion := n' })) ∨
      ∃ versions versions' d d', c.loadMany loads mode = (.ok versions, d) ∧
        c'.loadMany loads mode = (.ok versions', d') ∧
        d.snapshot.unversioned = d'.snapshot.unversioned := by
  have hs := stageAll_congr mode loads h c.nextVersion c'.nextVersion
  rw [loadMany, loadMany]
  rcases hx : stageAll c.snapshot c.nextVersion mode loads with ⟨err | r, n⟩ <;>
    rcases hx' : stageAll c'.snapshot c'.nextVersion mode loads with ⟨err' | r', n'⟩ <;>
    rw [hx, hx'] at hs
  · cases hs
    exact .inl ⟨err, n, n', rfl, rfl⟩
  · cases hs
  · cases hs
  · exact .inr ⟨r.1, r'.1, ⟨r.2, n⟩, ⟨r'.2, n'⟩, rfl, rfl, Except.ok.inj hs⟩

end Catalog

/-! ## caches -/

namespace TemplateCache

/-- The parses that are cached at a tag. -/
def templates (c : TemplateCache) (tag : String) : Option (Std.TreeMap String Template) :=
  c.partitions[tag]?.map Partition.templates

theorem templates_insert (c : TemplateCache) (l : Locale) (p : Partition) (hits builds : UInt64) :
    templates ⟨c.partitions.insert l.tag p, hits, builds⟩ =
      Function.update c.templates l.tag (some p.templates) :=
  map_getElem?_insert Partition.templates c.partitions l.tag p

theorem templates_invalidate (c : TemplateCache) (l : Locale) :
    (c.invalidate l).templates = Function.update c.templates l.tag none :=
  map_getElem?_erase Partition.templates c.partitions l.tag

theorem templates_getD (c : TemplateCache) (tag : String) (version : UInt64) :
    (c.partitions[tag]?.getD (.empty version)).templates = (c.templates tag).getD ∅ := by
  rw [templates]
  cases c.partitions[tag]? <;> rfl

/-- Caches of the same parses and counts. -/
structure Alike (c c' : TemplateCache) : Prop where
  templates_eq : c.templates = c'.templates
  hits_eq : c.hits = c'.hits
  builds_eq : c.builds = c'.builds

variable {c c' : TemplateCache}

theorem Alike.insert (h : c.Alike c') {p p' : Partition} (hp : p.templates = p'.templates)
    (l : Locale) {hits hits' builds builds' : UInt64} (hh : hits = hits')
    (hb : builds = builds') :
    Alike ⟨c.partitions.insert l.tag p, hits, builds⟩
      ⟨c'.partitions.insert l.tag p', hits', builds'⟩ where
  templates_eq := by rw [templates_insert, templates_insert, h.templates_eq, hp]
  hits_eq := hh
  builds_eq := hb

/-- Requests for one template are answered alike, whatever the versions of its bundle. -/
theorem Alike.getOrBuild (h : c.Alike c') {s s' : Snapshot} {b b' : Bundle} (hc : c.Fits s)
    (hc' : c'.Fits s') (hb : s.bundle? b.locale = some b) (hb' : s'.bundle? b'.locale = some b')
    (he : b.unversioned = b'.unversioned) (key raw : String) :
    (c.getOrBuild b.locale key b.version raw).1 =
        (c'.getOrBuild b'.locale key b'.version raw).1 ∧
      (c.getOrBuild b.locale key b.version raw).2.Alike
        (c'.getOrBuild b'.locale key b'.version raw).2 := by
  have hl := Bundle.locale_congr he
  -- Both partitions are the current ones or new ones, and hold the same parses either way.
  have hpt : (c.partitions[b.locale.tag]?.getD (.empty b.version)).templates =
      (c'.partitions[b'.locale.tag]?.getD (.empty b'.version)).templates := by
    rw [templates_getD, templates_getD, hl, h.templates_eq]
  rw [TemplateCache.getOrBuild, TemplateCache.getOrBuild, hc.partition?_eq hb,
    hc'.partition?_eq hb']
  generalize c.partitions[b.locale.tag]?.getD (.empty b.version) = p at hpt
  generalize c'.partitions[b'.locale.tag]?.getD (.empty b'.version) = p' at hpt
  dsimp only
  rw [hpt, ← hl]
  cases p'.templates[key]? with
  | some t => exact ⟨rfl, h.insert hpt b.locale (congrArg (· + 1) h.hits_eq) h.builds_eq⟩
  | none =>
    have hn : (Partition.mk p.version (p'.templates.insert key (.parse raw))).templates =
        (Partition.mk p'.version (p'.templates.insert key (.parse raw))).templates := rfl
    exact ⟨rfl, h.insert hn b.locale h.hits_eq (congrArg (· + 1) h.builds_eq)⟩

theorem Alike.invalidate_all (h : c.Alike c') (ls : List Locale) :
    (ls.foldl invalidate c).Alike (ls.foldl invalidate c') := by
  induction ls generalizing c c' with
  | nil => exact h
  | cons l ls ih =>
    refine ih ⟨?_, h.hits_eq, h.builds_eq⟩
    rw [templates_invalidate, templates_invalidate, h.templates_eq]

end TemplateCache

/-! ## engines -/

namespace Engine

/-- Engines that differ in versions at most. -/
structure Alike (e e' : Engine) : Prop where
  settings_eq : e.settings = e'.settings
  bundles_eq : e.catalog.snapshot.unversioned = e'.catalog.snapshot.unversioned
  cache : e.cache.Alike e'.cache
  default_eq : e.default = e'.default
  chains_eq : e.chains = e'.chains
  active_eq : e.active = e'.active

variable {e e' : Engine}

theorem Alike.memoize (h : e.Alike e') (l : Locale) (chain : List Locale) :
    (e.memoize l chain).Alike (e'.memoize l chain) := by
  rw [Engine.memoize, Engine.memoize, h.chains_eq]
  split
  · exact ⟨h.settings_eq, h.bundles_eq, h.cache, h.default_eq, rfl, h.active_eq⟩
  · exact h

theorem Alike.chain (h : e.Alike e') (l : Locale) :
    (e.chain l).1 = (e'.chain l).1 ∧ (e.chain l).2.Alike (e'.chain l).2 := by
  have hm : e.memoized? l = e'.memoized? l := by
    rw [memoized?, memoized?, h.chains_eq, h.default_eq]
  rw [Engine.chain, Engine.chain, hm, h.default_eq]
  cases e'.memoized? l with
  | some chain => exact ⟨rfl, h⟩
  | none => exact ⟨rfl, h.memoize l _⟩

/-! ## queries -/

/-- What a call answers. -/
inductive Answer where
  | message (m : Except ResolveError Message)
  | lines (ms : Except ResolveError (List Message))
  | locales (ls : List Locale)
  | keys (ks : List String)
  | flag (b : Bool)
  | loaded (n : Except LoadError Nat)
  | findings (fs : List Finding)
  | counts (hits builds : UInt64)
  | locale (l : Locale)
  | done

/-- The answer to a query. -/
def reply (e : Engine) : Query → Answer
  | .resolve key l args => .message (e.resolve key l args).1
  | .resolveOr key l args fallback => .message (e.resolveOr key l args fallback).1
  | .resolveId id l args => .message (e.resolveId id l args).1
  | .resolveLines key l args => .lines (e.resolveLines key l args).1
  | .format key args => .message (e.format key args).1
  | .chain l => .locales (e.chain l).1
  | .keys l => .keys (e.keys l).1
  | .contains key l => .flag (e.contains key l).1

theorem Alike.evaluate (h : e.Alike e') (key raw : String) (l : Locale) (args : Arguments) :
    e.evaluate key raw l args = e'.evaluate key raw l args := by
  rw [Engine.evaluate, Engine.evaluate, h.settings_eq]

theorem Alike.missing (h : e.Alike e') (key : String) (l : Locale) (chain : List Locale) :
    e.missing key l chain = e'.missing key l chain := by
  rw [Engine.missing, Engine.missing, h.settings_eq, Snapshot.keysOf_congr h.bundles_eq]

theorem Alike.missingId (h : e.Alike e') (id : MessageId) (l : Locale) :
    e.missingId id l = e'.missingId id l := by
  rw [Engine.missingId, Engine.missingId, h.settings_eq]

/-- A template that is found for a key is rendered alike. -/
theorem Alike.render (h : e.Alike e') (he : e.Coherent) (he' : e'.Coherent) {chain : List Locale}
    {key key' raw : String} {b b' : Bundle}
    (hl : e.catalog.snapshot.lookup? chain key = some (b, raw))
    (hl' : e'.catalog.snapshot.lookup? chain key = some (b', raw))
    (hb : b.unversioned = b'.unversioned) (args : Arguments) :
    (e.render key' b raw args).1 = (e'.render key' b' raw args).1 ∧
      (e.render key' b raw args).2.Alike (e'.render key' b' raw args).2 := by
  obtain ⟨l, -, hbl, -⟩ := Snapshot.bundle?_of_lookup? hl
  obtain ⟨l', -, hbl', -⟩ := Snapshot.bundle?_of_lookup? hl'
  have hloc := Bundle.locale_congr hb
  obtain ⟨ht, hc⟩ := h.cache.getOrBuild he.fits he'.fits (he.sound.locale_eq hbl ▸ hbl)
    (he'.sound.locale_eq hbl' ▸ hbl') hb key' raw
  rw [Engine.render, Engine.render]
  dsimp only
  refine ⟨?_, h.settings_eq, h.bundles_eq, hc, h.default_eq, h.chains_eq, h.active_eq⟩
  rw [ht, hloc, h.settings_eq]

theorem Alike.resolveIn (h : e.Alike e') (he : e.Coherent) (he' : e'.Coherent)
    (chain : List Locale) (key : String) (l : Locale) (args : Arguments) :
    (e.resolveIn chain key l args).1 = (e'.resolveIn chain key l args).1 ∧
      (e.resolveIn chain key l args).2.Alike (e'.resolveIn chain key l args).2 := by
  rw [Engine.resolveIn, Engine.resolveIn]
  obtain ⟨hl, hl'⟩ | ⟨b, b', raw, hl, hl', hb⟩ := Snapshot.lookup?_cases h.bundles_eq chain key
  · rw [hl, hl']
    exact ⟨h.missing key l chain, h⟩
  · rw [hl, hl']
    exact h.render he he' hl hl' hb args

theorem Alike.resolve (h : e.Alike e') (he : e.Coherent) (he' : e'.Coherent)
    (key : String) (l : Locale) (args : Arguments) :
    (e.resolve key l args).1 = (e'.resolve key l args).1 ∧
      (e.resolve key l args).2.Alike (e'.resolve key l args).2 := by
  obtain ⟨hc, ha⟩ := h.chain l
  rw [Engine.resolve, Engine.resolve]
  dsimp only
  rw [hc]
  exact ha.resolveIn (he.chain l) (he'.chain l) _ key l args

/-- Alike engines answer a query with the same and stay alike. -/
theorem Alike.ask (h : e.Alike e') (he : e.Coherent) (he' : e'.Coherent) (q : Query) :
    e.reply q = e'.reply q ∧ (e.ask q).Alike (e'.ask q) := by
  cases q with
  | resolve key l args =>
    obtain ⟨hr, ha⟩ := h.resolve he he' key l args
    exact ⟨congrArg Answer.message hr, ha⟩
  | resolveLines key l args =>
    obtain ⟨hr, ha⟩ := h.resolve he he' key l args
    rw [reply, reply, resolveLines, resolveLines]
    dsimp only
    rw [hr]
    exact ⟨rfl, ha⟩
  | format key args =>
    obtain ⟨hr, ha⟩ := h.resolve he he' key e.active args
    rw [reply, reply, Engine.ask, Engine.ask, format, format, ← h.active_eq]
    exact ⟨congrArg Answer.message hr, ha⟩
  | resolveOr key l args fallback =>
    obtain ⟨hc, ha⟩ := h.chain l
    rw [reply, reply, Engine.ask, Engine.ask, resolveOr, resolveOr]
    dsimp only
    rw [hc]
    obtain ⟨hl, hl'⟩ | ⟨b, b', raw, hl, hl', hb⟩ :=
      Snapshot.lookup?_cases ha.bundles_eq (e'.chain l).1 key
    · rw [hl, hl']
      exact ⟨congrArg Answer.message (ha.evaluate key fallback l args), ha⟩
    · rw [hl, hl']
      obtain ⟨hr, ha⟩ := ha.render (he.chain l) (he'.chain l) hl hl' hb args
      exact ⟨congrArg Answer.message hr, ha⟩
  | resolveId id l args =>
    obtain ⟨hc, ha⟩ := h.chain l
    rw [reply, reply, Engine.ask, Engine.ask, resolveId, resolveId]
    dsimp only
    rw [hc, Snapshot.keyForId?_congr ha.bundles_eq]
    cases ((e'.chain l).2.catalog.snapshot.bundlesOf (e'.chain l).1).findSome?
      (Bundle.keyForId? · id) with
    | none => exact ⟨congrArg Answer.message (ha.missingId id l), ha⟩
    | some key =>
      obtain ⟨hr, ha⟩ := ha.resolveIn (he.chain l) (he'.chain l) (e'.chain l).1 key l args
      exact ⟨congrArg Answer.message hr, ha⟩
  | chain l =>
    obtain ⟨hc, ha⟩ := h.chain l
    exact ⟨congrArg Answer.locales hc, ha⟩
  | keys l =>
    obtain ⟨hc, ha⟩ := h.chain l
    rw [reply, reply, keys, keys]
    dsimp only
    rw [hc, Snapshot.keysOf_congr ha.bundles_eq]
    exact ⟨rfl, ha⟩
  | contains key l =>
    obtain ⟨hc, ha⟩ := h.chain l
    rw [reply, reply, contains, contains]
    dsimp only
    rw [hc]
    obtain ⟨hl, hl'⟩ | ⟨b, b', raw, hl, hl', -⟩ :=
      Snapshot.lookup?_cases ha.bundles_eq (e'.chain l).1 key
    · rw [hl, hl']
      exact ⟨rfl, ha⟩
    · rw [hl, hl']
      exact ⟨rfl, ha⟩

/-! ## loads and removals -/

theorem Alike.invalidate (h : e.Alike e') {c c' : Catalog}
    (hc : c.snapshot.unversioned = c'.snapshot.unversioned) (ls : List Locale) :
    ({ e with catalog := c }.invalidate ls).Alike ({ e' with catalog := c' }.invalidate ls) :=
  ⟨h.settings_eq, hc, h.cache.invalidate_all ls, h.default_eq, h.chains_eq, h.active_eq⟩

theorem Alike.publish (h : e.Alike e') (loads : Except LoadError (List (Locale × Entries)))
    (mode : LoadMode) : (e.publish loads mode).Alike (e'.publish loads mode) := by
  cases loads with
  | error err => exact h
  | ok ls =>
    rw [Engine.publish, Engine.publish]
    obtain ⟨err, n, n', hl, hl'⟩ | ⟨versions, versions', d, d', hl, hl', hs⟩ :=
      Catalog.loadMany_cases h.bundles_eq ls mode
    · rw [hl, hl']
      exact ⟨h.settings_eq, h.bundles_eq, h.cache, h.default_eq, h.chains_eq, h.active_eq⟩
    · rw [hl, hl']
      exact h.invalidate hs (ls.map Prod.fst)

/-- Loads are answered with the same error, or with a number that is known beforehand. -/
theorem Alike.loadMany (h : e.Alike e') (loads : List (Locale × Entries)) (mode : LoadMode)
    (total : Nat) :
    ((e.catalog.loadMany loads mode).1.map fun _ => total) =
      (e'.catalog.loadMany loads mode).1.map fun _ => total := by
  obtain ⟨err, n, n', hl, hl'⟩ | ⟨versions, versions', d, d', hl, hl', -⟩ :=
    Catalog.loadMany_cases h.bundles_eq loads mode
  · rw [hl, hl']
  · rw [hl, hl']
    rfl

theorem load_fst (e : Engine) (l : Locale) (entries : List (String × String)) (mode : LoadMode) :
    (e.load l entries mode).1 =
      (checked l entries).bind fun x => (e.catalog.loadMany [(l, x)] mode).1.map fun _ => x.size := by
  rw [load]
  cases checked l entries with
  | error err => rfl
  | ok x =>
    rw [Except.bind, Catalog.loadMany_singleton]
    dsimp only
    rcases e.catalog.load l x mode with ⟨err | version, c⟩ <;> rfl

theorem loadFrom_fst (e : Engine) (loaded : Except LoadError (List BundleSource))
    (mode : LoadMode) :
    (e.loadFrom loaded mode).1 =
      (loaded.bind checkedAll).bind fun loads =>
        (e.catalog.loadMany loads mode).1.map fun _ => loads.foldl (fun n x => n + x.2.size) 0 := by
  rw [loadFrom]
  cases loaded.bind checkedAll with
  | error err => rfl
  | ok loads =>
    rw [Except.bind]
    dsimp only
    rcases e.catalog.loadMany loads mode with ⟨err | versions, c⟩ <;> rfl

theorem Alike.unload (h : e.Alike e') (l : Locale) :
    (e.unload l).1 = (e'.unload l).1 ∧ (e.unload l).2.Alike (e'.unload l).2 := by
  have hs : (e.catalog.snapshot.bundle? l).isSome = (e'.catalog.snapshot.bundle? l).isSome := by
    have hb := congrArg Option.isSome (congrFun h.bundles_eq l.tag)
    rw [Snapshot.unversioned, Snapshot.unversioned, Option.isSome_map, Option.isSome_map] at hb
    exact hb
  unfold Engine.unload Catalog.remove
  rw [hs]
  by_cases hl : (e'.catalog.snapshot.bundle? l).isSome
  · rw [if_pos hl, if_pos hl]
    refine ⟨rfl, h.invalidate ?_ [l]⟩
    dsimp only
    rw [Snapshot.unversioned_erase, Snapshot.unversioned_erase, h.bundles_eq]
  · rw [if_neg hl, if_neg hl]
    exact ⟨rfl, h⟩

/-! ## calls -/

/-- A call of an engine: an operation, or a question that needs no chain. -/
inductive Call where
  | operation (op : Operation)
  | evaluateText (template : String) (l : Locale) (args : Arguments)
  | compare (source target : Locale)
  | available
  | counts
  | default
  | active

/-- The answer to a call. -/
def answer (e : Engine) : Call → Answer
  | .operation (.load l entries mode) => .loaded (e.load l entries mode).1
  | .operation (.loadFrom loaded mode) => .loaded (e.loadFrom loaded mode).1
  | .operation (.unload l) => .flag (e.unload l).1
  | .operation (.setDefault _) | .operation (.setActive _) => .done
  | .operation (.query q) => e.reply q
  | .evaluateText template l args => .message (e.evaluateText template l args)
  | .compare source target => .findings (e.compare source target)
  | .available => .locales e.available
  | .counts => .counts e.cache.hits e.cache.builds
  | .default => .locale e.default
  | .active => .locale e.active

/-- The engine after a call. -/
def serve (e : Engine) : Call → Engine
  | .operation op => e.perform op
  | .evaluateText .. | .compare .. | .available | .counts | .default | .active => e

/-- The answers to one call after the other. -/
def answers (e : Engine) : List Call → List Answer
  | [] => []
  | call :: calls => e.answer call :: (e.serve call).answers calls

theorem Alike.perform (h : e.Alike e') (he : e.Coherent) (he' : e'.Coherent) (op : Operation) :
    e.answer (.operation op) = e'.answer (.operation op) ∧
      (e.perform op).Alike (e'.perform op) := by
  cases op with
  | load l entries mode =>
    rw [answer, answer, Engine.perform, Engine.perform, load_eq_publish, load_eq_publish, load_fst,
      load_fst]
    refine ⟨?_, h.publish _ mode⟩
    cases checked l entries with
    | error err => rfl
    | ok x => exact congrArg Answer.loaded (h.loadMany [(l, x)] mode x.size)
  | loadFrom loaded mode =>
    rw [answer, answer, Engine.perform, Engine.perform, loadFrom_eq_publish, loadFrom_eq_publish,
      loadFrom_fst, loadFrom_fst]
    refine ⟨?_, h.publish _ mode⟩
    cases loaded.bind checkedAll with
    | error err => rfl
    | ok loads => exact congrArg Answer.loaded (h.loadMany loads mode _)
  | unload l =>
    obtain ⟨hr, ha⟩ := h.unload l
    exact ⟨congrArg Answer.flag hr, ha⟩
  | setDefault l => exact ⟨rfl, h.settings_eq, h.bundles_eq, h.cache, rfl, rfl, h.active_eq⟩
  | setActive l => exact ⟨rfl, h.settings_eq, h.bundles_eq, h.cache, h.default_eq, h.chains_eq, rfl⟩
  | query q => exact h.ask he he' q

theorem Alike.compare (h : e.Alike e') (source target : Locale) :
    e.compare source target = e'.compare source target := by
  have hc : ∀ e : Engine, e.compare source target =
      ((e.catalog.snapshot.unversioned source.tag).bind fun s =>
        (e.catalog.snapshot.unversioned target.tag).map s.compare).getD [] := by
    intro e
    rw [Engine.compare, Snapshot.bundle?, Snapshot.bundle?, Snapshot.unversioned,
      Snapshot.unversioned]
    cases e.catalog.snapshot.bundles[source.tag]? <;>
      cases e.catalog.snapshot.bundles[target.tag]? <;> rfl
  rw [hc, hc, h.bundles_eq]

/-- Alike engines answer a call with the same and stay alike. -/
theorem Alike.serve (h : e.Alike e') (he : e.Coherent) (he' : e'.Coherent) (call : Call) :
    e.answer call = e'.answer call ∧ (e.serve call).Alike (e'.serve call) := by
  cases call with
  | operation op => exact h.perform he he' op
  | evaluateText template l args => exact ⟨congrArg Answer.message (h.evaluate _ template l args), h⟩
  | compare source target => exact ⟨congrArg Answer.findings (h.compare source target), h⟩
  | available => exact ⟨congrArg Answer.locales (Snapshot.locales_congr h.bundles_eq), h⟩
  | counts => exact ⟨congrArg₂ Answer.counts h.cache.hits_eq h.cache.builds_eq, h⟩
  | default => exact ⟨congrArg Answer.locale h.default_eq, h⟩
  | active => exact ⟨congrArg Answer.locale h.active_eq, h⟩

theorem Coherent.serve (he : e.Coherent) (call : Call) : (e.serve call).Coherent := by
  cases call with
  | operation op => exact he.perform op
  | evaluateText | compare | available | counts | default | active => exact he

/-- Alike engines cannot be told apart by calling them. -/
theorem Alike.answers_eq (h : e.Alike e') (he : e.Coherent) (he' : e'.Coherent)
    (calls : List Call) : e.answers calls = e'.answers calls := by
  induction calls generalizing e e' with
  | nil => rfl
  | cons call calls ih =>
    obtain ⟨hr, ha⟩ := h.serve he he' call
    rw [answers, answers, hr, ih ha (he.serve call) (he'.serve call)]

end Engine

end Phrasebook
