import Phrasebook.TemplateCache
import Phrasebook.Proofs.Catalog.Contents

/-!
# Phrasebook.Proofs.Catalog.Cache

The template cache beside the snapshot that readers look at.

A cache fits a snapshot if each partition has the version of a loaded bundle and
holds parses of raw templates that this bundle has.  A cache that fits answers with the
parse of the raw text it is asked for, and goes on to fit.  That two bundles have
different versions is not needed for it: publishing drops the partitions of the
locales whose bundles change (`Fits.invalidate_all`).
-/

namespace Phrasebook

/-- Every template of a partition is the parse of a raw text that goes with its key. -/
def Partition.Holds (p : Partition) (raws : String → String → Prop) : Prop :=
  ∀ key t, p.templates[key]? = some t → ∃ raw, raws key raw ∧ t = Template.parse raw

theorem Partition.holds_empty (version : UInt64) (raws : String → String → Prop) :
    (empty version).Holds raws := by
  intro key t h
  rw [empty, Std.TreeMap.getElem?_emptyc] at h
  cases h

theorem Partition.Holds.insert {p : Partition} {raws : String → String → Prop}
    (hp : p.Holds raws) {key raw : String} (hr : raws key raw) :
    Partition.Holds { p with templates := p.templates.insert key (.parse raw) } raws := by
  intro k t h
  obtain ⟨rfl, rfl⟩ | ⟨-, h⟩ := getElem?_insert_cases h
  · exact ⟨raw, hr, rfl⟩
  · exact hp k t h

/-- A partition of parses of templates that a bundle has, at the version of the bundle. -/
structure Partition.Parses (p : Partition) (b : Bundle) : Prop where
  version_eq : p.version = b.version
  parse_eq : ∀ key t, p.templates[key]? = some t →
    ∃ raw, b.get? key = some raw ∧ t = Template.parse raw

theorem Partition.parses_empty (b : Bundle) : (Partition.empty b.version).Parses b where
  version_eq := rfl
  parse_eq := holds_empty b.version fun key raw => b.get? key = some raw

theorem Partition.Parses.insert {p : Partition} {b : Bundle} (hp : p.Parses b)
    {key raw : String} (hr : b.get? key = some raw) :
    Partition.Parses { p with templates := p.templates.insert key (.parse raw) } b where
  version_eq := hp.version_eq
  parse_eq := Holds.insert hp.parse_eq hr

namespace TemplateCache

/-- A request finds a newer partition, which is out of reach, or one of its version; or it finds
none or an older one, and looks in a new one. -/
theorem partition?_cases (c : TemplateCache) (l : Locale) (version : UInt64) :
    (c.partition? l version = none ∧
      ∃ p, c.partitions[l.tag]? = some p ∧ version < p.version) ∨
    (∃ p, c.partition? l version = some p ∧ c.partitions[l.tag]? = some p ∧
      p.version = version) ∨
    (c.partition? l version = some (.empty version) ∧
      ∀ p, c.partitions[l.tag]? = some p → p.version < version) := by
  unfold partition?
  cases hp : c.partitions[l.tag]? with
  | none => exact .inr (.inr ⟨rfl, fun p h => by cases h⟩)
  | some p =>
    dsimp only
    split
    · next hv => exact .inr (.inl ⟨p, rfl, rfl, hv⟩)
    · next hne =>
      split
      · next hlt => exact .inr (.inr ⟨rfl, fun q h => Option.some.inj h ▸ hlt⟩)
      · next hlt =>
        have hle : version ≤ p.version := UInt64.not_lt.1 hlt
        exact .inl ⟨rfl, p, rfl, UInt64.lt_of_le_of_ne hle (Ne.symm hne)⟩

/-- Every partition holds parses of templates of a bundle of the snapshot. -/
def Fits (c : TemplateCache) (s : Snapshot) : Prop :=
  ∀ (tag : String) (p : Partition), c.partitions[tag]? = some p →
    ∃ b : Bundle, s.bundles[tag]? = some b ∧ p.Parses b

theorem fits_empty (s : Snapshot) : empty.Fits s := by
  intro tag p h
  rw [empty, Std.TreeMap.getElem?_emptyc] at h
  cases h

variable {c : TemplateCache} {s : Snapshot} {b : Bundle}

/-- The partition for a bundle of the snapshot is the one of its locale, or a new one. -/
theorem Fits.partition?_eq (hc : c.Fits s) (hb : s.bundle? b.locale = some b) :
    c.partition? b.locale b.version =
      some (c.partitions[b.locale.tag]?.getD (.empty b.version)) := by
  unfold TemplateCache.partition?
  cases hp : c.partitions[b.locale.tag]? with
  | none => rfl
  | some p =>
    obtain ⟨b', hb', hpb⟩ := hc _ p hp
    obtain rfl : b = b' := Option.some.inj (hb.symm.trans hb')
    exact if_pos hpb.version_eq

/-- The partition for a bundle of the snapshot is up to date, or is a new one. -/
theorem Fits.partition? (hc : c.Fits s) (hb : s.bundle? b.locale = some b) :
    ∃ p, c.partition? b.locale b.version = some p ∧ p.Parses b := by
  refine ⟨_, hc.partition?_eq hb, ?_⟩
  cases hp : c.partitions[b.locale.tag]? with
  | none => exact Partition.parses_empty b
  | some p =>
    obtain ⟨b', hb', hpb⟩ := hc _ p hp
    obtain rfl : b = b' := Option.some.inj (hb.symm.trans hb')
    exact hpb

theorem Fits.insert (hc : c.Fits s) (hb : s.bundle? b.locale = some b) {p : Partition}
    (hp : p.Parses b) (hits builds : UInt64) :
    Fits ⟨c.partitions.insert b.locale.tag p, hits, builds⟩ s := by
  intro tag q h
  obtain ⟨rfl, rfl⟩ | ⟨-, h⟩ := getElem?_insert_cases h
  · exact ⟨b, hb, hp⟩
  · exact hc tag q h

/-- A cache that fits answers a request for a template of a bundle with its parse. -/
theorem Fits.getOrBuild (hc : c.Fits s) (hb : s.bundle? b.locale = some b) {key raw : String}
    (hr : b.get? key = some raw) :
    (c.getOrBuild b.locale key b.version raw).1 = .parse raw ∧
      (c.getOrBuild b.locale key b.version raw).2.Fits s := by
  obtain ⟨p, hp, hpb⟩ := hc.partition? hb
  rw [TemplateCache.getOrBuild, hp]
  dsimp only
  split
  · next t ht =>
    obtain ⟨raw', hr', rfl⟩ := hpb.parse_eq key t ht
    obtain rfl : raw = raw' := Option.some.inj (hr.symm.trans hr')
    exact ⟨rfl, hc.insert hb hpb _ _⟩
  · exact ⟨rfl, hc.insert hb (hpb.insert hr) _ _⟩

/-- Invalidating locales leaves the partitions of the others. -/
theorem getElem?_invalidate_all (ls : List Locale) (c : TemplateCache) {tag : String}
    {p : Partition} (h : (ls.foldl invalidate c).partitions[tag]? = some p) :
    c.partitions[tag]? = some p ∧ ∀ l ∈ ls, l.tag ≠ tag := by
  induction ls generalizing c with
  | nil => exact ⟨h, by simp⟩
  | cons l ls ih =>
    obtain ⟨hp, hl⟩ := ih (c.invalidate l) h
    obtain ⟨ht, hp⟩ := getElem?_erase_cases hp
    exact ⟨hp, List.forall_mem_cons.2 ⟨ht, hl⟩⟩

/-- A new snapshot fits if the locales whose bundles it changes are invalidated. -/
theorem Fits.invalidate_all (hc : c.Fits s) {s' : Snapshot} {ls : List Locale}
    (hs : ∀ tag, (∀ l ∈ ls, l.tag ≠ tag) → s'.bundles[tag]? = s.bundles[tag]?) :
    (ls.foldl invalidate c).Fits s' := by
  intro tag p h
  obtain ⟨hp, hl⟩ := getElem?_invalidate_all ls c h
  rw [hs tag hl]
  exact hc tag p hp

end TemplateCache

end Phrasebook
