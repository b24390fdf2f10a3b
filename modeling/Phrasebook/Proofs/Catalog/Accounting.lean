import Mathlib.Algebra.BigOperators.Group.Finset.Basic
import Phrasebook.Proofs.Catalog.Requests

/-!
# Phrasebook.Proofs.Catalog.Accounting

What a template cache counts and holds, told from the requests it was given.

After a run of requests the partition of a locale has the greatest version that was asked
for, and the keys that were asked for at this version (`Mirrors`): a request for a newer
version starts it anew, one for an older version leaves it alone.  So a request is a hit
exactly if it was made before and no newer version of its locale was (`Repeated`), and
the number of templates can be counted off the requests (`size_served`).

Nothing is invalidated here; after that the requests before no longer tell what is held.
-/

namespace Phrasebook

namespace TemplateCache

/-! ## requests -/

/-- A request for the template of a raw text. -/
structure Request where
  locale : Locale
  key : String
  version : UInt64
  raw : String

namespace Request

/-- What tells requests apart, whatever raw text they carry. -/
def triple (r : Request) : Locale × String × UInt64 := (r.locale, r.key, r.version)

theorem eq_triple_iff {r : Request} {l : Locale} {key : String} {version : UInt64} :
    (l, key, version) = r.triple ↔ l = r.locale ∧ key = r.key ∧ version = r.version := by
  rw [triple, Prod.mk.injEq, Prod.mk.injEq]

/-- The call of the cache. -/
def call (r : Request) : Operation := .get r.locale r.key r.version r.raw

end Request

/-- The cache after requests to a new one. -/
def served (rs : List Request) : TemplateCache := empty.run (rs.map Request.call)

/-- No request for the locale asks for a greater version. -/
def Latest (rs : List Request) (l : Locale) (version : UInt64) : Prop :=
  ∀ r ∈ rs, r.locale = l → r.version ≤ version

instance (rs : List Request) (l : Locale) (version : UInt64) : Decidable (Latest rs l version) :=
  inferInstanceAs (Decidable (∀ r ∈ rs, r.locale = l → r.version ≤ version))

/-- The triple of a request was asked for before, and no greater version of its locale. -/
def Repeated (before : List Request) (r : Request) : Prop :=
  r.triple ∈ before.map Request.triple ∧ Latest before r.locale r.version

instance (before : List Request) (r : Request) : Decidable (Repeated before r) :=
  inferInstanceAs (Decidable (_ ∧ _))

/-- The keys that are asked for at the greatest version of a locale. -/
def latestKeys (rs : List Request) (l : Locale) : Finset String :=
  ((rs.filter fun r => r.locale = l ∧ Latest rs l r.version).map Request.key).toFinset

/-- No request asks for a smaller version than one before it for the same locale. -/
def Ascending (rs : List Request) : Prop :=
  rs.Pairwise fun r r' => r.locale = r'.locale → r.version ≤ r'.version

/-- The requests of a run that are counted as builds: for each of them a template is parsed. -/
def parsed (c : TemplateCache) : List Request → List Request
  | [] => []
  | r :: rs =>
    let rest := (c.perform r.call).parsed rs
    if (c.perform r.call).builds = c.builds then rest else r :: rest

variable {c : TemplateCache} {rs : List Request} {r : Request} {l : Locale} {version : UInt64}

theorem served_concat (rs : List Request) (r : Request) :
    served (rs ++ [r]) = (served rs).perform r.call := by
  simp [served, run]

theorem latest_concat :
    Latest (rs ++ [r]) l version ↔ Latest rs l version ∧ (r.locale = l → r.version ≤ version) := by
  simp [Latest, or_imp, forall_and]

theorem mem_triples_concat {t : Locale × String × UInt64} :
    t ∈ (rs ++ [r]).map Request.triple ↔ t ∈ rs.map Request.triple ∨ t = r.triple := by
  rw [List.map_append, List.mem_append, List.map_singleton, List.mem_singleton]

/-- A triple is not asked for if all requests for its locale are for other versions. -/
theorem not_mem_triples {key : String}
    (h : ∀ r ∈ rs, r.locale = l → r.version ≠ version) :
    (l, key, version) ∉ rs.map Request.triple := by
  intro hm
  obtain ⟨r, hr, ht⟩ := List.mem_map.1 hm
  cases ht
  exact h r hr rfl rfl

end TemplateCache

/-! ## partitions -/

/-- A partition is at the greatest version of a locale, or later, and has the keys that were
asked for at its version. -/
structure Partition.Collects (p : Partition) (l : Locale) (rs : List TemplateCache.Request) :
    Prop where
  latest : TemplateCache.Latest rs l p.version
  mem_iff : ∀ key, key ∈ p.templates ↔
    (l, key, p.version) ∈ rs.map TemplateCache.Request.triple

namespace Partition

open TemplateCache

variable {p : Partition} {rs : List Request} {r : Request} {l : Locale} {version : UInt64}

/-- A new partition is for a version that was not asked for. -/
theorem collects_empty (h : ∀ r ∈ rs, r.locale = l → r.version < version) :
    (empty version).Collects l rs where
  latest r hr hl := UInt64.le_of_lt (h r hr hl)
  mem_iff key := by
    refine iff_of_false Std.TreeMap.not_mem_emptyc (not_mem_triples fun r hr hl hv => ?_)
    exact UInt64.lt_irrefl _ (hv ▸ h r hr hl)

/-- Requests for other locales and for older versions are not collected. -/
theorem Collects.concat_of_lt (hp : p.Collects l rs) (h : r.locale = l → r.version < p.version) :
    p.Collects l (rs ++ [r]) where
  latest := latest_concat.2 ⟨hp.latest, fun hl => UInt64.le_of_lt (h hl)⟩
  mem_iff key := by
    have hne : (l, key, p.version) ≠ r.triple := by
      intro ht
      obtain ⟨hl, -, hv⟩ := Request.eq_triple_iff.1 ht
      exact UInt64.lt_irrefl _ (hv ▸ h hl.symm)
    rw [hp.mem_iff, mem_triples_concat, or_iff_left hne]

/-- A request at the version of a partition adds its key. -/
theorem Collects.concat (hp : p.Collects r.locale rs) (hv : p.version = r.version) {q : Partition}
    (hq : q.version = p.version)
    (hm : ∀ key, key ∈ q.templates ↔ key ∈ p.templates ∨ key = r.key) :
    q.Collects r.locale (rs ++ [r]) where
  latest := latest_concat.2 ⟨hq ▸ hp.latest, fun _ => hq ▸ hv ▸ UInt64.le_refl _⟩
  mem_iff key := by
    have ht : (r.locale, key, q.version) = r.triple ↔ key = r.key := by
      rw [Request.eq_triple_iff, hq, hv]
      simp
    rw [hm, hp.mem_iff, mem_triples_concat, ht, hq]

theorem Collects.concat_of_mem (hp : p.Collects r.locale rs) (hv : p.version = r.version)
    (hk : r.key ∈ p.templates) : p.Collects r.locale (rs ++ [r]) :=
  hp.concat hv rfl fun _ => (or_iff_left_of_imp fun h => h ▸ hk).symm

theorem Collects.insert (hp : p.Collects r.locale rs) (hv : p.version = r.version)
    (t : Template) :
    Partition.Collects { p with templates := p.templates.insert r.key t } r.locale (rs ++ [r]) :=
  hp.concat hv rfl fun key => by
    rw [Std.TreeMap.mem_insert, Std.LawfulEqCmp.compare_eq_iff_eq, or_comm, eq_comm]

end Partition

namespace TemplateCache

variable {c : TemplateCache} {rs : List Request} {r : Request} {l : Locale}

/-! ## what a run leaves -/

/-- There is a partition for each locale that was asked for, at its greatest version. -/
structure Mirrors (c : TemplateCache) (rs : List Request) : Prop where
  exists_partition : ∀ r ∈ rs, ∃ p, c.partitions[r.locale.tag]? = some p
  partition : ∀ (tag : String) (p : Partition), c.partitions[tag]? = some p →
    ∃ r ∈ rs, r.locale.tag = tag ∧ r.version = p.version ∧ p.Collects r.locale rs

theorem mirrors_empty : empty.Mirrors [] where
  exists_partition r hr := absurd hr List.not_mem_nil
  partition tag p hp := by
    rw [empty, Std.TreeMap.getElem?_emptyc] at hp
    cases hp

theorem Mirrors.collects (hc : c.Mirrors rs) {p : Partition}
    (hp : c.partitions[l.tag]? = some p) :
    (∃ r ∈ rs, r.locale = l ∧ r.version = p.version) ∧ p.Collects l rs := by
  obtain ⟨r, hr, ht, hv, hpc⟩ := hc.partition _ p hp
  obtain rfl := Locale.tag_injective ht
  exact ⟨⟨r, hr, rfl, hv⟩, hpc⟩

/-- A partition that a request looks in has its version and collects. -/
theorem Mirrors.partition? (hc : c.Mirrors rs) {p : Partition}
    (hp : c.partition? r.locale r.version = some p) :
    p.version = r.version ∧ p.Collects r.locale rs := by
  obtain ⟨h, -⟩ | ⟨q, h, hq, hv⟩ | ⟨h, hlt⟩ := c.partition?_cases r.locale r.version
  · rw [h] at hp
    cases hp
  · obtain rfl : q = p := Option.some.inj (h.symm.trans hp)
    exact ⟨hv, (hc.collects hq).2⟩
  · obtain rfl : .empty r.version = p := Option.some.inj (h.symm.trans hp)
    refine ⟨rfl, Partition.collects_empty fun r' hr' hl => ?_⟩
    obtain ⟨q, hq⟩ := hc.exists_partition r' hr'
    rw [hl] at hq
    exact UInt64.lt_of_le_of_lt ((hc.collects hq).2.latest r' hr' hl) (hlt q hq)

/-- A request that finds a newer version leaves the partitions. -/
theorem Mirrors.concat_of_lt (hc : c.Mirrors rs) {p : Partition}
    (hp : c.partitions[r.locale.tag]? = some p) (hlt : r.version < p.version) (hits builds : UInt64) :
    Mirrors ⟨c.partitions, hits, builds⟩ (rs ++ [r]) where
  exists_partition := by
    simp only [List.forall_mem_append, List.forall_mem_singleton]
    exact ⟨hc.exists_partition, p, hp⟩
  partition tag q hq := by
    obtain ⟨r', hr', ht, hv, hqc⟩ := hc.partition tag q hq
    refine ⟨r', List.mem_append_left _ hr', ht, hv, hqc.concat_of_lt fun hl => ?_⟩
    rw [hl, ht, hq] at hp
    cases hp
    exact hlt

/-- Otherwise the partition of its locale is replaced by one that collects it. -/
theorem Mirrors.concat (hc : c.Mirrors rs) {p : Partition}
    (hp : p.Collects r.locale (rs ++ [r])) (hv : p.version = r.version) (hits builds : UInt64) :
    Mirrors ⟨c.partitions.insert r.locale.tag p, hits, builds⟩ (rs ++ [r]) where
  exists_partition r' hr' := by
    simp only [Std.TreeMap.getElem?_insert, Std.LawfulEqCmp.compare_eq_iff_eq]
    split
    · exact ⟨p, rfl⟩
    · next ht =>
      rcases List.mem_append.1 hr' with hr' | hr'
      · exact hc.exists_partition r' hr'
      · exact absurd (List.mem_singleton.1 hr' ▸ rfl) ht
  partition tag q hq := by
    obtain ⟨ht, rfl⟩ | ⟨ht, hq⟩ := getElem?_insert_cases hq
    · exact ⟨r, List.mem_append_right _ List.mem_cons_self, ht, hv.symm, hp⟩
    · obtain ⟨r', hr', ht', hv', hqc⟩ := hc.partition tag q hq
      refine ⟨r', List.mem_append_left _ hr', ht', hv', hqc.concat_of_lt fun hl => ?_⟩
      exact absurd (hl ▸ ht') ht

/-- One request: it is counted as a hit if it is repeated and as a build otherwise, and the
cache goes on to mirror the requests. -/
theorem Mirrors.get (hc : c.Mirrors rs) (r : Request) :
    ((c.perform r.call).hits, (c.perform r.call).builds) =
      (if Repeated rs r then (c.hits + 1, c.builds) else (c.hits, c.builds + 1)) ∧
    (c.perform r.call).Mirrors (rs ++ [r]) := by
  rw [Request.call, perform, TemplateCache.getOrBuild]
  obtain ⟨hp, q, hq, hlt⟩ | h := c.partition?_cases r.locale r.version
  · have hr : ¬ Repeated rs r := by
      intro hr
      obtain ⟨⟨r', hr', hl, hv⟩, -⟩ := hc.collects hq
      exact UInt64.not_le.2 hlt (hv ▸ hr.2 r' hr' hl)
    rw [hp, if_neg hr]
    exact ⟨rfl, hc.concat_of_lt hq hlt _ _⟩
  · obtain ⟨p, hp⟩ : ∃ p, c.partition? r.locale r.version = some p := by
      obtain ⟨p, hp, -⟩ | ⟨hp, -⟩ := h <;> exact ⟨_, hp⟩
    obtain ⟨hv, hpc⟩ := hc.partition? hp
    have hm : r.key ∈ p.templates ↔ Repeated rs r := by
      rw [hpc.mem_iff, Repeated, ← hv, and_iff_left hpc.latest, hv, Request.triple]
    rw [hp]
    dsimp only
    cases ht : p.templates[r.key]? with
    | some t =>
      have hk : r.key ∈ p.templates := by
        rw [Std.TreeMap.mem_iff_isSome_getElem?, ht, Option.isSome_some]
      rw [if_pos (hm.1 hk)]
      exact ⟨rfl, hc.concat (hpc.concat_of_mem hv hk) hv _ _⟩
    | none =>
      have hk : r.key ∉ p.templates := by
        rw [Std.TreeMap.mem_iff_isSome_getElem?, ht]
        exact Bool.false_ne_true
      rw [if_neg fun h => hk (hm.2 h)]
      dsimp only
      exact ⟨rfl, hc.concat (hpc.insert hv _) hv _ _⟩

theorem mirrors_served (rs : List Request) : (served rs).Mirrors rs := by
  -- request by request from the end: `Mirrors` speaks of all that came before
  induction rs using List.reverseRecOn with
  | nil => exact mirrors_empty
  | append_singleton rs r ih => exact served_concat rs r ▸ (ih.get r).2

/-- The number of templates, partition by partition. -/
theorem size_eq_sum (c : TemplateCache) :
    c.size = ∑ tag ∈ c.partitions.keys.toFinset,
      ((c.partitions[tag]?).elim 0 fun p => p.templates.size) := by
  have hf : c.size = (c.partitions.toList.map fun x => x.2.templates.size).sum := by
    rw [size, Std.TreeMap.foldl_eq_foldl_toList, List.sum_eq_foldl, List.foldl_map]
  have hm : c.partitions.toList.map (fun x => x.2.templates.size) =
      c.partitions.keys.map fun tag =>
        (c.partitions[tag]?).elim 0 fun p => p.templates.size := by
    rw [← Std.TreeMap.map_fst_toList_eq_keys, List.map_map]
    refine List.map_congr_left fun x hx => ?_
    rw [Function.comp_apply, Std.TreeMap.mem_toList_iff_getElem?_eq_some.1 hx, Option.elim_some]
  rw [hf, hm, List.sum_toFinset _ Std.TreeMap.nodup_keys]

/-- The tags of the partitions are those of the locales that were asked for. -/
theorem Mirrors.toFinset_keys (hc : c.Mirrors rs) :
    c.partitions.keys.toFinset = (rs.map Request.locale).toFinset.image Locale.tag := by
  ext tag
  rw [List.mem_toFinset, Std.TreeMap.mem_keys, Std.TreeMap.mem_iff_isSome_getElem?,
    Option.isSome_iff_exists, Finset.mem_image]
  constructor
  · rintro ⟨p, hp⟩
    obtain ⟨r, hr, ht, -⟩ := hc.partition tag p hp
    exact ⟨r.locale, List.mem_toFinset.2 (List.mem_map_of_mem hr), ht⟩
  · rintro ⟨l, hl, rfl⟩
    obtain ⟨r, hr, rfl⟩ := List.mem_map.1 (List.mem_toFinset.1 hl)
    exact hc.exists_partition r hr

/-- A partition has the keys that are asked for at the greatest version of its locale. -/
theorem Mirrors.toFinset_templates (hc : c.Mirrors rs) {p : Partition}
    (hp : c.partitions[l.tag]? = some p) : p.templates.keys.toFinset = latestKeys rs l := by
  obtain ⟨⟨r, hr, hl, hv⟩, hpc⟩ := hc.collects hp
  ext key
  rw [List.mem_toFinset, Std.TreeMap.mem_keys, hpc.mem_iff, latestKeys, List.mem_toFinset,
    List.mem_map, List.mem_map]
  constructor
  · rintro ⟨x, hx, ht⟩
    obtain ⟨rfl, rfl, hv⟩ := Request.eq_triple_iff.1 ht.symm
    exact ⟨x, List.mem_filter.2 ⟨hx, decide_eq_true ⟨rfl, hv ▸ hpc.latest⟩⟩, rfl⟩
  · rintro ⟨x, hx, rfl⟩
    obtain ⟨hx, hd⟩ := List.mem_filter.1 hx
    obtain ⟨hxl, hlatest⟩ := of_decide_eq_true hd
    have hle : p.version ≤ x.version := hv ▸ hlatest r hr hl
    have hxv : p.version = x.version := UInt64.le_antisymm hle (hpc.latest x hx hxl)
    exact ⟨x, hx, (Request.eq_triple_iff.2 ⟨hxl.symm, rfl, hxv⟩).symm⟩

theorem size_served (rs : List Request) :
    (served rs).size = ∑ l ∈ (rs.map Request.locale).toFinset, (latestKeys rs l).card := by
  have hc := mirrors_served rs
  rw [size_eq_sum, hc.toFinset_keys, Finset.sum_image fun _ _ _ _ h => Locale.tag_injective h]
  refine Finset.sum_congr rfl fun l hl => ?_
  obtain ⟨r, hr, rfl⟩ := List.mem_map.1 (List.mem_toFinset.1 hl)
  obtain ⟨p, hp⟩ := hc.exists_partition r hr
  rw [hp, Option.elim_some, ← hc.toFinset_templates hp,
    List.toFinset_card_of_nodup Std.TreeMap.nodup_keys, Std.TreeMap.length_keys]

/-! ## parses -/

theorem parsed_append (c : TemplateCache) (rs rs' : List Request) :
    c.parsed (rs ++ rs') = c.parsed rs ++ (c.run (rs.map Request.call)).parsed rs' := by
  induction rs generalizing c with
  | nil => rfl
  | cons r rs ih =>
    have hr : c.run ((r :: rs).map Request.call) =
        (c.perform r.call).run (rs.map Request.call) := rfl
    rw [List.cons_append, parsed, parsed, ih, hr]
    split <;> simp

/-- The requests that are not hits are parsed. -/
theorem parsed_concat (rs : List Request) (r : Request) :
    empty.parsed (rs ++ [r]) = empty.parsed rs ++ if Repeated rs r then [] else [r] := by
  have hg := ((mirrors_served rs).get r).1
  rw [parsed_append, ← served, parsed, parsed]
  by_cases hr : Repeated rs r
  · rw [if_pos hr] at hg
    rw [if_pos hr, if_pos (Prod.mk.inj hg).2]
  · rw [if_neg hr] at hg
    have hb : ((served rs).perform r.call).builds ≠ (served rs).builds := by
      rw [(Prod.mk.inj hg).2, ne_eq, UInt64.add_eq_left]
      decide
    rw [if_neg hr, if_neg hb]

/-- If the versions of a locale never decrease, every triple is parsed when it is asked for the
first time, and never again. -/
theorem count_parsed (h : Ascending rs) (t : Locale × String × UInt64) :
    ((empty.parsed rs).map Request.triple).count t =
      if t ∈ rs.map Request.triple then 1 else 0 := by
  induction rs using List.reverseRecOn with
  | nil => rfl
  | append_singleton rs r ih =>
    obtain ⟨hrs, -, hlast⟩ := List.pairwise_append.1 h
    have hl : Latest rs r.locale r.version := fun x hx hxl => hlast x hx r List.mem_cons_self hxl
    have hrep : Repeated rs r ↔ r.triple ∈ rs.map Request.triple := and_iff_left hl
    rw [parsed_concat, List.map_append, List.count_append, ih hrs]
    simp only [mem_triples_concat, hrep]
    by_cases ht : t = r.triple
    · by_cases hm : r.triple ∈ rs.map Request.triple <;> simp [ht, hm]
    · by_cases hm : r.triple ∈ rs.map Request.triple <;> simp [ht, hm, Ne.symm ht]

/-- The counts and the size of a cache can be told from the requests to it.  A request is a hit
exactly if the same triple was asked for before and no greater version of its locale was, and
a build otherwise; the templates are, locale by locale, one for each key that was asked for at
the greatest version; and if the versions of a locale never decrease, every triple is
parsed exactly once. -/
theorem accounts_served :
    (∀ before r, ((served (before ++ [r])).hits, (served (before ++ [r])).builds) =
      if Repeated before r then ((served before).hits + 1, (served before).builds)
      else ((served before).hits, (served before).builds + 1)) ∧
    (∀ rs, (served rs).size =
      ∑ l ∈ (rs.map Request.locale).toFinset, (latestKeys rs l).card) ∧
    ∀ rs, Ascending rs → ∀ r ∈ rs, ((empty.parsed rs).map Request.triple).count r.triple = 1 := by
  refine ⟨fun before r => ?_, size_served, fun rs h r hr => ?_⟩
  · rw [served_concat]
    exact ((mirrors_served before).get r).1
  · rw [count_parsed h, if_pos (List.mem_map_of_mem hr)]

/-- English is asked for at two versions, German in between. -/
def alternating : List Request :=
  [⟨.english, "k", 1, "a"⟩, ⟨.german, "k", 5, "b"⟩, ⟨.english, "k", 1, "a"⟩,
    ⟨.english, "k", 2, "c"⟩, ⟨.german, "k", 5, "b"⟩]

theorem accounts_served_alternating :
    Ascending alternating ∧
      ((empty.parsed alternating).map Request.triple).count (.english, "k", 1) = 1 := by
  have h : Ascending alternating := by
    unfold Ascending
    decide +kernel
  exact ⟨h, accounts_served.2.2 alternating h ⟨.english, "k", 1, "a"⟩ List.mem_cons_self⟩

end TemplateCache

end Phrasebook
