import Phrasebook.Proofs.Catalog.Cache
import Phrasebook.Proofs.Catalog.Versions

/-!
# Phrasebook.Proofs.Catalog.Requests

Runs of a template cache: no template is stale.

Here the cache stands alone, and versions may be asked for in any order.  All that is
needed is that requests of one locale, key and version carry one raw text
(`Consistent`); then what a partition holds was parsed for requests at its own version
(`Knows`), and every answer is the parse of the raw text that was given.

A catalog supplies what is needed: requests for templates of published bundles are
consistent, because the version of a bundle tells which one it is.
-/

namespace Phrasebook

namespace TemplateCache

/-! ## calls -/

/-- A call of a cache. -/
inductive Operation where
  | get (l : Locale) (key : String) (version : UInt64) (raw : String)
  | invalidate (l : Locale)
  | clear

/-- The cache after a call. -/
def perform (c : TemplateCache) : Operation → TemplateCache
  | .get l key version raw => (c.getOrBuild l key version raw).2
  | .invalidate l => c.invalidate l
  | .clear => c.clear

/-- The cache after one call after the other. -/
def run (c : TemplateCache) (ops : List Operation) : TemplateCache := ops.foldl perform c

/-- Requests of one locale, key and version carry one raw text. -/
def Consistent (ops : List Operation) : Prop :=
  ∀ l key version raw raw', .get l key version raw ∈ ops → .get l key version raw' ∈ ops →
    raw = raw'

/-! ## what the cache holds -/

/-- Every template that can be asked for was parsed for a request at the version of its
partition. -/
def Knows (c : TemplateCache) (ops : List Operation) : Prop :=
  ∀ (l : Locale) (p : Partition), c.partitions[l.tag]? = some p →
    p.Holds fun key raw => .get l key p.version raw ∈ ops

variable {c : TemplateCache} {ops : List Operation} {l : Locale} {key raw : String}
  {version : UInt64}

theorem knows_empty (ops : List Operation) : empty.Knows ops := by
  intro l p h
  rw [empty, Std.TreeMap.getElem?_emptyc] at h
  cases h

/-- The partition that a request looks in has the version that is asked for: an older one is
not looked in, a newer one is out of reach. -/
theorem Knows.partition? (hc : c.Knows ops) {p : Partition}
    (hp : c.partition? l version = some p) :
    p.version = version ∧ p.Holds fun key raw => .get l key p.version raw ∈ ops := by
  obtain ⟨h, -⟩ | ⟨q, h, hq, hv⟩ | ⟨h, -⟩ := c.partition?_cases l version
  · rw [h] at hp
    cases hp
  · obtain rfl : q = p := Option.some.inj (h.symm.trans hp)
    exact ⟨hv, hc l q hq⟩
  · obtain rfl : .empty version = p := Option.some.inj (h.symm.trans hp)
    exact ⟨rfl, Partition.holds_empty version _⟩

theorem Knows.insert (hc : c.Knows ops) {p : Partition}
    (hp : p.Holds fun key raw => .get l key p.version raw ∈ ops) (hits builds : UInt64) :
    Knows ⟨c.partitions.insert l.tag p, hits, builds⟩ ops := by
  intro l' q h
  obtain ⟨hl, rfl⟩ | ⟨-, h⟩ := getElem?_insert_cases h
  · exact Locale.tag_injective hl ▸ hp
  · exact hc l' q h

/-- A request is answered with what was parsed for it or for one of its kind. -/
theorem Knows.getOrBuild (hc : c.Knows ops) (hr : .get l key version raw ∈ ops) :
    (∃ raw', .get l key version raw' ∈ ops ∧
      (c.getOrBuild l key version raw).1 = .parse raw') ∧
    (c.getOrBuild l key version raw).2.Knows ops := by
  rw [TemplateCache.getOrBuild]
  cases hp : c.partition? l version with
  | none => exact ⟨⟨raw, hr, rfl⟩, hc⟩
  | some p =>
    obtain ⟨rfl, hpo⟩ := hc.partition? hp
    dsimp only
    split
    · next t ht => exact ⟨hpo key t ht, hc.insert hpo _ _⟩
    · exact ⟨⟨raw, hr, rfl⟩, hc.insert (hpo.insert hr) _ _⟩

/-! ## runs -/

theorem Knows.perform (hc : c.Knows ops) {op : Operation} (h : op ∈ ops) :
    (c.perform op).Knows ops := by
  cases op with
  | get l key version raw => exact (hc.getOrBuild h).2
  | invalidate l =>
    intro l' p hp
    exact hc l' p (getElem?_erase_cases hp).2
  | clear =>
    intro l p hp
    rw [TemplateCache.perform, TemplateCache.clear, Std.TreeMap.getElem?_emptyc] at hp
    cases hp

theorem Knows.run (hc : c.Knows ops) {before : List Operation} (h : before ⊆ ops) :
    (c.run before).Knows ops := by
  induction before generalizing c with
  | nil => exact hc
  | cons op before ih =>
    obtain ⟨ho, hb⟩ := List.cons_subset.1 h
    exact ih (hc.perform ho) hb

/-- In a run of consistent requests every one is answered with the parse of its raw text. -/
theorem getOrBuild_of_consistent {before after : List Operation}
    (h : Consistent (before ++ .get l key version raw :: after)) :
    ((empty.run before).getOrBuild l key version raw).1 = .parse raw := by
  have hr : .get l key version raw ∈ before ++ .get l key version raw :: after :=
    List.mem_append_right _ List.mem_cons_self
  have hk := (knows_empty _).run (List.subset_append_left before (.get l key version raw :: after))
  obtain ⟨raw', hr', ht⟩ := (hk.getOrBuild hr).1
  rw [ht, h l key version raw raw' hr hr']

/-! ## requests for published templates -/

/-- Every request is for a template of a bundle that a run of a catalog publishes. -/
def Supplied (ops : List Operation) (loads : List Catalog.Operation) : Prop :=
  ∀ l key version raw, .get l key version raw ∈ ops →
    ∃ b, Catalog.Published loads b ∧ b.locale = l ∧ b.version = version ∧ b.get? key = some raw

theorem Supplied.consistent {loads : List Catalog.Operation} (h : Supplied ops loads)
    (hl : (Catalog.empty.history loads).length < UInt64.size) : Consistent ops := by
  intro l key version raw raw' hr hr'
  obtain ⟨b, hb, -, hv, hk⟩ := h l key version raw hr
  obtain ⟨b', hb', -, hv', hk'⟩ := h l key version raw' hr'
  obtain rfl : b = b' := Catalog.published_unique hl hb hb' (hv.trans hv'.symm)
  exact Option.some.inj (hk.symm.trans hk')

/-- A cached template is never stale: if requests of one locale, key and version carry one
raw text, every request of a run is answered with the parse of the text it carries.  A
run of a catalog that stages fewer than 2^64 bundles gives each a greater version than all
before it, failed loads included; every published bundle is one of them, and those of one
version are the same, so that requests for their templates are consistent. -/
theorem answers_never_stale :
    (∀ before after l key version raw,
      Consistent (before ++ .get l key version raw :: after) →
        ((empty.run before).getOrBuild l key version raw).1 = .parse raw) ∧
    ∀ loads : List Catalog.Operation, (Catalog.empty.history loads).length < UInt64.size →
      ((Catalog.empty.history loads).map Catalog.Staging.version).Pairwise (· < ·) ∧
      (∀ b, Catalog.Published loads b → ∃ x ∈ Catalog.empty.history loads, x.make = .ok b) ∧
      (∀ b b', Catalog.Published loads b → Catalog.Published loads b' →
        b.version = b'.version → b = b') ∧
      ∀ ops, Supplied ops loads → Consistent ops := by
  refine ⟨fun _ _ _ _ _ _ => getOrBuild_of_consistent, fun loads hl => ?_⟩
  exact ⟨Catalog.history_ascending hl, fun _ => Catalog.exists_history_of_published,
    fun _ _ => Catalog.published_unique hl, fun _ h => h.consistent hl⟩

/-- English is loaded twice, with a load in between that fails and uses up a version. -/
def reloads : List Catalog.Operation :=
  [.load .english (.ofList [("k", "a")]) .replaceAll,
    .load .english (.ofList [("AuHH3scoLSF", "x"), ("LLwCZu4z3qH", "y")]) .merge,
    .load .english (.ofList [("k", "b")]) .replaceAll]

/-- The newer bundle is asked for before the older one, and again after it. -/
def turns : List Operation :=
  [.get .english "k" 3 "b", .get .english "k" 1 "a", .invalidate .english,
    .get .english "k" 1 "a", .get .english "k" 3 "b"]

theorem answers_never_stale_turns :
    (Catalog.empty.history reloads).map Catalog.Staging.version = [1, 2, 3] ∧
      ((Catalog.empty.history reloads).map Catalog.Staging.version).Pairwise (· < ·) ∧
      Supplied turns reloads ∧ Consistent turns ∧
      ((empty.run (turns.take 3)).getOrBuild .english "k" 1 "a").1 = .parse "a" := by
  have hv : (Catalog.empty.history reloads).map Catalog.Staging.version = [1, 2, 3] := by
    decide +kernel
  have hl : (Catalog.empty.history reloads).length < UInt64.size := by
    have hlen := congrArg List.length hv
    rw [List.length_map] at hlen
    rw [hlen]
    decide
  have hb : ∀ n version raw,
      ((Catalog.empty.run (reloads.take n)).snapshot.bundles["en"]?.any fun b =>
        b.locale = .english ∧ b.version = version ∧ b.get? "k" = some raw) = true →
      ∃ b, Catalog.Published reloads b ∧ b.locale = .english ∧ b.version = version ∧
        b.get? "k" = some raw := by
    intro n version raw h
    obtain ⟨b, hb, hs⟩ := (Option.any_eq_true _ _).1 h
    exact ⟨b, ⟨_, _, "en", (List.take_append_drop n reloads).symm, hb⟩, of_decide_eq_true hs⟩
  have hs : Supplied turns reloads := by
    intro l key version raw h
    simp only [turns, List.mem_cons, List.not_mem_nil, Operation.get.injEq, reduceCtorEq,
      or_false, false_or] at h
    obtain ⟨rfl, rfl, rfl, rfl⟩ | ⟨rfl, rfl, rfl, rfl⟩ | ⟨rfl, rfl, rfl, rfl⟩ |
      ⟨rfl, rfl, rfl, rfl⟩ := h
    · exact hb 3 3 "b" (by decide +kernel)
    · exact hb 1 1 "a" (by decide +kernel)
    · exact hb 1 1 "a" (by decide +kernel)
    · exact hb 3 3 "b" (by decide +kernel)
  obtain ⟨ha, -, -, hc⟩ := answers_never_stale.2 reloads hl
  have hct := hc turns hs
  exact ⟨hv, ha, hs, hct, answers_never_stale.1 (turns.take 3) (turns.drop 4) .english "k" 1 "a" hct⟩

end TemplateCache

end Phrasebook
