import Mathlib.Logic.Function.Basic
import Phrasebook.Catalog
import Phrasebook.Proofs.Locale.Tag

/-!
# Phrasebook.Proofs.Catalog.Contents

What a catalog holds, apart from versions and indices.

The contents of a snapshot give every locale its raw templates.  Loading and
removing are simple on contents: a load replaces or overlays the templates of its
locale, if their keys have distinct identifiers, and leaves the other locales alone.
Looking a key up and listing keys need no more than the contents either, as long as
every bundle stands at the tag of its own locale (`Snapshot.Sound`).
-/

namespace Phrasebook

/-! ## maps -/

/-- The values of a map are listed with its keys. -/
theorem values_eq_map_snd {α β : Type} {cmp : α → α → Ordering}
    (m : Std.TreeMap α β cmp) : m.values = m.toList.map Prod.snd := by
  change m.foldr (fun _ b bs => b :: bs) [] = _
  rw [Std.TreeMap.foldr_eq_foldr_toList]
  induction m.toList with
  | nil => rfl
  | cons x xs ih => rw [List.foldr_cons, ih, List.map_cons]

section
variable {α β γ : Type} {cmp : α → α → Ordering} [Std.TransCmp cmp] [Std.LawfulEqCmp cmp]
  [DecidableEq α]

/-- What is found after an insertion was inserted, or was there before at another key. -/
theorem getElem?_insert_cases {m : Std.TreeMap α β cmp} {k a : α} {v w : β}
    (h : (m.insert k v)[a]? = some w) : k = a ∧ v = w ∨ k ≠ a ∧ m[a]? = some w := by
  simp only [Std.TreeMap.getElem?_insert, Std.LawfulEqCmp.compare_eq_iff_eq] at h
  by_cases hk : k = a
  · rw [if_pos hk, Option.some.injEq] at h
    exact .inl ⟨hk, h⟩
  · rw [if_neg hk] at h
    exact .inr ⟨hk, h⟩

theorem getElem?_erase_cases {m : Std.TreeMap α β cmp} {k a : α} {w : β}
    (h : (m.erase k)[a]? = some w) : k ≠ a ∧ m[a]? = some w := by
  simp only [Std.TreeMap.getElem?_erase, Std.LawfulEqCmp.compare_eq_iff_eq] at h
  by_cases hk : k = a
  · rw [if_pos hk] at h
    cases h
  · rw [if_neg hk] at h
    exact ⟨hk, h⟩

/-- An insertion updates what is found, as far as some function of the values tells. -/
theorem map_getElem?_insert (f : β → γ) (m : Std.TreeMap α β cmp) (k : α) (v : β) :
    (fun a => (m.insert k v)[a]?.map f) =
      Function.update (fun a => m[a]?.map f) k (some (f v)) := by
  funext a
  rw [Function.update_apply]
  simp only [Std.TreeMap.getElem?_insert, Std.LawfulEqCmp.compare_eq_iff_eq]
  by_cases h : k = a
  · rw [if_pos h, if_pos h.symm, Option.map_some]
  · rw [if_neg h, if_neg (Ne.symm h)]

theorem map_getElem?_erase (f : β → γ) (m : Std.TreeMap α β cmp) (k : α) :
    (fun a => (m.erase k)[a]?.map f) = Function.update (fun a => m[a]?.map f) k none := by
  funext a
  rw [Function.update_apply]
  simp only [Std.TreeMap.getElem?_erase, Std.LawfulEqCmp.compare_eq_iff_eq]
  by_cases h : k = a
  · rw [if_pos h, if_pos h.symm, Option.map_none]
  · rw [if_neg h, if_neg (Ne.symm h)]

end

/-! ## contents -/

/-- The raw templates of every locale; none of a locale that is not loaded. -/
abbrev Contents := Locale → Option Entries

namespace Contents

/-- What a locale has after a load. -/
def merged (c : Contents) (l : Locale) (entries : Entries) (mode : LoadMode) : Entries :=
  match mode, c l with
  | .merge, some old => old.overlay entries
  | _, _ => entries

/-- The contents with new entries of a locale. -/
def put (mode : LoadMode) (c : Contents) (x : Locale × Entries) : Contents :=
  Function.update c x.1 (some (c.merged x.1 x.2 mode))

/-- The contents after a load, unless two keys of the locale have one identifier. -/
def load (mode : LoadMode) (c : Contents) (x : Locale × Entries) : Except LoadError Contents :=
  match Bundle.index ∅ (c.merged x.1 x.2 mode).keys with
  | .ok _ => .ok (c.put mode x)
  | .error (first, second) => .error (.idCollision x.1.tag first second)

/-- The first locale of a chain that has a key, with the raw template. -/
def lookup? (c : Contents) (chain : List Locale) (key : String) : Option (Locale × String) :=
  chain.findSome? fun l => do
    let entries ← c l
    let raw ← entries[key]?
    return (l, raw)

/-- The keys that the locales of a chain have, ascending, each once. -/
def keysOf (c : Contents) (chain : List Locale) : List String :=
  (Std.TreeSet.ofList ((chain.filterMap c).flatMap Std.TreeMap.keys)).toList

end Contents

/-! ## snapshots -/

namespace Snapshot

/-- The raw templates of a snapshot. -/
def contents (s : Snapshot) : Contents := fun l => (s.bundle? l).map Bundle.entries

theorem contents_empty : empty.contents = fun _ => none := by
  funext l
  rw [contents, bundle?, empty, Std.TreeMap.getElem?_emptyc, Option.map_none]

theorem getElem?_insert (s : Snapshot) (l : Locale) (b : Bundle) (tag : String) :
    (s.insert l b).bundles[tag]? = if l.tag = tag then some b else s.bundles[tag]? := by
  simp only [insert, Std.TreeMap.getElem?_insert, Std.LawfulEqCmp.compare_eq_iff_eq]

theorem getElem?_erase (s : Snapshot) (l : Locale) (tag : String) :
    (s.erase l).bundles[tag]? = if l.tag = tag then none else s.bundles[tag]? := by
  simp only [erase, Std.TreeMap.getElem?_erase, Std.LawfulEqCmp.compare_eq_iff_eq]

theorem bundle?_insert (s : Snapshot) (l l' : Locale) (b : Bundle) :
    (s.insert l b).bundle? l' = if l = l' then some b else s.bundle? l' := by
  simp only [bundle?, getElem?_insert, Locale.tag_inj]

theorem bundle?_erase (s : Snapshot) (l l' : Locale) :
    (s.erase l).bundle? l' = if l = l' then none else s.bundle? l' := by
  simp only [bundle?, getElem?_erase, Locale.tag_inj]

theorem contents_insert (s : Snapshot) (l : Locale) (b : Bundle) :
    (s.insert l b).contents = Function.update s.contents l (some b.entries) := by
  funext l'
  rw [contents, bundle?_insert, Function.update_apply, contents]
  by_cases h : l = l'
  · rw [if_pos h, if_pos h.symm, Option.map_some]
  · rw [if_neg h, if_neg (Ne.symm h)]

theorem contents_erase (s : Snapshot) (l : Locale) :
    (s.erase l).contents = Function.update s.contents l none := by
  funext l'
  rw [contents, bundle?_erase, Function.update_apply, contents]
  by_cases h : l = l'
  · rw [if_pos h, if_pos h.symm, Option.map_none]
  · rw [if_neg h, if_neg (Ne.symm h)]

end Snapshot

/-! ## loading -/

namespace Contents

/-- A load that does not fail puts its entries. -/
theorem eq_put_of_load_eq_ok {mode : LoadMode} {c c' : Contents} {x : Locale × Entries}
    (h : load mode c x = .ok c') : c' = c.put mode x := by
  rw [load] at h
  split at h
  · exact (Except.ok.inj h).symm
  · cases h

theorem eq_foldl_of_foldlM_load_eq_ok {mode : LoadMode} {loads : List (Locale × Entries)}
    {c c' : Contents} (h : loads.foldlM (load mode) c = .ok c') :
    c' = loads.foldl (put mode) c := by
  induction loads generalizing c with
  | nil => exact (Except.ok.inj h).symm
  | cons x rest ih =>
    rw [List.foldlM_cons] at h
    cases hx : load mode c x with
    | error err => rw [hx] at h; cases h
    | ok c₁ =>
      rw [hx] at h
      rw [List.foldl_cons, ← eq_put_of_load_eq_ok hx]
      exact ih h

end Contents

namespace Catalog

theorem merged_eq (s : Snapshot) (l : Locale) (entries : Entries) (mode : LoadMode) :
    merged s l entries mode = s.contents.merged l entries mode := by
  unfold merged Contents.merged Snapshot.contents
  cases mode with
  | replaceAll => rfl
  | merge => cases s.bundle? l <;> rfl

/-- Staging a bundle is a load of the contents. -/
theorem contents_stage (s : Snapshot) (version : UInt64) (l : Locale) (entries : Entries)
    (mode : LoadMode) :
    (stage s version l entries mode).map Snapshot.contents = s.contents.load mode (l, entries) := by
  rw [stage, merged_eq, Bundle.make, Contents.load]
  cases Bundle.index ∅ (s.contents.merged l entries mode).keys with
  | ok ids => exact congrArg Except.ok (Snapshot.contents_insert s l _)
  | error e => rfl

/-- Staging bundles is one load of the contents after the other. -/
theorem contents_stageAll (mode : LoadMode) (loads : List (Locale × Entries)) (s : Snapshot)
    (next : UInt64) :
    (stageAll s next mode loads).1.map (fun r => r.2.contents) =
      loads.foldlM (Contents.load mode) s.contents := by
  induction loads generalizing s next with
  | nil => rfl
  | cons x rest ih =>
    obtain ⟨l, entries⟩ := x
    rw [List.foldlM_cons, ← contents_stage s next, stageAll]
    cases stage s next l entries mode with
    | error e => rfl
    | ok s' =>
      change _ = rest.foldlM (Contents.load mode) s'.contents
      rw [← ih s' (next + 1)]
      dsimp only
      rcases stageAll s' (next + 1) mode rest with ⟨_ | _, _⟩ <;> rfl

/-- A catalog that has loaded bundles has put their entries, one after the other. -/
theorem contents_of_loadMany_eq_ok {c c' : Catalog} {loads : List (Locale × Entries)}
    {mode : LoadMode} {versions : List UInt64} (h : c.loadMany loads mode = (.ok versions, c')) :
    c'.snapshot.contents = loads.foldl (Contents.put mode) c.snapshot.contents := by
  have hs := contents_stageAll mode loads c.snapshot c.nextVersion
  rw [loadMany] at h
  rcases hr : stageAll c.snapshot c.nextVersion mode loads with ⟨err | r, n⟩
  · rw [hr] at h
    cases h
  · rw [hr] at h hs
    cases h
    exact Contents.eq_foldl_of_foldlM_load_eq_ok hs.symm

end Catalog

/-! ## bundles at their own tags -/

/-- A bundle with the index that its entries have. -/
def Bundle.Indexed (b : Bundle) : Prop := Bundle.make b.locale b.version b.entries = .ok b

theorem Bundle.make_eq_ok {l : Locale} {version : UInt64} {entries : Entries} {b : Bundle}
    (h : make l version entries = .ok b) :
    b.locale = l ∧ b.version = version ∧ b.entries = entries ∧ b.Indexed := by
  have h' := h
  unfold make at h'
  split at h'
  · cases h'
    exact ⟨rfl, rfl, rfl, h⟩
  · cases h'

namespace Snapshot

/-- Every bundle stands at the tag of its locale and is indexed. -/
def Sound (s : Snapshot) : Prop :=
  ∀ tag (b : Bundle), s.bundles[tag]? = some b → b.locale.tag = tag ∧ b.Indexed

theorem sound_empty : empty.Sound := by
  intro tag b h
  rw [empty, Std.TreeMap.getElem?_emptyc] at h
  cases h

theorem Sound.locale_eq {s : Snapshot} (hs : s.Sound) {l : Locale} {b : Bundle}
    (h : s.bundle? l = some b) : b.locale = l :=
  Locale.tag_injective (hs l.tag b h).1

theorem Sound.insert {s : Snapshot} (hs : s.Sound) {b : Bundle} (hb : b.Indexed) :
    (s.insert b.locale b).Sound := by
  intro tag b' h
  obtain ⟨ht, rfl⟩ | ⟨-, h⟩ := getElem?_insert_cases h
  · exact ⟨ht, hb⟩
  · exact hs tag b' h

theorem Sound.erase {s : Snapshot} (hs : s.Sound) (l : Locale) : (s.erase l).Sound := by
  intro tag b h
  exact hs tag b (getElem?_erase_cases h).2

/-- What a lookup finds is a bundle of the chain that has the key. -/
theorem bundle?_of_lookup? {s : Snapshot} {chain : List Locale} {key raw : String} {b : Bundle}
    (h : s.lookup? chain key = some (b, raw)) :
    ∃ l ∈ chain, s.bundle? l = some b ∧ b.get? key = some raw := by
  obtain ⟨l, hl, h⟩ := List.exists_of_findSome?_eq_some h
  obtain ⟨b', hb, h⟩ := Option.bind_eq_some_iff.1 h
  obtain ⟨raw', hr, h⟩ := Option.bind_eq_some_iff.1 h
  cases h
  exact ⟨l, hl, hb, hr⟩

/-- Looking a key up is looking it up in the contents. -/
theorem Sound.lookup?_contents {s : Snapshot} (hs : s.Sound) (chain : List Locale) (key : String) :
    s.contents.lookup? chain key = (s.lookup? chain key).map fun x => (x.1.locale, x.2) := by
  rw [Contents.lookup?, lookup?, List.map_findSome?]
  congr 1
  funext l
  cases hb : s.bundle? l with
  | none => simp [contents, hb]
  | some b =>
    have hl := hs.locale_eq hb
    cases hr : b.entries[key]? with
    | none => simp [contents, hb, Bundle.get?, hr]
    | some raw => simp [contents, hb, Bundle.get?, hr, hl]

theorem keysOf_contents (s : Snapshot) (chain : List Locale) :
    s.contents.keysOf chain = s.keysOf chain := by
  have h : (chain.filterMap s.contents).flatMap Std.TreeMap.keys =
      (s.bundlesOf chain).flatMap Bundle.keys := by
    rw [bundlesOf]
    induction chain with
    | nil => rfl
    | cons l rest ih => cases hb : s.bundle? l <;> simp [contents, hb, ih, Bundle.keys]
  rw [Contents.keysOf, keysOf, h]

end Snapshot

namespace Catalog

/-- What staging a bundle does: a new bundle of the locale, of the given version. -/
theorem stage_eq_ok {s s' : Snapshot} {version : UInt64} {l : Locale} {entries : Entries}
    {mode : LoadMode} (h : stage s version l entries mode = .ok s') :
    ∃ b : Bundle, b.locale = l ∧ b.version = version ∧ b.Indexed ∧ s' = s.insert l b := by
  unfold stage at h
  cases hb : Bundle.make l version (merged s l entries mode) with
  | error e => rw [hb] at h; cases h
  | ok b =>
    rw [hb] at h
    cases h
    obtain ⟨hl, hv, -, hi⟩ := Bundle.make_eq_ok hb
    exact ⟨b, hl, hv, hi, rfl⟩

/-- What staging one of the bundles preserves, staging all of them does. -/
theorem stageAll_induction {P : Snapshot → Prop} {mode : LoadMode}
    {loads : List (Locale × Entries)}
    (step : ∀ s s' version x, x ∈ loads → stage s version x.1 x.2 mode = .ok s' → P s → P s')
    {s s' : Snapshot} {next last : UInt64} {versions : List UInt64}
    (h : stageAll s next mode loads = (.ok (versions, s'), last)) (hs : P s) : P s' := by
  induction loads generalizing s next versions with
  | nil => cases h; exact hs
  | cons x rest ih =>
    obtain ⟨l, entries⟩ := x
    rw [stageAll] at h
    cases hx : stage s next l entries mode with
    | error e => rw [hx] at h; cases h
    | ok s₁ =>
      rw [hx] at h
      dsimp only at h
      split at h
      · next hr =>
        cases h
        exact ih (fun s s' v x hx => step s s' v x (List.mem_cons_of_mem _ hx)) hr
          (step s s₁ next _ List.mem_cons_self hx hs)
      · cases h

theorem sound_stage {s s' : Snapshot} (hs : s.Sound) {version : UInt64} {l : Locale}
    {entries : Entries} {mode : LoadMode} (h : stage s version l entries mode = .ok s') :
    s'.Sound := by
  obtain ⟨b, rfl, -, hb, rfl⟩ := stage_eq_ok h
  exact hs.insert hb

/-- Staging bundles touches no tag but those of their locales. -/
theorem getElem?_stageAll {mode : LoadMode} {loads : List (Locale × Entries)} {s s' : Snapshot}
    {next last : UInt64} {versions : List UInt64}
    (h : stageAll s next mode loads = (.ok (versions, s'), last)) {tag : String}
    (ht : ∀ x ∈ loads, x.1.tag ≠ tag) : s'.bundles[tag]? = s.bundles[tag]? := by
  refine stageAll_induction (P := fun s₁ => s₁.bundles[tag]? = s.bundles[tag]?) ?_ h rfl
  intro s₁ s₂ version x hx hst hs
  obtain ⟨b, -, -, -, rfl⟩ := stage_eq_ok hst
  rw [Snapshot.getElem?_insert, if_neg (ht x hx), hs]

end Catalog

end Phrasebook
