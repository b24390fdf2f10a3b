import Mathlib.Data.List.Nodup
import Phrasebook.Files.Bundle
import Phrasebook.Proofs.Engine.Loaded

/-!
# Phrasebook.Proofs.Engine.Counting

What the number that a load of several bundles answers says.

The number is that of the templates of the bundles, each bundle counted for itself.  A bundle
may displace templates of one before it, if both are of one locale: all of them, or where
templates are merged those of its own keys (`LoadMode.Spares`).  So a new engine is left with
those templates that no later bundle displaces (`survivors`), and the number is that of the
templates there are exactly if there is no other.

Both are lists without repetition, which are of one length since they have the same members.
-/

namespace Phrasebook

/-! ## templates of a map -/

/-- A bundle that is loaded leaves a template of a locale and key, unless it is of the locale
and drops or has the key. -/
def LoadMode.Spares (mode : LoadMode) (b : BundleSource) (x : Locale × String) : Prop :=
  b.locale = x.1 → mode = .merge ∧ x.2 ∉ b.entries

instance (mode : LoadMode) (b : BundleSource) (x : Locale × String) :
    Decidable (mode.Spares b x) :=
  inferInstanceAs (Decidable (_ → _))

namespace TextMap

/-- There is a text for a locale and key. -/
def Has (m : TextMap) (x : Locale × String) : Prop := ((m x.1).bind (· x.2)).isSome

theorem has_put_iff (mode : LoadMode) (m : TextMap) (b : BundleSource) (x : Locale × String) :
    (m.put mode (b.locale, b.entries)).Has x ↔
      m.Has x ∧ mode.Spares b x ∨ b.locale = x.1 ∧ x.2 ∈ b.entries := by
  have ht : (b.entries.texts x.2).isSome ↔ x.2 ∈ b.entries := by
    rw [Entries.isSome_texts_iff, Std.TreeMap.mem_keys]
  by_cases hl : b.locale = x.1
  · simp only [Has, LoadMode.Spares, put, hl, Function.update_self, Option.bind_some, merged,
      true_imp_iff, true_and]
    cases mode with
    | replaceAll => simp [ht]
    | merge =>
      rw [Option.isSome_or, Bool.or_eq_true, ht]
      by_cases hk : x.2 ∈ b.entries <;> simp [hk]
  · simp [Has, LoadMode.Spares, put, hl, Function.update_of_ne (Ne.symm hl)]

end TextMap

/-! ## templates that stay -/

variable {mode : LoadMode} {bundles : List BundleSource}

namespace BundleSource

/-- The templates of a bundle. -/
def templates (b : BundleSource) : List (Locale × String) :=
  b.entries.keys.map fun key => (b.locale, key)

/-- Those that no bundle of a list displaces. -/
def kept (b : BundleSource) (mode : LoadMode) (later : List BundleSource) :
    List (Locale × String) :=
  b.templates.filter fun x => ∀ b' ∈ later, mode.Spares b' x

/-- The templates of bundles that no later one displaces. -/
def survivors (mode : LoadMode) : List BundleSource → List (Locale × String)
  | [] => []
  | b :: later => b.kept mode later ++ survivors mode later

theorem mem_survivors_cons {b : BundleSource} {later : List BundleSource} {x : Locale × String} :
    x ∈ survivors mode (b :: later) ↔
      (b.locale = x.1 ∧ x.2 ∈ b.entries) ∧ (∀ b' ∈ later, mode.Spares b' x) ∨
        x ∈ survivors mode later := by
  obtain ⟨l, key⟩ := x
  rw [survivors, List.mem_append, kept, List.mem_filter, decide_eq_true_iff, templates,
    List.mem_map]
  simp only [Prod.mk.injEq, Std.TreeMap.mem_keys, exists_eq_right_right]
  rw [and_comm (a := b.locale = l)]

/-- What stays was loaded by a bundle that does not spare it. -/
theorem exists_not_spares_of_mem_survivors {x : Locale × String} (h : x ∈ survivors mode bundles) :
    ∃ b ∈ bundles, ¬ mode.Spares b x := by
  induction bundles with
  | nil => cases h
  | cons b later ih =>
    obtain ⟨⟨hl, hk⟩, -⟩ | hs := mem_survivors_cons.1 h
    · exact ⟨b, List.mem_cons_self, fun hsp => (hsp hl).2 hk⟩
    · obtain ⟨b', hb', hn⟩ := ih hs
      exact ⟨b', List.mem_cons_of_mem _ hb', hn⟩

/-- No template is there twice. -/
theorem nodup_survivors : (survivors mode bundles).Nodup := by
  induction bundles with
  | nil => exact List.nodup_nil
  | cons b later ih =>
    refine List.nodup_append.2 ⟨?_, ih, ?_⟩
    · -- the keys of one bundle are distinct
      refine List.Nodup.filter _ (Std.TreeMap.nodup_keys.map ?_)
      exact fun _ _ h => (Prod.mk.inj h).2
    · rintro x hx _ hs rfl
      obtain ⟨b', hb', hn⟩ := exists_not_spares_of_mem_survivors hs
      exact hn (of_decide_eq_true (List.mem_filter.1 hx).2 b' hb')

/-- The number of templates of bundles, each bundle counted for itself. -/
def count : List BundleSource → Nat
  | [] => 0
  | b :: later => b.entries.size + count later

theorem foldl_size_eq (bundles : List BundleSource) (n : Nat) :
    bundles.foldl (fun n b => n + b.entries.size) n = n + count bundles := by
  induction bundles generalizing n with
  | nil => rfl
  | cons b later ih => rw [List.foldl_cons, ih, count, Nat.add_assoc]

/-- No later bundle displaces a template of an earlier one. -/
def Undisplaced (mode : LoadMode) (bundles : List BundleSource) : Prop :=
  bundles.Pairwise fun b b' => ∀ key ∈ b.entries, mode.Spares b' (b.locale, key)

theorem length_kept_iff {b : BundleSource} {later : List BundleSource} :
    (b.kept mode later).length = b.templates.length ↔
      ∀ b' ∈ later, ∀ key ∈ b.entries, mode.Spares b' (b.locale, key) := by
  simp only [kept, templates, List.length_filter_eq_length_iff, decide_eq_true_iff,
    List.forall_mem_map, Std.TreeMap.mem_keys]
  exact ⟨fun h b' hb' key hk => h key hk b' hb', fun h key hk b' hb' => h b' hb' key hk⟩

/-- As many templates stay as there are, or fewer if one is displaced. -/
theorem length_survivors (mode : LoadMode) (bundles : List BundleSource) :
    (survivors mode bundles).length ≤ count bundles ∧
      ((survivors mode bundles).length = count bundles ↔ Undisplaced mode bundles) := by
  induction bundles with
  | nil => exact ⟨Nat.le_refl 0, iff_of_true rfl List.Pairwise.nil⟩
  | cons b later ih =>
    obtain ⟨hle, heq⟩ := ih
    have hs : (survivors mode (b :: later)).length =
        (b.kept mode later).length + (survivors mode later).length := List.length_append
    have hc : count (b :: later) = b.templates.length + count later := by
      rw [count, templates, List.length_map, Std.TreeMap.length_keys]
    have hk : (b.kept mode later).length ≤ b.templates.length := List.length_filter_le _ _
    rw [hs, hc, Undisplaced, List.pairwise_cons, ← length_kept_iff, ← Undisplaced, ← heq]
    exact ⟨by omega, by omega, by omega⟩

end BundleSource

open BundleSource

/-- The templates after loads are those there were, as far as they are left, and those that
stay. -/
theorem TextMap.has_foldl_put_iff (m : TextMap) (x : Locale × String) :
    (bundles.foldl (fun m b => m.put mode (b.locale, b.entries)) m).Has x ↔
      m.Has x ∧ (∀ b ∈ bundles, mode.Spares b x) ∨ x ∈ survivors mode bundles := by
  induction bundles generalizing m with
  | nil => simp [survivors]
  | cons b later ih =>
    rw [List.foldl_cons, ih, has_put_iff, mem_survivors_cons, List.forall_mem_cons]
    tauto

/-! ## templates of an engine -/

namespace Snapshot

variable {s : Snapshot}

theorem Sound.map_tag_locales (hs : s.Sound) : s.locales.map Locale.tag = s.bundles.keys := by
  rw [locales, values_eq_map_snd, ← Std.TreeMap.map_fst_toList_eq_keys, List.map_map, List.map_map]
  exact List.map_congr_left fun x hx =>
    (hs x.1 x.2 (Std.TreeMap.mem_toList_iff_getElem?_eq_some.1 hx)).1

theorem Sound.nodup_locales (hs : s.Sound) : s.locales.Nodup :=
  List.Nodup.of_map Locale.tag (hs.map_tag_locales ▸ Std.TreeMap.nodup_keys)

/-- The locales listed are those that have a bundle. -/
theorem Sound.mem_locales_iff (hs : s.Sound) {l : Locale} :
    l ∈ s.locales ↔ (s.bundle? l).isSome := by
  have hm := List.mem_map_of_injective (a := l) (l := s.locales) fun _ _ h => Locale.tag_injective h
  rw [← hm, hs.map_tag_locales, Std.TreeMap.mem_keys, Std.TreeMap.mem_iff_isSome_getElem?, bundle?]

/-- The keys of a locale. -/
def keysAt (s : Snapshot) (l : Locale) : List String := (s.bundle? l).elim [] Bundle.keys

theorem mem_keysAt_iff (s : Snapshot) (l : Locale) (key : String) :
    key ∈ s.keysAt l ↔ s.texts.Has (l, key) := by
  rw [TextMap.Has, texts, Contents.texts, contents, keysAt]
  cases s.bundle? l with
  | none => simp
  | some b => exact (b.entries.isSome_texts_iff key).symm

/-- The templates, locale by locale. -/
def templates (s : Snapshot) : List (Locale × String) :=
  s.locales.flatMap fun l => (s.keysAt l).map fun key => (l, key)

theorem Sound.mem_templates_iff (hs : s.Sound) {x : Locale × String} :
    x ∈ s.templates ↔ s.texts.Has x := by
  obtain ⟨l, key⟩ := x
  simp only [templates, List.mem_flatMap, List.mem_map, Prod.mk.injEq, ← mem_keysAt_iff,
    hs.mem_locales_iff]
  constructor
  · rintro ⟨_, -, _, hk, rfl, rfl⟩
    exact hk
  · intro hk
    refine ⟨l, ?_, key, hk, rfl, rfl⟩
    cases hb : s.bundle? l with
    | none => simp [keysAt, hb] at hk
    | some b => rfl

theorem Sound.nodup_templates (hs : s.Sound) : s.templates.Nodup := by
  refine List.nodup_flatMap.2 ⟨fun l _ => ?_, hs.nodup_locales.imp fun hne => ?_⟩
  · refine List.Nodup.map (fun _ _ h => (Prod.mk.inj h).2) ?_
    rw [keysAt]
    cases s.bundle? l with
    | none => exact List.nodup_nil
    | some b => exact Std.TreeMap.nodup_keys
  · intro x hx hy
    obtain ⟨_, -, rfl⟩ := List.mem_map.1 hx
    obtain ⟨_, -, he⟩ := List.mem_map.1 hy
    exact hne (Prod.mk.inj he).1.symm

end Snapshot

namespace Engine

/-- The number of templates over all available locales. -/
def total (e : Engine) : Nat :=
  e.available.foldl (fun n l => n + (e.catalog.snapshot.bundle? l).elim 0 Bundle.size) 0

theorem length_templates (e : Engine) : e.catalog.snapshot.templates.length = e.total := by
  have hl : ∀ l, ((e.catalog.snapshot.keysAt l).map fun key => (l, key)).length =
      (e.catalog.snapshot.bundle? l).elim 0 Bundle.size := by
    intro l
    rw [List.length_map, Snapshot.keysAt]
    cases e.catalog.snapshot.bundle? l with
    | none => rfl
    | some b => exact Std.TreeMap.length_keys
  rw [Snapshot.templates, total, available, List.length_flatMap, List.sum_eq_foldl, List.foldl_map]
  simp only [hl]

/-- The number that a load of several bundles answers. -/
theorem count_of_loadFrom {e e' : Engine} {bundles : List BundleSource} {n : Nat}
    (h : e.loadFrom (.ok bundles) mode = (.ok n, e')) : n = count bundles := by
  obtain ⟨_, -, -, hb, -, hn, -⟩ := loadFrom_eq_ok h
  cases hb
  rw [hn, foldl_size_eq, Nat.zero_add]

/-- A new engine that has loaded bundles has the templates that no later bundle displaces. -/
theorem total_of_loadFrom {s : Settings} {e' : Engine} {bundles : List BundleSource} {n : Nat}
    (h : (new s).loadFrom (.ok bundles) mode = (.ok n, e')) :
    e'.total = (survivors mode bundles).length := by
  have hs : e'.catalog.snapshot.Sound := by
    obtain rfl : ((new s).loadFrom (.ok bundles) mode).2 = e' := by rw [h]
    exact ((coherent_new s).perform (.loadFrom (.ok bundles) mode)).sound
  have hnew : ∀ x, ¬ (new s).catalog.snapshot.texts.Has x := by
    have he : (new s).catalog.snapshot.texts = fun _ => none := Snapshot.texts_empty
    intro x
    rw [TextMap.Has, he]
    exact Bool.false_ne_true
  rw [← length_templates]
  refine ((List.perm_ext_iff_of_nodup hs.nodup_templates nodup_survivors).2 fun x => ?_).length_eq
  rw [hs.mem_templates_iff, texts_loadFrom h, TextMap.has_foldl_put_iff]
  exact or_iff_right fun hx => hnew x hx.1

/-- What a new engine answers to a load of several bundles is the number of their templates, each
bundle counted for itself.  Those that no later bundle displaces are there afterwards: so the
number is never less than that of the templates over all locales, and is the same exactly if
no template is displaced; as is the case where no two bundles are of one locale. -/
theorem loadFrom_count (s : Settings) (loaded : Except LoadError (List BundleSource))
    (mode : LoadMode) (n : Nat) (h : ((new s).loadFrom loaded mode).1 = .ok n) :
    ∃ bundles, loaded = .ok bundles ∧ n = count bundles ∧
      ((new s).loadFrom loaded mode).2.total = (survivors mode bundles).length ∧
      ((new s).loadFrom loaded mode).2.total ≤ n ∧
      (((new s).loadFrom loaded mode).2.total = n ↔ Undisplaced mode bundles) ∧
      (bundles.Pairwise (fun b b' => b.locale ≠ b'.locale) →
        ((new s).loadFrom loaded mode).2.total = n) := by
  cases loaded with
  | error err => cases h
  | ok bundles =>
    have hl : (new s).loadFrom (.ok bundles) mode =
        (.ok n, ((new s).loadFrom (.ok bundles) mode).2) := Prod.ext h rfl
    have hn := count_of_loadFrom hl
    have ht := total_of_loadFrom hl
    obtain ⟨hle, hiff⟩ := length_survivors mode bundles
    rw [ht, hn]
    refine ⟨bundles, rfl, rfl, rfl, hle, hiff, fun hd => hiff.2 (hd.imp ?_)⟩
    exact fun hne key _ heq => absurd heq.symm hne

/-- Two bundles of one locale without a common key, and one of another. -/
def interleavedBundles : List BundleSource :=
  [⟨.english, .ofList [("a", "1"), ("b", "2")]⟩, ⟨.german, .ofList [("a", "3")]⟩,
    ⟨.english, .ofList [("c", "4")]⟩]

theorem loadFrom_count_interleaved :
    ((new (.ofDefault .english)).loadFrom (.ok interleavedBundles) .merge).1 = .ok 4 ∧
      ((new (.ofDefault .english)).loadFrom (.ok interleavedBundles) .merge).2.total = 4 := by
  have h : ((new (.ofDefault .english)).loadFrom (.ok interleavedBundles) .merge).1 = .ok 4 := by
    decide +kernel
  obtain ⟨bundles, hb, -, -, -, hiff, -⟩ := loadFrom_count _ _ _ _ h
  cases hb
  refine ⟨h, hiff.2 ?_⟩
  simp only [Undisplaced, interleavedBundles, ← Std.TreeMap.mem_keys]
  decide +kernel

/-- Files of one locale, its tag spelled in two ways. -/
def twoSpellings : Files :=
  .ofList
    [("d/en-US.json", .text "\x7b\"a\":\"1\"\x7d"), ("d/en_US.json", .text "\x7b\"a\":\"2\"\x7d")]

theorem pathsIn_twoSpellings :
    BundleSource.pathsIn twoSpellings "d" = .ok ["d/en-US.json", "d/en_US.json"] := by
  have hd : twoSpellings.locate "d" = .ok (⟨false, ["d"]⟩, .directory) := by decide +kernel
  have hn : twoSpellings.entries.keys.filterMap (Files.nameIn? ⟨false, ["d"]⟩) =
      ["en-US.json", "en_US.json"] := by
    decide +kernel
  have hl : twoSpellings.list "d" = .ok ["en-US.json", "en_US.json"] := by
    rw [Files.list, hd]
    dsimp only
    rw [hn, List.mergeSort_of_pairwise (by decide +kernel)]
  rw [BundleSource.pathsIn, hl]
  decide +kernel

/-- Loads the directory with these files into a new engine. -/
def loadSpellings (mode : LoadMode) : Except LoadError Nat × Engine :=
  (new (.ofDefault .english)).loadFrom (BundleSource.ofDirectory twoSpellings "d") mode

/-- Templates that a later bundle displaces are counted. -/
theorem loadFrom_twoSpellings :
    (loadSpellings .merge).1 = .ok 2 ∧ (loadSpellings .merge).2.total = 1 ∧
      (loadSpellings .replaceAll).1 = .ok 2 ∧ (loadSpellings .replaceAll).2.total = 1 := by
  rw [loadSpellings, loadSpellings, BundleSource.ofDirectory, pathsIn_twoSpellings, Except.bind]
  decide +kernel

end Engine

end Phrasebook
