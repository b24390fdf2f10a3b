import Phrasebook.Coverage
import Phrasebook.Proofs.Engine.Loaded

/-!
# Phrasebook.Proofs.Command.Coverage

Coverage is what a comparison finds.

The coverage of a target is measured on bundles as they are read (`Coverage.measure`); a
comparison reads the bundles of an engine that has loaded them.  Both speak of the same keys,
since loading keeps the texts of a bundle, and both list them in ascending order
(`Engine.measure_eq_compare`).

Every key of the source is translated or missing, and every key of the target stands for a
translation or is extra.
-/

namespace Phrasebook

/-! ## coverage -/

namespace Coverage

variable (l : Locale) (x y : Entries)

theorem sorts_missing :
    Text.Sorts (measure l x y).missing {key | (x.texts key).isSome ∧ y.texts key = none} :=
  x.sorts_absent_keys y

theorem sorts_extra :
    Text.Sorts (measure l x y).extra {key | (y.texts key).isSome ∧ x.texts key = none} :=
  y.sorts_absent_keys x

/-- The keys that are in other entries and those that are not are all keys. -/
theorem countP_contains_add (x y : Entries) :
    (x.keys.countP fun key => y.contains key) + (x.keys.filter fun key => !y.contains key).length =
      x.size := by
  have h := List.length_eq_countP_add_countP (fun key => y.contains key) (l := x.keys)
  simp only [decide_not, Bool.decide_eq_true, Std.TreeMap.length_keys] at h
  rw [← List.countP_eq_length_filter]
  exact h.symm

/-- The keys that both have are as many on either side. -/
theorem countP_contains_comm (x y : Entries) :
    (x.keys.countP fun key => y.contains key) = y.keys.countP fun key => x.contains key := by
  rw [List.countP_eq_length_filter, List.countP_eq_length_filter]
  refine congrArg List.length
    (((x.sorts_filter_keys _).eq_iff (y.sorts_filter_keys _)).2 (Set.ext fun key => ?_))
  rw [Set.mem_ofPred_eq, Set.mem_ofPred_eq, Entries.contains_eq_isSome, Entries.contains_eq_isSome]
  exact and_comm

/-- Every key of the source is translated or missing. -/
theorem translated_add_missing :
    (measure l x y).translated + (measure l x y).missing.length = x.size :=
  countP_contains_add x y

/-- Every key of the target is a translation or extra. -/
theorem translated_add_extra :
    (measure l x y).translated + (measure l x y).extra.length = y.size := by
  have h := countP_contains_add y x
  rwa [← countP_contains_comm x y] at h

end Coverage

/-- The coverage of a target, measured on bundles of two locales, agrees with the comparison in a
new engine that has loaded both, in whatever order and mode: the missing keys are those
found not to be translated, the extra keys those found to be unknown, in the same order;
with the translated keys they make up the source and the target. -/
theorem Engine.measure_eq_compare (s : Settings) (source target : BundleSource) (e : Engine)
    (l : Locale) (hne : source.locale ≠ target.locale)
    (h : (new s).LoadsInTurn source target e ∨ (new s).LoadsInTurn target source e) :
    (Coverage.measure l source.entries target.entries).missing =
        (e.compare source.locale target.locale).filterMap Finding.untranslated? ∧
      (Coverage.measure l source.entries target.entries).extra =
        (e.compare source.locale target.locale).filterMap Finding.unknownKey? ∧
      (Coverage.measure l source.entries target.entries).translated +
          (Coverage.measure l source.entries target.entries).missing.length =
        source.entries.size ∧
      (Coverage.measure l source.entries target.entries).translated +
          (Coverage.measure l source.entries target.entries).extra.length =
        target.entries.size := by
  obtain ⟨first, second, hc, h⟩ := exists_compares_of_loadsInTurn h hne
  rw [hc]
  refine ⟨?_, ?_, Coverage.translated_add_missing l _ _, Coverage.translated_add_extra l _ _⟩
  · exact ((Coverage.sorts_missing l _ _).eq_iff h.sorts_untranslated).2 rfl
  · exact ((Coverage.sorts_extra l _ _).eq_iff h.sorts_unknownKeys).2 (Set.ext fun _ => and_comm)

/-- A source with three keys, and a target with one of them and another key. -/
def Engine.partlyTranslated : BundleSource × BundleSource :=
  (⟨.english, .ofList [("a", "A"), ("b", "B"), ("c", "C")]⟩,
    ⟨.german, .ofList [("a", "A"), ("z", "Z")]⟩)

theorem Engine.measure_eq_compare_partlyTranslated :
    ∃ e : Engine, (new (.ofDefault .english)).LoadsInTurn partlyTranslated.2 partlyTranslated.1 e ∧
      (e.compare .english .german).filterMap Finding.untranslated? = ["b", "c"] ∧
      (e.compare .english .german).filterMap Finding.unknownKey? = ["z"] := by
  have hx : ((new (.ofDefault .english)).loadBundle partlyTranslated.2 .merge).1 = .ok 2 := by
    decide +kernel
  have hy : (((new (.ofDefault .english)).loadBundle partlyTranslated.2 .merge).2.loadBundle
      partlyTranslated.1 .replaceAll).1 = .ok 3 := by
    decide +kernel
  have hl := LoadsInTurn.apart (Prod.ext hx rfl) (Prod.ext hy rfl)
  have hm : Coverage.measure .german partlyTranslated.1.entries partlyTranslated.2.entries =
      ⟨"de", 1, ["b", "c"], ["z"]⟩ := by
    decide +kernel
  obtain ⟨hu, hk, -, -⟩ := measure_eq_compare (.ofDefault .english) partlyTranslated.1
    partlyTranslated.2 _ .german (by decide) (.inr hl)
  rw [hm] at hu hk
  exact ⟨_, hl, hu.symm, hk.symm⟩

end Phrasebook
