import Phrasebook.Proofs.Command.Check
import Phrasebook.Proofs.Engine.Loaded

/-!
# Phrasebook.Proofs.Command.Strict

What a check beside a source says about translations.

A check with a source passes when nothing is found in any file, neither by itself nor beside
the source (`CheckOptions.passes_strict_iff`).  Beside the source a file is compared
only if its locale is another one; the file then agrees with the source if it can be loaded
(`agree_of_compareFile_eq_nil`).  So a check that passes vouches for the translations
(`CheckOptions.agree_of_passes`), but not for another bundle of the source's own locale,
which is not compared with it.
-/

namespace Phrasebook.Command

/-- A file of another locale in which nothing is found beside the source agrees with it, if its
keys do not keep it from being loaded. -/
theorem agree_of_compareFile_eq_nil {fs : Files} {s t : BundleSource} {path : String}
    (h : compareFile fs s path = .ok []) (ht : BundleSource.ofFile fs path = .ok t)
    (hv : t.entries.TemplatesValid) (hne : t.locale ≠ s.locale) (hk : "" ∉ t.entries)
    (hc : ¬ t.entries.texts.Collide) : s.entries.texts.Agree t.entries.texts := by
  unfold compareFile at h
  rw [ht] at h
  dsimp only at h
  rcases hs : (Engine.new (.ofDefault s.locale)).load s.locale s.entries.toList .replaceAll with
    ⟨err | n, e⟩
  · rw [hs] at h
    cases h
  rw [hs] at h
  dsimp only at h
  rw [if_neg hne] at h
  have hl := (e.load_of_templatesValid t.locale hv).loaded hk hc
  rcases hlt : e.load t.locale t.entries.toList .replaceAll with ⟨err | n', e'⟩
  · rw [hlt] at hl
    cases hl
  rw [hlt] at h
  have hin : (Engine.new (.ofDefault s.locale)).LoadsInTurn s t e' := .apart hs hlt
  obtain ⟨first, second, hcmp, hcs⟩ := Engine.exists_compares_of_loadsInTurn (.inl hin) hne.symm
  rw [← hcs.nil_iff, ← hcmp]
  exact Except.ok.inj h

/-- A report is clean when nothing is found in the file and nothing beside the source. -/
theorem exists_clean_report_iff (fs : Files) (s : BundleSource) (path : String) :
    (∃ r, reportOn fs (some s) path = .ok r ∧ r.errors = [] ∧ r.warnings = []) ↔
      checkFile fs path = .ok [] ∧ compareFile fs s path = .ok [] := by
  unfold reportOn
  rcases checkFile fs path with err | errors
  · simp [bind, Except.bind]
  dsimp only
  rcases compareFile fs s path with err | warnings
  · simp [bind, Except.bind]
  · simp [bind, Except.bind, pure, Except.pure]

namespace CheckOptions

/-- A check with a source passes when the source is read, and nothing is found in any file,
neither by itself nor beside the source. -/
theorem passes_strict_iff (files : List String) (source : String) (json : Bool) (fs : Files) :
    Passes ⟨files, some source, json⟩ fs ↔
      ∃ s, BundleSource.ofFile fs source = .ok s ∧
        ∀ path ∈ files, checkFile fs path = .ok [] ∧ compareFile fs s path = .ok [] := by
  have hf : ∀ rs, fails ⟨files, some source, json⟩ rs = false ↔
      ∀ r ∈ rs, r.errors = [] ∧ r.warnings = [] := by
    intro rs
    simp [fails]
  rw [passes_iff_not_fails, reports, readSource]
  dsimp only
  rcases BundleSource.ofFile fs source with err | s
  · simp [bind, Except.bind]
  · simp only [hf, Except.ok.injEq, exists_eq_left', ← exists_clean_report_iff]
    exact exists_mapM_ok_iff files

/-- If a check with a source passes, the source and the bundles of all files are read, every file of
another locale whose keys do not keep it from being loaded has exactly the keys of the source,
and its templates refer to the same arguments; and so has the source file, if it is among
the files. -/
theorem agree_of_passes (files : List String) (source : String) (json : Bool) (fs : Files)
    (h : Passes ⟨files, some source, json⟩ fs) :
    ∃ s, BundleSource.ofFile fs source = .ok s ∧
      ∀ path ∈ files, ∃ t, BundleSource.ofFile fs path = .ok t ∧
        ((path = source ∨ t.locale ≠ s.locale ∧ "" ∉ t.entries ∧ ¬ t.entries.texts.Collide) →
          s.entries.texts.Agree t.entries.texts) := by
  obtain ⟨s, hs, hfiles⟩ := (passes_strict_iff files source json fs).1 h
  refine ⟨s, hs, fun path hm => ?_⟩
  obtain ⟨hcheck, hcompare⟩ := hfiles path hm
  obtain ⟨t, ht, hv⟩ := (checkFile_eq_nil_iff fs path).1 hcheck
  refine ⟨t, ht, ?_⟩
  rintro (rfl | ⟨hne, hk, hc⟩)
  · obtain rfl := Except.ok.inj (hs.symm.trans ht)
    exact s.entries.texts.agree_self
  · exact agree_of_compareFile_eq_nil hcompare ht hv hne hk hc

/-- A source and its translation. -/
def translated : Files :=
  .ofList
    [("en.json", .text "\x7b\"hi\":\"Hi \x7bname\x7d\"\x7d"),
      ("de.json", .text "\x7b\"hi\":\"Hallo \x7bname\x7d\"\x7d")]

theorem agree_of_passes_translated :
    Passes ⟨["en.json", "de.json"], some "en.json", false⟩ translated ∧
      ∃ s t, BundleSource.ofFile translated "en.json" = .ok s ∧
        BundleSource.ofFile translated "de.json" = .ok t ∧
        s.entries.texts.Agree t.entries.texts := by
  have hp : Passes ⟨["en.json", "de.json"], some "en.json", false⟩ translated := by decide +kernel
  obtain ⟨s, hs, hfiles⟩ := agree_of_passes ["en.json", "de.json"] "en.json" false translated hp
  obtain ⟨t, ht, ha⟩ := hfiles "de.json" (by simp)
  refine ⟨hp, s, t, hs, ht, ha (.inr ?_)⟩
  have hse : (BundleSource.ofFile translated "en.json").toOption.map BundleSource.locale =
      some .english := by
    decide +kernel
  have hte : (BundleSource.ofFile translated "de.json").toOption.map
      (fun b => (b.locale, b.entries.keys)) = some (.german, ["hi"]) := by
    decide +kernel
  rw [hs] at hse
  rw [ht] at hte
  obtain ⟨hl, hk⟩ := Prod.mk.inj (Option.some.inj hte)
  rw [hl, Option.some.inj hse, ← Std.TreeMap.mem_keys, hk, ← toOption_index_eq_none_iff, hk]
  decide +kernel

/-- Two bundles of one locale without a common key. -/
def twoEnglish : Files :=
  .ofList
    [("en.json", .text "\x7b\"a\":\"x\"\x7d"), ("d/en.json", .text "\x7b\"b\":\"y\"\x7d")]

/-- A bundle of the locale of the source passes, whatever its keys are. -/
theorem passes_twoEnglish :
    Passes ⟨["d/en.json"], some "en.json", false⟩ twoEnglish ∧
      ∃ s t, BundleSource.ofFile twoEnglish "en.json" = .ok s ∧
        BundleSource.ofFile twoEnglish "d/en.json" = .ok t ∧ "" ∉ t.entries ∧
        ¬ t.entries.texts.Collide ∧ ¬ s.entries.texts.Agree t.entries.texts := by
  have hp : Passes ⟨["d/en.json"], some "en.json", false⟩ twoEnglish := by decide +kernel
  obtain ⟨s, hs, hfiles⟩ := (passes_strict_iff _ _ _ _).1 hp
  obtain ⟨t, ht, -⟩ := (checkFile_eq_nil_iff _ _).1 (hfiles "d/en.json" (by simp)).1
  have hse : (BundleSource.ofFile twoEnglish "en.json").toOption.map (fun b => b.entries.keys) =
      some ["a"] := by
    decide +kernel
  have hte : (BundleSource.ofFile twoEnglish "d/en.json").toOption.map (fun b => b.entries.keys) =
      some ["b"] := by
    decide +kernel
  rw [hs] at hse
  rw [ht] at hte
  have hsk : s.entries.keys = ["a"] := Option.some.inj hse
  have htk : t.entries.keys = ["b"] := Option.some.inj hte
  refine ⟨hp, s, t, hs, ht, ?_, ?_, fun ha => ?_⟩
  · rw [← Std.TreeMap.mem_keys, htk]
    decide
  · rw [← toOption_index_eq_none_iff, htk]
    decide +kernel
  · have hb := ha.isSome_iff "b"
    rw [Entries.isSome_texts_iff, Entries.isSome_texts_iff, hsk, htk] at hb
    exact absurd (hb.2 (by decide)) (by decide)

end CheckOptions

end Phrasebook.Command
