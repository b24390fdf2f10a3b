import Phrasebook.Command.Coverage
import Phrasebook.Proofs.Files.Directory
import Phrasebook.Proofs.Locale.Naming

/-!
# Phrasebook.Proofs.Command.Targets

Where the bundle of a locale is looked for, beside what a loader of the directory finds.

A target is looked for under three names (`stems`), a loader reads every bundle in the
directory.  A tag that names a locale has no slash in it, so what is found is a bundle of the
directory (`mem_pathsIn_of_findBundle?`) which the loader has read as well, for the same locale.
The other way round a bundle is found if its file has one of these names, and none is found
if no file is named so, whichever separator is used (`CoverageOptions.coverageOf_of_ofDirectory`).
-/

namespace Phrasebook

namespace Coverage

open Phrasebook.Path (join)

/-! ## what is found -/

/-- The stems under which the bundle of a locale is looked for. -/
def stems (tag : String) (l : Locale) : List String :=
  [tag, l.tag, Text.replaceChar '-' '_' l.tag]

section
variable {fs : Files} {dir tag stem path : String} {paths : List String} {l : Locale}

theorem findBundle?_eq (fs : Files) (dir tag : String) (l : Locale) :
    findBundle? fs dir tag l =
      ((stems tag l).map fun stem => join dir (stem ++ ".json")).find? fs.isFile :=
  rfl

/-- All of the stems name the locale. -/
theorem parse_of_mem_stems (h : Locale.parse tag = .ok l) (hs : stem ∈ stems tag l) :
    Locale.parse stem = .ok l := by
  simp only [stems, List.mem_cons, List.not_mem_nil, or_false] at hs
  rcases hs with rfl | rfl | rfl
  · exact h
  · exact Locale.parse_tag l
  · exact Locale.parse_underscored l

/-- With hyphens between the subtags the stems are the tag that is asked for, and the canonical
one. -/
theorem hyphenated_of_mem_stems (hs : stem ∈ stems tag l) :
    Locale.hyphenated stem.toList = Locale.hyphenated tag.toList ∨
      Locale.hyphenated stem.toList = l.tag.toList := by
  simp only [stems, List.mem_cons, List.not_mem_nil, or_false] at hs
  rcases hs with rfl | rfl | rfl
  · exact .inl rfl
  · exact .inr (Locale.hyphenated_tag l)
  · exact .inr (Locale.hyphenated_underscored l)

/-- What is found is a bundle of the directory. -/
theorem mem_pathsIn_of_findBundle? (hd : BundleSource.pathsIn fs dir = .ok paths)
    (hp : Locale.parse tag = .ok l) (h : findBundle? fs dir tag l = some path) :
    path ∈ paths ∧ Path.stem path ∈ stems tag l := by
  rw [findBundle?_eq] at h
  obtain ⟨stem, hs, rfl⟩ := List.mem_map.1 (List.mem_of_find?_eq_some h)
  have hl := parse_of_mem_stems hp hs
  have hne := Locale.ne_empty_of_parse hl
  have hn := Locale.slash_not_mem_of_parse hl
  rw [BundleSource.mem_pathsIn_iff hd, Path.stem_join (BundleSource.ne_empty_of_pathsIn hd) hne hn]
  exact ⟨⟨stem, hne, hn, rfl, List.find?_some h⟩, hs⟩

/-- A bundle is found if a file of the directory has one of the names. -/
theorem exists_findBundle?_eq_some (hd : BundleSource.pathsIn fs dir = .ok paths)
    (hp : path ∈ paths) (hs : Path.stem path ∈ stems tag l) :
    ∃ path', findBundle? fs dir tag l = some path' := by
  obtain ⟨stem, hne, hn, rfl, hf⟩ := (BundleSource.mem_pathsIn_iff hd path).1 hp
  rw [Path.stem_join (BundleSource.ne_empty_of_pathsIn hd) hne hn] at hs
  rw [findBundle?_eq, ← Option.isSome_iff_exists, List.find?_isSome]
  exact ⟨_, List.mem_map.2 ⟨stem, hs, rfl⟩, hf⟩

end

end Coverage

namespace Command.CoverageOptions

open Phrasebook.Coverage (findBundle? stems)
open Phrasebook.Locale (hyphenated)

section
variable {o : CoverageOptions} {fs : Files} {tag path : String} {l : Locale} {b : BundleSource}

theorem coverageOf_of_findBundle?_eq_some (source : Entries) (hp : Locale.parse tag = .ok l)
    (hf : findBundle? fs o.directory tag l = some path) (hb : BundleSource.ofFile fs path = .ok b) :
    o.coverageOf fs source tag = .ok (.measure l source b.entries) := by
  unfold coverageOf readBundle
  rw [hp]
  dsimp only
  rw [hf]
  dsimp only
  rw [hb]
  rfl

theorem coverageOf_of_findBundle?_eq_none (source : Entries) (hp : Locale.parse tag = .ok l)
    (hf : findBundle? fs o.directory tag l = none) :
    o.coverageOf fs source tag = .ok (.absent l source) := by
  unfold coverageOf
  rw [hp]
  dsimp only
  rw [hf]

end

/-- Beside a directory that can be loaded, a target is found whenever a file of the directory has
one of the names that are looked for; it is a bundle of the directory for the locale, and what
it translates is measured.  Where no file is named like the tag or the canonical tag, with
either separator, the locale counts as one without a bundle. -/
theorem coverageOf_of_ofDirectory (o : CoverageOptions) (fs : Files) (source : Entries)
    (tag : String) (l : Locale) (bundles : List BundleSource) (hp : Locale.parse tag = .ok l)
    (hb : BundleSource.ofDirectory fs o.directory = .ok bundles) :
    ∃ paths, BundleSource.pathsIn fs o.directory = .ok paths ∧
      (∀ b, b ∈ bundles ↔ ∃ path ∈ paths, BundleSource.ofFile fs path = .ok b) ∧
      ((∃ path ∈ paths, Path.stem path ∈ stems tag l) →
        ∃ path ∈ paths, ∃ b ∈ bundles, findBundle? fs o.directory tag l = some path ∧
          BundleSource.ofFile fs path = .ok b ∧ b.locale = l ∧
          o.coverageOf fs source tag = .ok (.measure l source b.entries)) ∧
      ((∀ path ∈ paths, hyphenated (Path.stem path).toList ≠ hyphenated tag.toList ∧
          hyphenated (Path.stem path).toList ≠ l.tag.toList) →
        findBundle? fs o.directory tag l = none ∧
          o.coverageOf fs source tag = .ok (.absent l source)) := by
  rw [BundleSource.ofDirectory] at hb
  cases hd : BundleSource.pathsIn fs o.directory with
  | error e =>
    rw [hd] at hb
    cases hb
  | ok paths =>
    rw [hd] at hb
    have hb : BundleSource.ofFiles fs paths = .ok bundles := hb
    refine ⟨paths, rfl, fun b => BundleSource.mem_ofFiles_iff hb, ?found, ?absent⟩
    case found =>
      rintro ⟨path, hm, hs⟩
      obtain ⟨path, hf⟩ := Coverage.exists_findBundle?_eq_some hd hm hs
      obtain ⟨hm, hs⟩ := Coverage.mem_pathsIn_of_findBundle? hd hp hf
      obtain ⟨b, hbm, hbf, hbl⟩ :=
        BundleSource.exists_ofFile_eq_ok hb hm (Coverage.parse_of_mem_stems hp hs)
      exact ⟨path, hm, b, hbm, hf, hbf, hbl, coverageOf_of_findBundle?_eq_some source hp hf hbf⟩
    case absent =>
      intro hn
      have hf : findBundle? fs o.directory tag l = none := by
        rw [Option.eq_none_iff_forall_not_mem]
        intro path hf
        obtain ⟨hm, hs⟩ := Coverage.mem_pathsIn_of_findBundle? hd hp hf
        rcases Coverage.hyphenated_of_mem_stems hs with he | he
        · exact (hn path hm).1 he
        · exact (hn path hm).2 he
      exact ⟨hf, coverageOf_of_findBundle?_eq_none source hp hf⟩

/-- A directory with a name in capitals, and one with an underscore. -/
def mixedNames : Files :=
  .ofList
    [("d/EN.json", .text "\x7b\"a\":\"x\"\x7d"), ("d/de_AT.json", .text "\x7b\"a\":\"y\"\x7d")]

theorem pathsIn_mixedNames :
    BundleSource.pathsIn mixedNames "d" = .ok ["d/EN.json", "d/de_AT.json"] := by
  have hd : mixedNames.locate "d" = .ok (⟨false, ["d"]⟩, .directory) := by decide +kernel
  have hn : mixedNames.entries.keys.filterMap (Files.nameIn? ⟨false, ["d"]⟩) =
      ["EN.json", "de_AT.json"] := by
    decide +kernel
  have hl : mixedNames.list "d" = .ok ["EN.json", "de_AT.json"] := by
    rw [Files.list, hd]
    dsimp only
    rw [hn, List.mergeSort_of_pairwise (by decide +kernel)]
  rw [BundleSource.pathsIn, hl]
  decide +kernel

theorem exists_ofDirectory_mixedNames :
    ∃ bundles, BundleSource.ofDirectory mixedNames "d" = .ok bundles ∧
      bundles.map (fun b => b.locale.tag) = ["en", "de-AT"] := by
  have hb : (BundleSource.ofDirectory mixedNames "d").toOption.map
      (fun bundles => bundles.map fun b => b.locale.tag) = some ["en", "de-AT"] := by
    rw [BundleSource.ofDirectory, pathsIn_mixedNames, Except.bind]
    decide +kernel
  cases hd : BundleSource.ofDirectory mixedNames "d" with
  | error e =>
    rw [hd] at hb
    cases hb
  | ok bundles =>
    rw [hd] at hb
    exact ⟨bundles, rfl, Option.some.inj hb⟩

/-- What a locale translates of a source in this directory. -/
def besideMixedNames (tag : String) : Except Failure Coverage :=
  coverageOf ⟨"d/de.json", [tag], none, false, false⟩ mixedNames (.ofList [("a", "z")]) tag

theorem coverageOf_of_ofDirectory_mixedNames :
    (∃ l bundles, Locale.parse "de-at" = .ok l ∧
      BundleSource.ofDirectory mixedNames "d" = .ok bundles ∧
      ∃ b ∈ bundles, b.locale = l ∧
        besideMixedNames "de-at" = .ok (.measure l (.ofList [("a", "z")]) b.entries)) ∧
      ∃ l, Locale.parse "fr" = .ok l ∧
        besideMixedNames "fr" = .ok (.absent l (.ofList [("a", "z")])) := by
  obtain ⟨bundles, hb, -⟩ := exists_ofDirectory_mixedNames
  have hde : (Locale.parse "de-at").toOption.map Locale.tag = some "de-AT" := by decide +kernel
  have hfr : (Locale.parse "fr").toOption.map Locale.tag = some "fr" := by decide +kernel
  obtain ⟨austria, ha, hat⟩ := Option.map_eq_some_iff.1 hde
  obtain ⟨french, hf, hft⟩ := Option.map_eq_some_iff.1 hfr
  have ha := Locale.eq_ok_iff_toOption_eq.2 ha
  have hf := Locale.eq_ok_iff_toOption_eq.2 hf
  constructor
  · obtain ⟨paths, hd, -, hfound, -⟩ := coverageOf_of_ofDirectory
      ⟨"d/de.json", ["de-at"], none, false, false⟩ mixedNames (.ofList [("a", "z")]) "de-at"
      austria bundles ha hb
    cases hd.symm.trans pathsIn_mixedNames
    have hs : Path.stem "d/de_AT.json" ∈ stems "de-at" austria := by
      rw [stems, hat]
      decide +kernel
    obtain ⟨-, -, b, hm, -, -, hl, hc⟩ := hfound ⟨_, by simp, hs⟩
    exact ⟨austria, bundles, ha, hb, b, hm, hl, hc⟩
  · obtain ⟨paths, hd, -, -, habsent⟩ := coverageOf_of_ofDirectory
      ⟨"d/de.json", ["fr"], none, false, false⟩ mixedNames (.ofList [("a", "z")]) "fr"
      french bundles hf hb
    cases hd.symm.trans pathsIn_mixedNames
    refine ⟨french, hf, (habsent ?_).2⟩
    rw [hft]
    decide +kernel

/-- A name in capitals is not looked for, but loaded. -/
theorem besideMixedNames_en :
    Locale.parse "en" = .ok .english ∧
      (∃ bundles, BundleSource.ofDirectory mixedNames "d" = .ok bundles ∧
        ∃ b ∈ bundles, b.locale = .english) ∧
      findBundle? mixedNames "d" "en" .english = none ∧
      besideMixedNames "en" = .ok (.absent .english (.ofList [("a", "z")])) := by
  obtain ⟨bundles, hb, ht⟩ := exists_ofDirectory_mixedNames
  have hp : Locale.parse "en" = .ok .english := Locale.parse_tag .english
  have hm : "en" ∈ bundles.map fun b => b.locale.tag := by simp [ht]
  obtain ⟨b, hm, hl⟩ := List.mem_map.1 hm
  have hf : findBundle? mixedNames "d" "en" .english = none := by decide +kernel
  exact ⟨hp, ⟨bundles, hb, b, hm, Locale.tag_injective hl⟩, hf,
    coverageOf_of_findBundle?_eq_none _ hp hf⟩

end Command.CoverageOptions

end Phrasebook
