import Mathlib.Data.List.TakeWhile
import Phrasebook.Files.Bundle

/-!
# Phrasebook.Proofs.Files.Directory

What a directory lists, told from the paths that lead into it.

A name put behind the path of a directory leads to that name in the directory
(`Files.locate_join`).  What it leads to is listed unless it is a directory (`Files.mem_list`).
So the bundles of a directory are in those files that the path of the directory, with a stem
and `.json` behind it, leads to (`BundleSource.mem_pathsIn_iff`).  Where the directory can be
loaded each of these files is read, if its stem names a locale (`BundleSource.mem_ofFiles_iff`,
`BundleSource.exists_ofFile_eq_ok`).
-/

namespace Phrasebook

namespace Path

/-! ## names in paths -/

/-- What can name a file in a directory: no slash is in it, and it does not mean the
directory itself or the one around it. -/
structure IsName (name : String) : Prop where
  slash_not_mem : '/' ∉ name.toList
  ne_empty : name ≠ ""
  ne_dot : name ≠ "."
  ne_dots : name ≠ ".."

section
variable {dir name stem : String}

theorem join_eq (hd : dir ≠ "") (hn : '/' ∉ name.toList) :
    join dir name = if dir.toList.getLast? = some '/' then dir ++ name else dir ++ "/" ++ name := by
  have ha : isAbsolute name = false := by
    rw [isAbsolute, beq_eq_false_iff_ne]
    exact fun h => hn (List.mem_of_mem_head? h)
  rw [join, if_neg (by simp [ha, hd])]

/-- The parts of a joined path are those of the directory, apart from an empty one at its end,
and the name. -/
theorem parts_join (hd : dir ≠ "") (hn : '/' ∉ name.toList) :
    ∃ outer, parts (join dir name) = outer ++ [name] ∧
      (parts dir = outer ∨ parts dir = outer ++ [""]) := by
  rw [join_eq hd hn]
  by_cases hl : dir.toList.getLast? = some '/'
  · obtain ⟨s, hs⟩ := List.getLast?_eq_some_iff.1 hl
    refine ⟨(Text.splitOn '/' s).map String.ofList, ?_, .inr ?_⟩
    · rw [if_pos hl, parts, Text.splitString, String.toList_append, hs, List.append_assoc,
        List.singleton_append, Text.splitOn_append, Text.splitOn_of_not_mem hn]
      simp
    · rw [parts, Text.splitString, hs, Text.splitOn_append]
      simp [Text.splitOn]
  · refine ⟨parts dir, ?_, .inl rfl⟩
    have ht : (dir ++ "/" ++ name).toList = dir.toList ++ '/' :: name.toList := by simp
    rw [if_neg hl, parts, parts, Text.splitString, ht, Text.splitOn_append,
      Text.splitOn_of_not_mem hn]
    simp [Text.splitString]

theorem isAbsolute_join (hd : dir ≠ "") (hn : '/' ∉ name.toList) :
    isAbsolute (join dir name) = isAbsolute dir := by
  obtain ⟨c, s, hs⟩ : ∃ c s, dir.toList = c :: s :=
    List.exists_cons_of_ne_nil fun h => hd (String.toList_injective h)
  rw [join_eq hd hn]
  split <;> simp [isAbsolute, hs]

/-- The name behind the path of a directory is the file name, unless it leads upwards. -/
theorem fileName?_join_eq (hd : dir ≠ "") (hn : '/' ∉ name.toList) (he : name ≠ "")
    (hdot : name ≠ ".") : fileName? (join dir name) = if name = ".." then none else some name := by
  obtain ⟨outer, hp, -⟩ := parts_join hd hn
  have hi : ∃ rest, dropIdle (name :: outer.reverse) = name :: rest := by
    cases outer.reverse with
    | nil => exact ⟨[], rfl⟩
    | cons p ps => exact ⟨p :: ps, if_neg (by simp [he, hdot])⟩
  obtain ⟨rest, hi⟩ := hi
  rw [fileName?, hp, List.reverse_concat, hi]
  simp [he, hdot]

theorem fileName?_join (hd : dir ≠ "") (hn : IsName name) :
    fileName? (join dir name) = some name := by
  rw [fileName?_join_eq hd hn.slash_not_mem hn.ne_empty hn.ne_dot, if_neg hn.ne_dots]

/-! ## extensions -/

theorem splitName_of_not_mem (h : '.' ∉ name.toList) : splitName name = (name, none) := by
  have hd : name.toList.reverse.dropWhile (· ≠ '.') = [] := by
    rw [List.dropWhile_eq_nil_iff]
    intro c hc
    exact decide_eq_true fun he => h (he ▸ List.mem_reverse.1 hc)
  rw [splitName, hd]

/-- A name is cut at its last dot, unless that is its first character. -/
theorem splitName_append (stem : String) {extension : String} (h : '.' ∉ extension.toList) :
    splitName (stem ++ "." ++ extension) =
      if stem = "" then (stem ++ "." ++ extension, none) else (stem, some extension) := by
  have hr : (stem ++ "." ++ extension).toList.reverse =
      extension.toList.reverse ++ '.' :: stem.toList.reverse := by
    simp
  have hp : ∀ c ∈ extension.toList.reverse, decide (c ≠ '.') = true :=
    fun c hc => decide_eq_true fun he => h (he ▸ List.mem_reverse.1 hc)
  rw [splitName, hr, List.takeWhile_append_of_pos hp, List.dropWhile_append_of_pos hp]
  cases hs : stem.toList.reverse with
  | nil =>
    have he : stem = "" := String.toList_injective (List.reverse_eq_nil_iff.1 hs)
    simp [he]
  | cons c rest =>
    have hn : stem ≠ "" := by
      rintro rfl
      cases hs
    simp [hn, ← hs]

/-- An extension is what stands behind the last dot of a name, if the stem in front of the dot is
not empty. -/
theorem splitName_eq_iff {extension : String} :
    splitName name = (stem, some extension) ↔
      stem ≠ "" ∧ '.' ∉ extension.toList ∧ name = stem ++ "." ++ extension := by
  constructor
  · intro h
    by_cases hm : '.' ∈ name.toList.reverse
    · obtain ⟨u, v, hs, hu⟩ := List.eq_append_cons_of_mem hm
      have hn : name = String.ofList v.reverse ++ "." ++ String.ofList u.reverse :=
        String.toList_injective (by simpa using congrArg List.reverse hs)
      have hu : '.' ∉ (String.ofList u.reverse).toList := by simpa using hu
      rw [hn, splitName_append _ hu] at h
      split at h
      · cases h
      · next hv =>
        cases h
        exact ⟨hv, hu, hn⟩
    · rw [splitName_of_not_mem fun h => hm (List.mem_reverse.2 h)] at h
      cases h
  · rintro ⟨hs, he, rfl⟩
    rw [splitName_append stem he, if_neg hs]

/-- The name of a bundle's file. -/
theorem isName_append_json (hs : '/' ∉ stem.toList) : IsName (stem ++ ".json") := by
  have hl : (stem ++ ".json").toList.getLast? = some 'n' := by simp
  refine ⟨by simp [hs], ?_, ?_, ?_⟩
  all_goals
    intro h
    rw [h] at hl
    cases hl

theorem splitName_append_json (h : stem ≠ "") : splitName (stem ++ ".json") = (stem, some "json") :=
  splitName_eq_iff.2 ⟨h, by decide, by rw [String.append_assoc]; rfl⟩

/-- A path of a directory, a stem and `.json` has this stem. -/
theorem stem_join (hd : dir ≠ "") (h : stem ≠ "") (hs : '/' ∉ stem.toList) :
    Path.stem (join dir (stem ++ ".json")) = stem := by
  rw [Path.stem, fileName?_join hd (isName_append_json hs), Option.map_some,
    splitName_append_json h, Option.getD_some]

/-- A joined path has the extension `json` if its name is a stem and `.json`. -/
theorem extension?_join_eq_json_iff (hd : dir ≠ "") (hn : IsName name) :
    extension? (join dir name) = some "json" ↔ ∃ stem, stem ≠ "" ∧ name = stem ++ ".json" := by
  rw [extension?, fileName?_join hd hn, Option.bind_some]
  constructor
  · intro h
    have hs : splitName name = ((splitName name).1, some "json") := Prod.ext rfl h
    obtain ⟨h₁, -, h₂⟩ := splitName_eq_iff.1 hs
    exact ⟨_, h₁, by rw [String.append_assoc] at h₂; exact h₂⟩
  · rintro ⟨stem, hs, rfl⟩
    rw [splitName_append_json hs]

end

end Path

namespace Files

open Phrasebook.Path (IsName join parts)
open Location (start)

section
variable {fs : Files} {dir name path : String} {p q : Location} {e : FileEntry}

/-! ## following a path -/

theorem follow_append (fs : Files) (p : Location) (xs ys : List String) :
    fs.follow p (xs ++ ys) = (fs.follow p xs).bind fun q => fs.follow q ys := by
  induction xs generalizing p with
  | nil => rfl
  | cons x xs ih =>
    rw [List.cons_append, follow, follow, ih]
    split <;> rfl

theorem follow_singleton (h : fs.entry? p = some .directory) (part : String) :
    fs.follow p [part] = .ok (p.enter part) := by
  rw [follow, h]
  rfl

/-- A path is followed through directories. -/
theorem entry?_of_follow_singleton {part : String} (h : fs.follow p [part] = .ok q) :
    fs.entry? p = some .directory := by
  rw [follow] at h
  split at h
  · cases h
  · assumption
  · cases h

theorem locate_eq_ok_iff :
    fs.locate path = .ok (p, e) ↔
      path ≠ "" ∧ fs.follow (start path) (parts path) = .ok p ∧ fs.entry? p = some e := by
  constructor
  · intro h
    rw [locate] at h
    split at h
    · cases h
    · next hne =>
      split at h
      · cases h
      · next hf =>
        split at h
        · cases h
        · next he =>
          cases h
          exact ⟨hne, hf, he⟩
  · rintro ⟨hne, hf, he⟩
    simp only [locate, if_neg hne, hf, he]

/-- The path of a directory with a name behind it is followed to the name in the directory. -/
theorem follow_join (hd : fs.locate dir = .ok (p, .directory)) (hn : '/' ∉ name.toList) :
    fs.follow (start (join dir name)) (parts (join dir name)) = .ok (p.enter name) := by
  obtain ⟨hne, hf, he⟩ := locate_eq_ok_iff.1 hd
  have hs : start (join dir name) = start dir := by
    rw [start, start, Path.isAbsolute_join hne hn]
  obtain ⟨outer, hp, ho⟩ := Path.parts_join hne hn
  have hq : fs.follow (start dir) outer = .ok p := by
    rcases ho with ho | ho
    · rw [← ho, hf]
    · -- the empty part at the end stays where it is
      rw [ho, follow_append] at hf
      cases hq : fs.follow (start dir) outer with
      | error fault =>
        rw [hq] at hf
        cases hf
      | ok q =>
        rw [hq] at hf
        have hf : fs.follow q [""] = .ok p := hf
        rw [follow_singleton (entry?_of_follow_singleton hf)] at hf
        exact hf
  rw [hs, hp, follow_append, hq]
  exact follow_singleton he name

/-- A name behind the path of a directory leads to what has this name in the directory. -/
theorem locate_join (hd : fs.locate dir = .ok (p, .directory)) (hn : '/' ∉ name.toList) :
    fs.locate (join dir name) = .ok (q, e) ↔ q = p.enter name ∧ fs.entry? q = some e := by
  have hne : join dir name ≠ "" := by
    rw [Path.join_eq (locate_eq_ok_iff.1 hd).1 hn]
    split <;> simp [(locate_eq_ok_iff.1 hd).1]
  rw [locate_eq_ok_iff, follow_join hd hn, Except.ok.injEq, eq_comm (a := p.enter name)]
  exact ⟨fun h => h.2, fun h => ⟨hne, h⟩⟩

theorem isFile_iff :
    fs.isFile path = true ↔ ∃ p e, fs.locate path = .ok (p, e) ∧ e ≠ .directory := by
  rw [isFile]
  cases fs.locate path with
  | error fault => simp
  | ok x =>
    obtain ⟨p, e⟩ := x
    cases e with
    | directory => simp
    | text content => exact ⟨fun _ => ⟨p, _, rfl, nofun⟩, fun _ => rfl⟩
    | binary => exact ⟨fun _ => ⟨p, _, rfl, nofun⟩, fun _ => rfl⟩

/-- A name in a directory leads to a file if that is what the directory has there. -/
theorem isFile_join_iff (hd : fs.locate dir = .ok (p, .directory)) (hn : '/' ∉ name.toList) :
    fs.isFile (join dir name) = true ↔ ∃ e, fs.entry? (p.enter name) = some e ∧ e ≠ .directory := by
  rw [isFile_iff]
  constructor
  · rintro ⟨q, e, hl, he⟩
    obtain ⟨rfl, hq⟩ := (locate_join hd hn).1 hl
    exact ⟨e, hq, he⟩
  · rintro ⟨e, hq, he⟩
    exact ⟨_, e, (locate_join hd hn).2 ⟨rfl, hq⟩, he⟩

/-- A dot behind the path of a directory leads back to it. -/
theorem isFile_join_dot (hd : fs.locate dir = .ok (p, .directory)) :
    fs.isFile (join dir ".") = false := by
  rw [Bool.eq_false_iff, Ne, isFile_join_iff hd (by decide)]
  rintro ⟨e, hp, he⟩
  have hs : fs.entry? p = some e := hp
  rw [(locate_eq_ok_iff.1 hd).2.2] at hs
  exact he (Option.some.inj hs).symm

/-! ## listing a directory -/

theorem enter_eq (p : Location) (hn : IsName name) :
    p.enter name = { p with names := name :: p.names } := by
  rw [Location.enter, if_neg (by simp [hn.ne_empty, hn.ne_dot]), if_neg hn.ne_dots]

/-- The last part of the shortest path to a name in a directory is the name. -/
theorem getLast?_parts_childKey (p : Location) (hn : IsName name) :
    (parts (p.childKey name)).getLast? = some name := by
  obtain ⟨front, ps, hf, hk⟩ : ∃ front ps, (front = [] ∨ front = ['/']) ∧
      (p.childKey name).toList = front ++ List.intercalate ['/'] (ps ++ [name.toList]) := by
    rw [Location.childKey, enter_eq p hn, Location.key]
    refine ⟨(if p.absolute then "/" else "").toList, p.names.reverse.map String.toList, ?_, ?_⟩
    · cases p.absolute <;> simp
    · simp
  have hl := Text.getLast?_splitOn_intercalate hn.slash_not_mem ps
  rw [parts, Text.splitString, List.getLast?_map, hk]
  rcases hf with rfl | rfl
  · rw [List.nil_append, hl, Option.map_some, String.ofList_toList]
  · have hs := Text.splitOn_append '/' [] (List.intercalate ['/'] (ps ++ [name.toList]))
    rw [List.nil_append] at hs
    rw [List.singleton_append, hs, List.getLast?_append, hl, Option.some_or, Option.map_some,
      String.ofList_toList]

theorem nameIn?_eq_some_iff {key : String} :
    nameIn? p key = some name ↔
      (parts key).getLast? = some name ∧ name ≠ "" ∧ p.childKey name = key := by
  simp [nameIn?, Option.filter_eq_some_iff]

/-- The names that are listed are those of the shortest paths into the directory. -/
theorem list_eq_ok {names : List String} (h : fs.list dir = .ok names) :
    ∃ p, fs.locate dir = .ok (p, .directory) ∧
      ∀ name, name ∈ names ↔ ∃ key ∈ fs.entries, nameIn? p key = some name := by
  rw [list] at h
  split at h
  · cases h
  · next p hl =>
    cases h
    refine ⟨p, hl, fun name => ?_⟩
    simp [List.mem_mergeSort, List.mem_filterMap]
  · cases h

/-- Files in a directory are listed. -/
theorem mem_list {names : List String} (h : fs.list dir = .ok names) (hn : IsName name)
    (hf : fs.isFile (join dir name) = true) : name ∈ names := by
  obtain ⟨p, hd, hl⟩ := list_eq_ok h
  obtain ⟨e, hq, he⟩ := (isFile_join_iff hd hn.slash_not_mem).1 hf
  unfold entry? at hq
  split at hq
  · exact absurd (Option.some.inj hq).symm he
  · have hk : p.childKey name ∈ fs.entries := by
      rw [Std.TreeMap.mem_iff_isSome_getElem?]
      exact Option.isSome_of_eq_some hq
    exact (hl name).2 ⟨_, hk,
      nameIn?_eq_some_iff.2 ⟨getLast?_parts_childKey p hn, hn.ne_empty, rfl⟩⟩

/-- A listed name has no slash in it. -/
theorem slash_not_mem_of_mem_list {names : List String} (h : fs.list dir = .ok names)
    (hn : name ∈ names) : '/' ∉ name.toList ∧ name ≠ "" := by
  obtain ⟨p, -, hl⟩ := list_eq_ok h
  obtain ⟨key, -, hk⟩ := (hl name).1 hn
  obtain ⟨hg, hne, -⟩ := nameIn?_eq_some_iff.1 hk
  obtain ⟨piece, hp, rfl⟩ := List.mem_map.1 (List.mem_of_getLast? hg)
  exact ⟨by simpa using Text.not_mem_of_mem_splitOn hp, hne⟩

end

end Files

namespace BundleSource

open Phrasebook.Path (join)

theorem ne_empty_of_pathsIn {fs : Files} {dir : String} {paths : List String}
    (h : pathsIn fs dir = .ok paths) : dir ≠ "" := by
  rw [pathsIn] at h
  split at h
  · cases h
  · next hl =>
    obtain ⟨p, hd, -⟩ := Files.list_eq_ok hl
    exact (Files.locate_eq_ok_iff.1 hd).1

/-- The bundles of a directory are in the files that the path of the directory with a stem and
`.json` leads to. -/
theorem mem_pathsIn_iff {fs : Files} {dir : String} {paths : List String}
    (h : pathsIn fs dir = .ok paths) (path : String) :
    path ∈ paths ↔ ∃ stem, stem ≠ "" ∧ '/' ∉ stem.toList ∧ path = join dir (stem ++ ".json") ∧
      fs.isFile path = true := by
  rw [pathsIn] at h
  split at h
  · cases h
  · next names hl =>
    cases h
    obtain ⟨p, hd, -⟩ := Files.list_eq_ok hl
    have hne : dir ≠ "" := (Files.locate_eq_ok_iff.1 hd).1
    simp only [List.mem_filter, List.mem_map, Bool.and_eq_true, beq_iff_eq]
    constructor
    · rintro ⟨⟨name, hm, rfl⟩, hf, hx⟩
      obtain ⟨hs, he⟩ := Files.slash_not_mem_of_mem_list hl hm
      have hdot : name ≠ "." := by
        rintro rfl
        rw [Files.isFile_join_dot hd] at hf
        cases hf
      have hdots : name ≠ ".." := by
        rintro rfl
        rw [Path.extension?, Path.fileName?_join_eq hne hs he hdot, if_pos rfl] at hx
        cases hx
      obtain ⟨stem, hs', rfl⟩ := (Path.extension?_join_eq_json_iff hne ⟨hs, he, hdot, hdots⟩).1 hx
      exact ⟨stem, hs', fun hm => hs (by simp [hm]), rfl, hf⟩
    · rintro ⟨stem, hs, hsl, rfl, hf⟩
      have hn := Path.isName_append_json hsl
      exact ⟨⟨_, Files.mem_list hl hn hf, rfl⟩, hf,
        (Path.extension?_join_eq_json_iff hne hn).2 ⟨stem, hs, rfl⟩⟩

/-! ## loading the files -/

section
variable {fs : Files} {path : String} {paths : List String} {b : BundleSource}
  {bundles : List BundleSource} {l : Locale}

/-- The stem of a file names the locale of its bundle. -/
theorem parse_stem_of_ofFile (h : ofFile fs path = .ok b) :
    Locale.parse (Path.stem path) = .ok b.locale := by
  unfold ofFile at h
  split at h
  · cases h
  · next l hl =>
    split at h
    · cases h
    · rw [hl]
      unfold decode at h
      split at h
      · cases h
      · cases h
        rfl
      · cases h

/-- Only a file whose stem names no locale is passed over. -/
theorem ofFile_ne_error_locale (hl : Locale.parse (Path.stem path) = .ok l) (e : Locale.Error) :
    ofFile fs path ≠ .error (.locale e) := by
  unfold ofFile
  rw [hl]
  dsimp only
  cases fs.read path with
  | error fault => simp
  | ok text =>
    dsimp only [decode]
    split <;> simp

/-- A first file gives a bundle or is passed over. -/
theorem ofFiles_cons_eq_ok (h : ofFiles fs (path :: paths) = .ok bundles) :
    (∃ b rest, ofFile fs path = .ok b ∧ ofFiles fs paths = .ok rest ∧ bundles = b :: rest) ∨
      (∃ e, ofFile fs path = .error (.locale e)) ∧ ofFiles fs paths = .ok bundles := by
  unfold ofFiles at h
  split at h
  · next b hb =>
    cases hr : ofFiles fs paths with
    | error e =>
      rw [hr] at h
      cases h
    | ok rest =>
      rw [hr] at h
      cases h
      exact .inl ⟨b, rest, hb, rfl, rfl⟩
  · next e he => exact .inr ⟨⟨e, he⟩, h⟩
  · cases h

/-- The bundles are read from the files. -/
theorem mem_ofFiles_iff (h : ofFiles fs paths = .ok bundles) :
    b ∈ bundles ↔ ∃ path ∈ paths, ofFile fs path = .ok b := by
  induction paths generalizing bundles with
  | nil =>
    cases h
    simp
  | cons path paths ih =>
    rcases ofFiles_cons_eq_ok h with ⟨a, rest, ha, hr, rfl⟩ | ⟨⟨e, he⟩, hr⟩
    · simp [ih hr, ha, eq_comm (a := a)]
    · simp [ih hr, he]

/-- Where files are loaded, each holds a bundle or is passed over. -/
theorem ofFile_of_mem (h : ofFiles fs paths = .ok bundles) (hp : path ∈ paths) :
    (∃ b, ofFile fs path = .ok b) ∨ ∃ e, ofFile fs path = .error (.locale e) := by
  induction paths generalizing bundles with
  | nil => cases hp
  | cons q paths ih =>
    rcases ofFiles_cons_eq_ok h with ⟨a, rest, ha, hr, rfl⟩ | ⟨⟨e, he⟩, hr⟩
    · rcases List.mem_cons.1 hp with rfl | hp
      · exact .inl ⟨a, ha⟩
      · exact ih hr hp
    · rcases List.mem_cons.1 hp with rfl | hp
      · exact .inr ⟨e, he⟩
      · exact ih hr hp

/-- Every file whose stem names a locale is read. -/
theorem exists_ofFile_eq_ok (h : ofFiles fs paths = .ok bundles) (hp : path ∈ paths)
    (hl : Locale.parse (Path.stem path) = .ok l) :
    ∃ b ∈ bundles, ofFile fs path = .ok b ∧ b.locale = l := by
  rcases ofFile_of_mem h hp with ⟨b, hb⟩ | ⟨e, he⟩
  · have hs := parse_stem_of_ofFile hb
    rw [hl] at hs
    exact ⟨b, (mem_ofFiles_iff h).2 ⟨path, hp, hb⟩, hb, (Except.ok.inj hs).symm⟩
  · exact absurd he (ofFile_ne_error_locale hl e)

end

end BundleSource

end Phrasebook
