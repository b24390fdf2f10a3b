import Phrasebook.Proofs.Locale.Spelling

/-!
# Phrasebook.Proofs.Locale.Naming

Tags in the names of files.

Every subtag that is read has letters and digits only (`kind_of_mem`), so a tag that names a
locale has no slash in it, whichever way it is written (`slash_not_mem_of_parse`).  The canonical
tag may be written with underscores (`parse_underscored`).
-/

namespace Phrasebook

namespace Locale

open Subtag (lower upper title isLanguage isScript isRegion isVariant)
open Text (splitOn trimChars isBlank)

/-! ## tags as parts of paths -/

section
variable {tag : String} {l : Locale} {p : List Char} {ps : List (List Char)}

theorem mem_readSubtag {form : List Char → List Char} {kind : List Char → Bool} (h : p ∈ ps) :
    kind (form p) = true ∨ p ∈ (readSubtag form kind ps).2 := by
  cases ps with
  | nil => cases h
  | cons q ps =>
    rw [readSubtag]
    split
    · next hk =>
      rcases List.mem_cons.1 h with rfl | h
      · exact .inl hk
      · exact .inr h
    · exact .inr h

/-- Every subtag that is read is of one of the four kinds. -/
theorem kind_of_mem (h : ofSubtags? ps = some l) (hp : p ∈ ps) :
    isLanguage (lower p) = true ∨ isScript (title p) = true ∨ isRegion (upper p) = true ∨
      isVariant (lower p) = true := by
  cases ps with
  | nil => cases hp
  | cons q ps =>
    rw [ofSubtags?] at h
    dsimp only at h
    split at h
    · next hv =>
      rcases List.mem_cons.1 hp with rfl | hp
      · rw [ofParts?] at h
        split at h
        · next hk => exact .inl hk.1
        · cases h
      · right
        rcases mem_readSubtag hp with hk | hp
        · exact .inl hk
        · rcases mem_readSubtag hp with hk | hp
          · exact .inr (.inl hk)
          · rw [areVariants, Bool.and_eq_true] at hv
            exact .inr (.inr (List.all_eq_true.1 hv.1 _ (List.mem_map_of_mem hp)))
    · cases h

theorem slash_not_mem_of_ofSubtags? (h : ofSubtags? ps = some l) (hp : p ∈ ps) : '/' ∉ p := by
  intro hm
  have hl : '/' ∈ lower p := List.mem_map_of_mem hm
  have hu : '/' ∈ upper p := List.mem_map_of_mem hm
  have ht : '/' ∈ title p := by
    cases p with
    | nil => cases hm
    | cons c p =>
      rcases List.mem_cons.1 hm with rfl | hm
      · exact List.mem_cons_self
      · exact List.mem_cons_of_mem _ (List.mem_map_of_mem hm)
  have ha : ('/').isAlphanum = true := by
    rcases kind_of_mem h hp with hk | hk | hk | hk
    · exact Subtag.isAlphanum_of_isLanguage hk hl
    · exact Subtag.isAlphanum_of_isScript hk ht
    · exact Subtag.isAlphanum_of_isRegion hk hu
    · exact List.all_eq_true.1 (Bool.and_eq_true_iff.1 hk).1 _ hl
  cases ha

/-- A tag that names a locale can be a part of a path. -/
theorem slash_not_mem_of_parse (h : parse tag = .ok l) : '/' ∉ tag.toList := by
  intro hm
  have hh : '/' ∈ hyphenated (trimChars tag.toList) :=
    List.mem_map.2 ⟨'/', Text.mem_trimChars hm (by decide), by decide⟩
  have hs : ofSubtags? (splitOn '-' (hyphenated (trimChars tag.toList))) = some l := by
    rw [parse] at h
    split at h
    · next hs => exact hs.trans (congrArg some (Except.ok.inj h))
    · cases h
  rcases Text.eq_or_mem_flatten_splitOn '-' hh with he | hm
  · cases he
  · obtain ⟨p, hp, hm⟩ := List.mem_flatten.1 hm
    exact slash_not_mem_of_ofSubtags? hs hp hm

theorem ne_empty_of_parse (h : parse tag = .ok l) : tag ≠ "" := by
  rintro rfl
  have he : (parse "").toOption = none := by decide +kernel
  rw [h] at he
  cases he

/-- The canonical tag with the other separator names the same locale. -/
theorem parse_underscored (l : Locale) : parse (Text.replaceChar '-' '_' l.tag) = .ok l := by
  have hi : List.Forall₂ Interchangeable l.tag.toList
      (l.tag.toList.map fun c => if c = '-' then '_' else c) := by
    rw [List.forall₂_map_right_iff, List.forall₂_same]
    intro c _
    split
    · next hc => exact .inr ⟨.inl hc, .inr rfl⟩
    · exact .inl rfl
  have hr := @toOption_parse_respelt _ _ [] [] hi nofun nofun
  rw [List.nil_append, List.append_nil, String.ofList_toList] at hr
  rw [eq_ok_iff_toOption_eq, Text.replaceChar, hr, ← eq_ok_iff_toOption_eq, parse_tag]

theorem hyphenated_underscored (l : Locale) :
    hyphenated (Text.replaceChar '-' '_' l.tag).toList = l.tag.toList := by
  conv_rhs => rw [← hyphenated_tag l]
  rw [Text.replaceChar, String.toList_ofList, hyphenated, hyphenated, List.map_map]
  refine List.map_congr_left fun c _ => ?_
  by_cases hc : c = '-' <;> simp [hc]

end

end Locale

end Phrasebook
