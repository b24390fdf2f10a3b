import Phrasebook.Locale.Basic

/-!
# Phrasebook.Proofs.Locale.Tag

The canonical tag tells the locale.

No subtag has a hyphen in it, so the tag can be cut into its subtags again
(`splitString_tag`).  A script is longer than a region, which tells the two apart
where only one of them is given (`tag_injective`).
-/

namespace Phrasebook

namespace Subtag

theorem isAlphanum_of_isUpper {c : Char} (h : c.isUpper = true) : c.isAlphanum = true :=
  Bool.or_eq_true_iff.2 (.inl (Bool.or_eq_true_iff.2 (.inl h)))

theorem isAlphanum_of_isLower {c : Char} (h : c.isLower = true) : c.isAlphanum = true :=
  Bool.or_eq_true_iff.2 (.inl (Bool.or_eq_true_iff.2 (.inr h)))

theorem isAlphanum_of_isDigit {c : Char} (h : c.isDigit = true) : c.isAlphanum = true :=
  Bool.or_eq_true_iff.2 (.inr h)

theorem isAlphanum_of_isLanguage {s : List Char} (h : isLanguage s = true) {c : Char}
    (hc : c ∈ s) : c.isAlphanum = true :=
  isAlphanum_of_isLower (List.all_eq_true.1 (Bool.and_eq_true_iff.1 h).2 c hc)

theorem isAlphanum_of_isScript {s : List Char} (h : isScript s = true) {c : Char}
    (hc : c ∈ s) : c.isAlphanum = true := by
  unfold isScript at h
  split at h
  · simp only [Bool.and_eq_true] at h
    obtain ⟨⟨⟨h₁, h₂⟩, h₃⟩, h₄⟩ := h
    simp only [List.mem_cons, List.not_mem_nil, or_false] at hc
    rcases hc with rfl | rfl | rfl | rfl
    · exact isAlphanum_of_isUpper h₁
    · exact isAlphanum_of_isLower h₂
    · exact isAlphanum_of_isLower h₃
    · exact isAlphanum_of_isLower h₄
  · cases h

theorem isAlphanum_of_isRegion {s : List Char} (h : isRegion s = true) {c : Char}
    (hc : c ∈ s) : c.isAlphanum = true := by
  rcases Bool.or_eq_true_iff.1 h with h | h
  · exact isAlphanum_of_isUpper (List.all_eq_true.1 (Bool.and_eq_true_iff.1 h).2 c hc)
  · exact isAlphanum_of_isDigit (List.all_eq_true.1 (Bool.and_eq_true_iff.1 h).2 c hc)

theorem length_of_isScript {s : List Char} (h : isScript s = true) : s.length = 4 := by
  unfold isScript at h
  split at h
  · rfl
  · cases h

theorem length_of_isRegion {s : List Char} (h : isRegion s = true) : s.length < 4 := by
  simp only [isRegion, Bool.or_eq_true, Bool.and_eq_true, beq_iff_eq] at h
  omega

/-- A region is no script. -/
theorem isScript_of_isRegion {s : List Char} (h : isRegion s = true) : isScript s = false := by
  rw [Bool.eq_false_iff]
  intro hs
  have h4 := length_of_isScript hs
  have h3 := length_of_isRegion h
  omega

end Subtag

namespace Locale

/-- Subtags have letters and digits only. -/
theorem isAlphanum_of_mem_subtags {l : Locale} {s : String} (h : s ∈ l.subtags) {c : Char}
    (hc : c ∈ s.toList) : c.isAlphanum = true := by
  rw [subtags, List.mem_cons, List.mem_append, Option.mem_toList, Option.mem_toList] at h
  rcases h with rfl | h | h
  · exact Subtag.isAlphanum_of_isLanguage l.isLanguage_language hc
  · exact Subtag.isAlphanum_of_isScript (l.isScript_script s h) hc
  · exact Subtag.isAlphanum_of_isRegion (l.isRegion_region s h) hc

theorem hyphen_not_mem_of_mem_subtags {l : Locale} {s : String} (h : s ∈ l.subtags) :
    '-' ∉ s.toList :=
  fun hm => absurd (isAlphanum_of_mem_subtags h hm) (by decide)

theorem splitOn_tag (l : Locale) :
    Text.splitOn '-' l.tag.toList = l.subtags.map String.toList := by
  have hn : l.subtags.map String.toList ≠ [] := by simp [subtags]
  have hs : ∀ p ∈ l.subtags.map String.toList, '-' ∉ p := by
    intro p hp
    obtain ⟨s, hs, rfl⟩ := List.mem_map.1 hp
    exact hyphen_not_mem_of_mem_subtags hs
  have ht : "-".toList = ['-'] := rfl
  rw [tag, String.toList_intercalate, ht, Text.splitOn_intercalate hn hs]

/-- A canonical tag is cut into its subtags. -/
theorem splitString_tag (l : Locale) : Text.splitString '-' l.tag = l.subtags := by
  rw [Text.splitString, splitOn_tag, List.map_map]
  simp

/-- The script is the second subtag, if that looks like a script. -/
theorem script_eq (l : Locale) :
    l.script = l.subtags.tail.head?.filter fun s => Subtag.isScript s.toList := by
  cases hs : l.script with
  | some s =>
    have hc := l.isScript_script s hs
    simp [subtags, hs, Option.filter, hc]
  | none =>
    cases hr : l.region with
    | none => simp [subtags, hs, hr]
    | some r =>
      have hc : Subtag.isScript r.toList = false :=
        Subtag.isScript_of_isRegion (l.isRegion_region r hr)
      simp [subtags, hs, hr, Option.filter, hc]

/-- The region is the subtag after the script. -/
theorem region_eq (l : Locale) :
    l.region = (l.subtags.drop (l.script.toList.length + 1)).head? := by
  rw [subtags, List.drop_succ_cons, List.drop_left]
  cases l.region <;> rfl

theorem subtags_injective {l l' : Locale} (h : l.subtags = l'.subtags) : l = l' := by
  have hl : l.language = l'.language := (List.cons.inj h).1
  have hs : l.script = l'.script := by rw [script_eq l, script_eq l', h]
  have hr : l.region = l'.region := by rw [region_eq l, region_eq l', hs, h]
  cases l
  cases l'
  cases hl
  cases hs
  cases hr
  rfl

/-- Locales of one tag are the same. -/
theorem tag_injective {l l' : Locale} (h : l.tag = l'.tag) : l = l' :=
  subtags_injective (by rw [← splitString_tag, ← splitString_tag, h])

theorem tag_inj {l l' : Locale} : l.tag = l'.tag ↔ l = l' := ⟨tag_injective, congrArg tag⟩

/-! ## locales to speak of -/

/-- English, of no particular region. -/
def english : Locale := (ofSubtags? ["en".toList]).get (by decide)

/-- German, of no particular region. -/
def german : Locale := (ofSubtags? ["de".toList]).get (by decide)

end Locale

end Phrasebook
