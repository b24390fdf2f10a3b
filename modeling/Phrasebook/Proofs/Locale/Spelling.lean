import Mathlib.Data.List.Forall2
import Phrasebook.Proofs.Locale.Tag
import Phrasebook.Proofs.Text.ByteOrder
import Phrasebook.Text.Letter

/-!
# Phrasebook.Proofs.Locale.Spelling

Tags in other spellings, and the canonical one.

Letters of either case, either separator and blanks around a tag make no difference to the
identifier that it names: reading depends on the tag folded to small letters and hyphens
only (`toOption_parse_eq`).  A canonical tag names the identifier that it is the tag of
(`parse_tag`), so identifiers are the same, and stand in the same order, as their tags
(`order_eq`).
-/

namespace Phrasebook

namespace Subtag

/-! ## letters -/

/-- What holds of every ASCII character, and of every character that is the same in either case,
holds of all characters. -/
theorem forall_of_ascii {P : Char → Prop} (ascii : ∀ n < 128, P (Char.ofNat n))
    (caseless : ∀ c : Char, c.toLower = c → c.toUpper = c → P c) (c : Char) : P c := by
  by_cases h : c.toNat < 128
  · exact Char.ofNat_toNat c ▸ ascii c.toNat h
  · have ha : ¬ (c.isUpper || c.isLower) = true := fun ha => h (Text.toNat_lt_of_isAlpha ha)
    obtain ⟨hu, hl⟩ := not_or.1 fun hc => ha (Bool.or_eq_true_iff.2 hc)
    refine caseless c (dif_neg fun hc => hu (decide_eq_true hc)) (dif_neg fun hc => hl ?_)
    exact Bool.and_eq_true_iff.2 ⟨decide_eq_true hc.1, decide_eq_true hc.2⟩

theorem toLower_toLower (c : Char) : c.toLower.toLower = c.toLower :=
  forall_of_ascii (P := fun c => c.toLower.toLower = c.toLower) (by decide)
    (fun c hl _ => by rw [hl, hl]) c

theorem toUpper_toLower (c : Char) : c.toLower.toUpper = c.toUpper :=
  forall_of_ascii (P := fun c => c.toLower.toUpper = c.toUpper) (by decide)
    (fun c hl _ => by rw [hl]) c

theorem toLower_of_isLower {c : Char} (h : c.isLower = true) : c.toLower = c :=
  forall_of_ascii (P := fun c => c.isLower = true → c.toLower = c) (by decide)
    (fun _ hl _ _ => hl) c h

theorem toUpper_of_isUpper {c : Char} (h : c.isUpper = true) : c.toUpper = c :=
  forall_of_ascii (P := fun c => c.isUpper = true → c.toUpper = c) (by decide)
    (fun _ _ hu _ => hu) c h

theorem toUpper_of_isDigit {c : Char} (h : c.isDigit = true) : c.toUpper = c :=
  forall_of_ascii (P := fun c => c.isDigit = true → c.toUpper = c) (by decide)
    (fun _ _ hu _ => hu) c h

/-- A character that has another small form is a letter, and so is its small form. -/
theorem toLower_cases (c : Char) :
    c.toLower = c ∨ c.isAlpha = true ∧ c.toLower.isAlpha = true :=
  forall_of_ascii (P := fun c => c.toLower = c ∨ c.isAlpha = true ∧ c.toLower.isAlpha = true)
    (by decide) (fun _ hl _ => .inl hl) c

/-! ## subtags -/

theorem lower_lower (s : List Char) : lower (lower s) = lower s := by
  rw [lower, lower, List.map_map]
  exact List.map_congr_left fun c _ => toLower_toLower c

theorem upper_lower (s : List Char) : upper (lower s) = upper s := by
  rw [upper, lower, upper, List.map_map]
  exact List.map_congr_left fun c _ => toUpper_toLower c

theorem title_lower (s : List Char) : title (lower s) = title s := by
  cases s with
  | nil => rfl
  | cons c s =>
    change c.toLower.toUpper :: lower (lower s) = c.toUpper :: lower s
    rw [lower_lower, toUpper_toLower]

theorem length_title (s : List Char) : (title s).length = s.length := by
  cases s <;> simp [title, lower]

/-- A language has small letters. -/
theorem lower_of_isLanguage {s : List Char} (h : isLanguage s = true) : lower s = s := by
  have hs := List.all_eq_true.1 (Bool.and_eq_true_iff.1 h).2
  have hm : lower s = s.map id := List.map_congr_left fun c hc => toLower_of_isLower (hs c hc)
  rw [hm, List.map_id]

/-- A script has a capital and small letters. -/
theorem title_of_isScript {s : List Char} (h : isScript s = true) : title s = s := by
  unfold isScript at h
  split at h
  · simp only [Bool.and_eq_true] at h
    obtain ⟨⟨⟨ha, hb⟩, hc⟩, hd⟩ := h
    simp only [title, lower, List.map_cons, List.map_nil, toUpper_of_isUpper ha,
      toLower_of_isLower hb, toLower_of_isLower hc, toLower_of_isLower hd]
  · cases h

/-- A region has capitals or digits. -/
theorem upper_of_isRegion {s : List Char} (h : isRegion s = true) : upper s = s := by
  have hm : upper s = s.map id := by
    refine List.map_congr_left fun c hc => ?_
    rcases Bool.or_eq_true_iff.1 h with h | h
    · exact toUpper_of_isUpper (List.all_eq_true.1 (Bool.and_eq_true_iff.1 h).2 c hc)
    · exact toUpper_of_isDigit (List.all_eq_true.1 (Bool.and_eq_true_iff.1 h).2 c hc)
  rw [hm, List.map_id]

end Subtag

namespace Locale

open Subtag (lower upper title isLanguage isScript isRegion)
open Text (splitOn trimChars isBlank)

/-! ## reading in any case -/

theorem areVariants_map_lower (ps : List (List Char)) :
    areVariants (ps.map lower) = areVariants ps := by
  have h : (ps.map lower).map lower = ps.map lower := by
    rw [List.map_map]
    exact List.map_congr_left fun p _ => Subtag.lower_lower p
  rw [areVariants, areVariants, h]

theorem readSubtag_map_lower {form : List Char → List Char} (hf : ∀ s, form (lower s) = form s)
    (kind : List Char → Bool) (ps : List (List Char)) :
    readSubtag form kind (ps.map lower) =
      ((readSubtag form kind ps).1, (readSubtag form kind ps).2.map lower) := by
  cases ps with
  | nil => rfl
  | cons p ps =>
    rw [List.map_cons, readSubtag, readSubtag, hf]
    split <;> rfl

theorem readScriptAndRegion_map_lower (ps : List (List Char)) :
    readScriptAndRegion (ps.map lower) =
      ((readScriptAndRegion ps).1, (readScriptAndRegion ps).2.1,
        (readScriptAndRegion ps).2.2.map lower) := by
  simp only [readScriptAndRegion, readSubtag_map_lower Subtag.title_lower,
    readSubtag_map_lower Subtag.upper_lower]

/-- The case of letters makes no difference to the identifier. -/
theorem ofSubtags?_map_lower (ps : List (List Char)) :
    ofSubtags? (ps.map lower) = ofSubtags? ps := by
  cases ps with
  | nil => rfl
  | cons p ps =>
    simp only [List.map_cons, ofSubtags?, readScriptAndRegion_map_lower, areVariants_map_lower,
      Subtag.lower_lower]

/-! ## folding -/

/-- Two characters that a tag can have in the place of each other: a letter in either case, and
the separators. -/
def Interchangeable (c d : Char) : Prop :=
  c.toLower = d.toLower ∨ (c = '-' ∨ c = '_') ∧ (d = '-' ∨ d = '_')

instance : DecidableRel Interchangeable :=
  fun c d => inferInstanceAs (Decidable (c.toLower = d.toLower ∨ _))

/-- A letter made small, and a separator made a hyphen. -/
def fold (c : Char) : Char := if c = '_' then '-' else c.toLower

theorem toLower_eq_iff {c d : Char} (hd : d.isAlpha = false) : c.toLower = d ↔ c = d := by
  obtain hl | ⟨ha, hla⟩ := Subtag.toLower_cases c
  · rw [hl]
  · refine iff_of_false ?_ ?_ <;> rintro rfl
    · rw [hla] at hd
      cases hd
    · rw [ha] at hd
      cases hd

theorem fold_eq_of_interchangeable {c d : Char} (h : Interchangeable c d) : fold c = fold d := by
  rcases h with h | ⟨rfl | rfl, rfl | rfl⟩
  · have hu : c = '_' ↔ d = '_' := by
      rw [← toLower_eq_iff (c := c) (by decide), ← toLower_eq_iff (c := d) (by decide), h]
    simp only [fold, hu, h]
  all_goals rfl

theorem isBlank_fold (c : Char) : isBlank (fold c) = isBlank c := by
  rw [fold]
  split
  · next h => subst h; rfl
  · obtain hl | ⟨ha, hla⟩ := Subtag.toLower_cases c
    · rw [hl]
    · rw [Text.isBlank_of_isLetter (Text.isLetter_of_isAlpha ha),
        Text.isBlank_of_isLetter (Text.isLetter_of_isAlpha hla)]

theorem lower_hyphenated (s : List Char) : lower (hyphenated s) = s.map fold := by
  rw [lower, hyphenated, List.map_map]
  refine List.map_congr_left fun c _ => ?_
  rw [Function.comp_apply, fold]
  split <;> rfl

theorem eq_ok_iff_toOption_eq {x : Except Error Locale} {l : Locale} :
    x = .ok l ↔ x.toOption = some l := by
  cases x <;> simp [Except.toOption]

/-- Reading depends on the folded tag only. -/
theorem toOption_parse_eq (s : List Char) :
    (parse (String.ofList s)).toOption =
      ofSubtags? (splitOn '-' (trimChars (s.map fold))) := by
  have hp : (parse (String.ofList s)).toOption =
      ofSubtags? (splitOn '-' (hyphenated (trimChars s))) := by
    rw [parse, String.toList_ofList]
    cases ofSubtags? (splitOn '-' (hyphenated (trimChars s))) <;> rfl
  have hs : ∀ c : Char, c.toLower = '-' ↔ c = '-' := fun c => toLower_eq_iff (by decide)
  calc (parse (String.ofList s)).toOption
      = ofSubtags? ((splitOn '-' (hyphenated (trimChars s))).map lower) := by
        rw [ofSubtags?_map_lower, hp]
    _ = ofSubtags? (splitOn '-' (lower (hyphenated (trimChars s)))) :=
        congrArg ofSubtags? (Text.splitOn_map hs _).symm
    _ = ofSubtags? (splitOn '-' (trimChars (s.map fold))) := by
        rw [lower_hyphenated, Text.trimChars_map isBlank_fold]

/-- A tag in another spelling, with more blanks around it, names the same identifier. -/
theorem toOption_parse_respelt {s t before after : List Char}
    (h : List.Forall₂ Interchangeable s t) (hb : ∀ c ∈ before, isBlank c = true)
    (ha : ∀ c ∈ after, isBlank c = true) :
    (parse (String.ofList (before ++ t ++ after))).toOption = (parse (String.ofList s)).toOption := by
  have hf : s.map fold = t.map fold := by
    induction h with
    | nil => rfl
    | cons hc _ ih => rw [List.map_cons, List.map_cons, fold_eq_of_interchangeable hc, ih]
  have blank : ∀ u : List Char, (∀ c ∈ u, isBlank c = true) → ∀ c ∈ u.map fold, isBlank c = true := by
    intro u hu c hc
    obtain ⟨d, hd, rfl⟩ := List.mem_map.1 hc
    rw [isBlank_fold, hu d hd]
  rw [toOption_parse_eq, toOption_parse_eq, List.map_append, List.map_append,
    Text.trimChars_append (blank before hb) (blank after ha), hf]

/-! ## canonical tags -/

theorem readSubtag_of_kind {form : List Char → List Char} {kind : List Char → Bool}
    {s : List Char} (hf : form s = s) (hk : kind s = true) (rest : List (List Char)) :
    readSubtag form kind (s :: rest) = (some s, rest) := by
  rw [readSubtag, hf, if_pos hk]

/-- A script and a region in canonical form are read back, also where one of them is left
out. -/
theorem readScriptAndRegion_toList {script region : Option (List Char)}
    (hs : ∀ s ∈ script, isScript s = true) (hr : ∀ r ∈ region, isRegion r = true) :
    readScriptAndRegion (script.toList ++ region.toList) = (script, region, []) := by
  have hread : readSubtag title isScript (script.toList ++ region.toList) =
      (script, region.toList) := by
    cases script with
    | some s => exact readSubtag_of_kind (Subtag.title_of_isScript (hs s rfl)) (hs s rfl) _
    | none =>
      cases region with
      | none => rfl
      | some r =>
        have hn : ¬ isScript (title r) = true := by
          intro h
          have h4 := Subtag.length_of_isScript h
          have h3 := Subtag.length_of_isRegion (hr r rfl)
          rw [Subtag.length_title] at h4
          omega
        exact if_neg hn
  have hread' : readSubtag upper isRegion region.toList = (region, []) := by
    cases region with
    | none => rfl
    | some r => exact readSubtag_of_kind (Subtag.upper_of_isRegion (hr r rfl)) (hr r rfl) []
  rw [readScriptAndRegion, hread]
  dsimp only
  rw [hread']

theorem isScript_of_mem_map {l : Locale} : ∀ s ∈ l.script.map String.toList, isScript s = true := by
  simpa [Option.mem_def] using l.isScript_script

theorem isRegion_of_mem_map {l : Locale} : ∀ r ∈ l.region.map String.toList, isRegion r = true := by
  simpa [Option.mem_def] using l.isRegion_region

theorem ofParts?_toList (l : Locale) :
    ofParts? l.language.toList (l.script.map String.toList) (l.region.map String.toList) =
      some l := by
  rw [ofParts?, dif_pos ⟨l.isLanguage_language, isScript_of_mem_map, isRegion_of_mem_map⟩]
  cases l
  simp [Function.comp_def]

/-- The subtags of an identifier name it. -/
theorem ofSubtags?_subtags (l : Locale) : ofSubtags? (l.subtags.map String.toList) = some l := by
  have hm : l.subtags.map String.toList =
      l.language.toList ::
        ((l.script.map String.toList).toList ++ (l.region.map String.toList).toList) := by
    rw [subtags]
    cases l.script <;> cases l.region <;> rfl
  rw [hm, ofSubtags?, readScriptAndRegion_toList isScript_of_mem_map isRegion_of_mem_map,
    Subtag.lower_of_isLanguage l.isLanguage_language]
  exact ofParts?_toList l

theorem eq_hyphen_or_isAlphanum_of_mem_tag {l : Locale} {c : Char} (h : c ∈ l.tag.toList) :
    c = '-' ∨ c.isAlphanum = true := by
  refine (Text.eq_or_mem_flatten_splitOn '-' h).imp_right fun hm => ?_
  rw [splitOn_tag] at hm
  obtain ⟨p, hp, hc⟩ := List.mem_flatten.1 hm
  obtain ⟨s, hs, rfl⟩ := List.mem_map.1 hp
  exact isAlphanum_of_mem_subtags hs hc

theorem isBlank_of_mem_tag {l : Locale} {c : Char} (h : c ∈ l.tag.toList) : isBlank c = false := by
  rcases eq_hyphen_or_isAlphanum_of_mem_tag h with rfl | h
  · decide
  · rcases Bool.or_eq_true_iff.1 h with h | h
    · exact Text.isBlank_of_isLetter (Text.isLetter_of_isAlpha h)
    · exact Text.isBlank_of_isDigit h

theorem hyphenated_tag (l : Locale) : hyphenated l.tag.toList = l.tag.toList := by
  have hm : hyphenated l.tag.toList = l.tag.toList.map id := by
    refine List.map_congr_left fun c hc => if_neg ?_
    rintro rfl
    exact absurd (eq_hyphen_or_isAlphanum_of_mem_tag hc) (by decide)
  rw [hm, List.map_id]

/-- A canonical tag names the identifier that it is the tag of. -/
theorem parse_tag (l : Locale) : parse l.tag = .ok l := by
  rw [parse, Text.trimChars_eq_self fun c hc => isBlank_of_mem_tag hc, hyphenated_tag,
    splitOn_tag, ofSubtags?_subtags]

/-! ## the language -/

/-- A tag begins with the language of its identifier. -/
theorem take_bytes_tag (l : Locale) :
    (Text.bytes l.tag).take l.language.utf8ByteSize = Text.bytes l.language := by
  obtain ⟨rest, hr⟩ : ∃ rest, l.tag.toList = l.language.toList ++ rest := by
    rw [tag, subtags, String.toList_intercalate, List.intercalate]
    cases l.script <;> cases l.region <;> exact ⟨_, rfl⟩
  have hl : l.language.utf8ByteSize = (Text.bytes l.language).length := rfl
  rw [hl, Text.bytes_eq_flatMap l.tag, hr, List.flatMap_append, ← Text.bytes_eq_flatMap,
    List.take_left]

theorem language_of_ofParts? {language : List Char} {script region : Option (List Char)}
    {l : Locale} (h : ofParts? language script region = some l) : l.language.toList = language := by
  rw [ofParts?] at h
  split at h
  · cases h
    exact String.toList_ofList
  · cases h

/-- The language of an identifier is the first subtag of the tag that it was read from. -/
theorem language_of_parse {s : String} {l : Locale} (h : parse s = .ok l) :
    (splitOn '-' (hyphenated (trimChars s.toList))).head?.map lower = some l.language.toList := by
  rw [parse] at h
  split at h
  · next hl =>
    cases h
    cases hp : splitOn '-' (hyphenated (trimChars s.toList)) with
    | nil => exact absurd hp (Text.splitOn_ne_nil _ _)
    | cons p ps =>
      rw [hp, ofSubtags?] at hl
      dsimp only at hl
      split at hl
      · rw [language_of_ofParts? hl]
        rfl
      · cases hl
  · cases h

/-! ## order -/

/-- The other parts of identifiers make no difference to their order. -/
theorem order_eq (l l' : Locale) : l.order l' = compare l.tag l'.tag := by
  rw [order]
  cases hc : compare l.tag l'.tag with
  | lt => rfl
  | gt => rfl
  | eq =>
    obtain rfl := tag_injective (Std.LawfulEqCmp.compare_eq_iff_eq.1 hc)
    simp

theorem order_eq_lt_iff (l l' : Locale) :
    l.order l' = .lt ↔ Text.bytes l.tag < Text.bytes l'.tag := by
  rw [order_eq, Text.bytes_lt_iff]
  exact compareOfLessAndEq_eq_lt

/-- Tags are read without regard to the case of letters, to which separator stands between
subtags and to blanks around them, and the language is the first subtag.  Every identifier is
what its tag names, so identifiers are the same when their tags are, and stand in the order
of their tags. -/
theorem parse_normalises :
    (∀ (s t before after : List Char), List.Forall₂ Interchangeable s t →
      (∀ c ∈ before, isBlank c = true) → (∀ c ∈ after, isBlank c = true) →
      ∀ l, parse (String.ofList (before ++ t ++ after)) = .ok l ↔
        parse (String.ofList s) = .ok l) ∧
    (∀ (s : String) (l : Locale), parse s = .ok l →
      (splitOn '-' (hyphenated (trimChars s.toList))).head?.map lower =
        some l.language.toList) ∧
    (∀ l : Locale, parse l.tag = .ok l ∧
      (Text.splitString '-' l.tag).head? = some l.language ∧
      (Text.bytes l.tag).take l.language.utf8ByteSize = Text.bytes l.language) ∧
    ∀ l l' : Locale, (l = l' ↔ l.tag = l'.tag) ∧ l.order l' = compare l.tag l'.tag ∧
      (l.order l' = .lt ↔ Text.bytes l.tag < Text.bytes l'.tag) := by
  refine ⟨fun s t before after h hb ha l => ?_, fun s l => language_of_parse, fun l => ?_,
    fun l l' => ⟨tag_inj.symm, order_eq l l', order_eq_lt_iff l l'⟩⟩
  · rw [eq_ok_iff_toOption_eq, eq_ok_iff_toOption_eq, toOption_parse_respelt h hb ha]
  · refine ⟨parse_tag l, ?_, take_bytes_tag l⟩
    rw [splitString_tag]
    rfl

theorem parse_normalises_taiwan :
    List.Forall₂ Interchangeable "zh-Hant-TW".toList "ZH_hANT_tw".toList ∧
      (∀ c ∈ ['\t', '\u3000'], isBlank c = true) ∧ (∀ c ∈ [' '], isBlank c = true) ∧
      ∃ l, l.tag = "zh-Hant-TW" ∧ parse "zh-Hant-TW" = .ok l ∧
        parse (String.ofList (['\t', '\u3000'] ++ "ZH_hANT_tw".toList ++ [' '])) = .ok l ∧
        l.language = "zh" := by
  have h : List.Forall₂ Interchangeable "zh-Hant-TW".toList "ZH_hANT_tw".toList := by decide
  have hb : ∀ c ∈ ['\t', '\u3000'], isBlank c = true := List.all_eq_true.1 (by decide)
  have ha : ∀ c ∈ [' '], isBlank c = true := List.all_eq_true.1 (by decide)
  have hp : (parse "zh-Hant-TW").toOption.map tag = some "zh-Hant-TW" := by decide +kernel
  obtain ⟨l, hl, ht⟩ := Option.map_eq_some_iff.1 hp
  have hl : parse "zh-Hant-TW" = .ok l := eq_ok_iff_toOption_eq.2 hl
  obtain ⟨hs, hf, -, -⟩ := parse_normalises
  have hz : some "zh".toList = some l.language.toList := hf "zh-Hant-TW" l hl
  exact ⟨h, hb, ha, l, ht, hl, (hs _ _ _ _ h hb ha l).2 hl,
    String.toList_injective (Option.some.inj hz).symm⟩

end Locale

end Phrasebook
