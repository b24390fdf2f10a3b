import Phrasebook.Proofs.Engine.Listing
import Phrasebook.Proofs.Locale.Spelling
import Phrasebook.Proofs.Text.Replacing

/-!
# Phrasebook.Proofs.Engine.Marker

What a marker for a missing key says.

A marker has parts: marks for the key and for the locale, and plain characters
(`MissingKeyPolicy.parts`).  Filled in at once, every mark of the marker is substituted and what is
put in its place stays as it is (`MissingKeyPolicy.filled`).

The marks are substituted one after the other instead, so that a mark of the locale is also
found where the key has one, or completes one.  The two agree exactly when putting the key in
adds no mark of the locale (`markerText_eq_filled_iff`): the locale's marks can be counted by
their braces, and a tag has none.  A key adds none if it has no braces and is no part of the
word in the mark (`PlainKey.addsNoMark`).
-/

namespace Phrasebook

namespace MissingKeyPolicy

open Text

/-! ## parts -/

/-- The mark that stands for the key. -/
def keyMark : List Char := ['{', 'k', 'e', 'y', '}']

/-- The mark that stands for the locale. -/
def localeMark : List Char := ['{', 'l', 'o', 'c', 'a', 'l', 'e', '}']

/-- A part of a marker. -/
inductive MarkerPart where
  | plain (c : Char)
  | key
  | locale
deriving DecidableEq

/-- The characters in place of a part, given those for the key and for the locale. -/
def MarkerPart.fill (key tag : List Char) : MarkerPart → List Char
  | .plain c => [c]
  | .key => key
  | .locale => tag

/-- The parts of a marker. -/
def parts : List Char → List MarkerPart
  | [] => []
  | '{' :: 'k' :: 'e' :: 'y' :: '}' :: s => .key :: parts s
  | '{' :: 'l' :: 'o' :: 'c' :: 'a' :: 'l' :: 'e' :: '}' :: s => .locale :: parts s
  | c :: s => .plain c :: parts s

/-- A marker whose marks are substituted at once. -/
def filled (marker key : String) (l : Locale) : String :=
  String.ofList ((parts marker.toList).flatMap (MarkerPart.fill key.toList l.tag.toList))

theorem isMark_keyMark : IsMark keyMark := ⟨_, rfl, by decide⟩

theorem isMark_localeMark : IsMark localeMark := ⟨_, rfl, by decide⟩

/-- A text is empty, or begins with a mark or with another character. -/
theorem parts_induction {P : List Char → List MarkerPart → Prop} (nil : P [] [])
    (key : ∀ s, P s (parts s) → P (keyMark ++ s) (.key :: parts s))
    (locale : ∀ s, P s (parts s) → P (localeMark ++ s) (.locale :: parts s))
    (plain : ∀ c s, keyMark.isPrefixOf (c :: s) = false → localeMark.isPrefixOf (c :: s) = false →
      P s (parts s) → P (c :: s) (.plain c :: parts s))
    (s : List Char) : P s (parts s) := by
  fun_induction parts s with
  | case1 => exact nil
  | case2 s ih => exact key s ih
  | case3 s ih => exact locale s ih
  | case4 c s hk hl ih =>
    refine plain c s (Bool.eq_false_iff.2 fun h => ?_) (Bool.eq_false_iff.2 fun h => ?_) ih
    · obtain ⟨t, ht⟩ := List.isPrefixOf_iff_prefix.1 h
      obtain ⟨hc, hs⟩ := List.cons.inj ht
      exact hk t hc.symm hs.symm
    · obtain ⟨t, ht⟩ := List.isPrefixOf_iff_prefix.1 h
      obtain ⟨hc, hs⟩ := List.cons.inj ht
      exact hl t hc.symm hs.symm

/-- The mark of the key does not begin in the mark of the locale. -/
theorem occurrences_keyMark_localeMark (s : List Char) :
    occurrences keyMark (localeMark ++ s) = occurrences keyMark s := by
  simp [occurrences, keyMark, localeMark, List.isPrefixOf]

theorem occurrences_localeMark_keyMark (s : List Char) :
    occurrences localeMark (keyMark ++ s) = occurrences localeMark s := by
  simp [occurrences, keyMark, localeMark, List.isPrefixOf]

/-- The parts of a marker are all its marks, and the rest of it. -/
theorem count_parts (s : List Char) :
    (parts s).flatMap (MarkerPart.fill keyMark localeMark) = s ∧
      (parts s).count .key = occurrences keyMark s ∧
      (parts s).count .locale = occurrences localeMark s := by
  refine parts_induction (P := fun s ps => ps.flatMap (MarkerPart.fill keyMark localeMark) = s ∧
    ps.count .key = occurrences keyMark s ∧ ps.count .locale = occurrences localeMark s)
    ⟨rfl, rfl, rfl⟩ (fun s ih => ?_) (fun s ih => ?_) (fun c s hk hl ih => ?_) s
  · rw [List.flatMap_cons, ih.1, isMark_keyMark.occurrences_append, occurrences_localeMark_keyMark]
    simp [ih.2, MarkerPart.fill]
  · rw [List.flatMap_cons, ih.1, isMark_localeMark.occurrences_append,
      occurrences_keyMark_localeMark]
    simp [ih.2, MarkerPart.fill]
  · rw [List.flatMap_cons, ih.1, occurrences_cons hk, occurrences_cons hl]
    simp [ih.2, MarkerPart.fill]

/-! ## one substitution after the other -/

/-- The first substitution puts the key in place of its marks. -/
theorem replaceFrom_keyMark (key s : List Char) :
    replaceFrom keyMark key 0 s = (parts s).flatMap (MarkerPart.fill key localeMark) := by
  refine parts_induction
    (P := fun s ps => replaceFrom keyMark key 0 s = ps.flatMap (MarkerPart.fill key localeMark))
    rfl (fun s ih => ?_) (fun s ih => ?_) (fun c s hk hl ih => ?_) s
  · rw [replaceFrom_append isMark_keyMark.ne_nil, ih]
    rfl
  · rw [replaceFrom_append_of_occurrences _ _ _ _ (occurrences_keyMark_localeMark s), ih]
    rfl
  · rw [replaceFrom_cons hk, ih]
    rfl

/-- Parts other than the mark of the locale say the same whatever the tag is. -/
theorem MarkerPart.fill_eq_of_ne {p : MarkerPart} (h : p ≠ .locale) (key tag tag' : List Char) :
    p.fill key tag = p.fill key tag' := by
  cases p with
  | locale => exact absurd rfl h
  | plain c => rfl
  | key => rfl

/-- The marks of the locale that the marker has are all there when the key was put in. -/
theorem count_le_occurrences (key : List Char) (ps : List MarkerPart) :
    ps.count .locale ≤
      occurrences localeMark (ps.flatMap (MarkerPart.fill key localeMark)) := by
  induction ps with
  | nil => exact Nat.le_refl 0
  | cons p ps ih =>
    rw [List.flatMap_cons]
    by_cases hp : p = .locale
    · subst hp
      rw [List.count_cons_self, MarkerPart.fill, isMark_localeMark.occurrences_append]
      exact Nat.succ_le_succ ih
    · rw [List.count_cons_of_ne hp]
      exact Nat.le_trans ih (occurrences_le_append _ _ _)

/-- If there are no others, the second substitution puts the tag in their place and changes nothing
else. -/
theorem replaceFrom_localeMark (key tag : List Char) {ps : List MarkerPart}
    (h : occurrences localeMark (ps.flatMap (MarkerPart.fill key localeMark)) =
      ps.count .locale) :
    replaceFrom localeMark tag 0 (ps.flatMap (MarkerPart.fill key localeMark)) =
      ps.flatMap (MarkerPart.fill key tag) := by
  induction ps with
  | nil => rfl
  | cons p ps ih =>
    have hle := count_le_occurrences key ps
    rw [List.flatMap_cons] at h
    rw [List.flatMap_cons, List.flatMap_cons]
    by_cases hp : p = .locale
    · subst hp
      rw [List.count_cons_self, MarkerPart.fill, isMark_localeMark.occurrences_append] at h
      rw [MarkerPart.fill, replaceFrom_append isMark_localeMark.ne_nil, ih (Nat.succ.inj h)]
      rfl
    · rw [List.count_cons_of_ne hp] at h
      have hap := occurrences_le_append localeMark (p.fill key localeMark)
        (ps.flatMap (MarkerPart.fill key localeMark))
      rw [replaceFrom_append_of_occurrences _ _ _ _ (by omega), ih (by omega),
        p.fill_eq_of_ne hp key tag localeMark]

/-- A tag in place of a mark of the locale takes its brace away. -/
theorem count_brace_fill (key : List Char) {tag : List Char} (ht : '{' ∉ tag)
    (ps : List MarkerPart) :
    (ps.flatMap (MarkerPart.fill key tag)).count '{' + ps.count .locale =
      (ps.flatMap (MarkerPart.fill key localeMark)).count '{' := by
  induction ps with
  | nil => rfl
  | cons p ps ih =>
    rw [List.flatMap_cons, List.flatMap_cons, List.count_append, List.count_append, ← ih]
    by_cases hp : p = .locale
    · subst hp
      rw [List.count_cons_self, MarkerPart.fill, MarkerPart.fill, List.count_eq_zero.2 ht,
        isMark_localeMark.count_brace]
      omega
    · rw [List.count_cons_of_ne hp, p.fill_eq_of_ne hp key tag localeMark]
      omega

theorem brace_not_mem_tag (l : Locale) : '{' ∉ l.tag.toList := fun h =>
  absurd (Locale.eq_hyphen_or_isAlphanum_of_mem_tag h) (by decide)

/-- Putting the key in adds no mark of the locale. -/
def AddsNoMark (marker key : String) : Prop :=
  occurrences localeMark (replaceFrom keyMark key.toList 0 marker.toList) =
    occurrences localeMark marker.toList

instance (marker key : String) : Decidable (AddsNoMark marker key) :=
  inferInstanceAs (Decidable (_ = _))

theorem toList_markerText (marker key : String) (l : Locale) :
    (markerText marker key l).toList = replaceFrom localeMark l.tag.toList 0
      ((parts marker.toList).flatMap (MarkerPart.fill key.toList localeMark)) := by
  have hk : "\x7bkey\x7d".toList = keyMark := by decide
  have hl : "\x7blocale\x7d".toList = localeMark := by decide
  rw [← replaceFrom_keyMark, markerText, toList_replaceAll, toList_replaceAll, hk, hl]

/-- One substitution after the other gives what both at once give, exactly if the first adds no
mark for the second. -/
theorem markerText_eq_filled_iff (marker key : String) (l : Locale) :
    markerText marker key l = filled marker key l ↔ AddsNoMark marker key := by
  obtain ⟨-, -, hcount⟩ := count_parts marker.toList
  rw [← String.toList_inj, toList_markerText, filled, String.toList_ofList, AddsNoMark, ← hcount,
    replaceFrom_keyMark]
  constructor
  · intro h
    -- the braces that the substitution takes away are those of the marker's own marks
    have hc := congrArg (List.count '{') h
    have hr := isMark_localeMark.count_replaceFrom (brace_not_mem_tag l)
      ((parts marker.toList).flatMap (MarkerPart.fill key.toList localeMark))
    have hf := count_brace_fill key.toList (brace_not_mem_tag l) (parts marker.toList)
    omega
  · exact replaceFrom_localeMark key.toList l.tag.toList

/-! ## plain keys -/

/-- The word in the mark of the locale. -/
def localeWord : List Char := ['l', 'o', 'c', 'a', 'l', 'e']

/-- A key without braces that is no part of the word in the mark of the locale, and so neither
has a mark nor completes one. -/
structure PlainKey (key : List Char) : Prop where
  open_not_mem : '{' ∉ key
  close_not_mem : '}' ∉ key
  not_infix : ¬ key <:+: localeWord

namespace PlainKey

variable {key word : List Char}

/-- The rest of a mark of the locale is not found where the key was put in. -/
theorem not_prefix_append (hk : PlainKey key) (hw : word <:+ localeWord) (s : List Char) :
    ¬ word ++ ['}'] <+: key ++ s := by
  intro h
  rcases List.prefix_or_prefix_of_prefix h (List.prefix_append key s) with hp | hp
  · exact hk.close_not_mem (hp.subset (by simp))
  · rcases List.prefix_concat_iff.1 hp with rfl | hp
    · exact hk.close_not_mem (by simp)
    · exact hk.not_infix (hp.isInfix.trans hw.isInfix)

/-- Nor where the mark of the locale is. -/
theorem not_prefix_localeMark (hw : word <:+ localeWord) (s : List Char) :
    ¬ word ++ ['}'] <+: localeMark ++ s := by
  intro h
  have hb : '{' ∈ word ++ ['}'] := by
    cases word with
    | nil => exact absurd (List.cons_prefix_cons.1 h).1 (by decide)
    | cons c word => exact (List.cons_prefix_cons.1 h).1 ▸ List.mem_cons_self
  rcases List.mem_append.1 hb with hb | hb
  · exact absurd (hw.subset hb) (by decide)
  · exact absurd hb (by decide)

/-- It is found behind other text only if it was there before. -/
theorem prefix_of_prefix_fill (hk : PlainKey key) (s : List Char) :
    ∀ word, word <:+ localeWord →
      word ++ ['}'] <+: (parts s).flatMap (MarkerPart.fill key localeMark) →
        word ++ ['}'] <+: s := by
  refine parts_induction (P := fun s ps => ∀ word, word <:+ localeWord →
      word ++ ['}'] <+: ps.flatMap (MarkerPart.fill key localeMark) → word ++ ['}'] <+: s)
    (fun _ _ h => h) (fun s _ word hw h => ?_) (fun s _ word hw h => ?_)
    (fun c s _ _ ih word hw h => ?_) s
  · exact absurd h (hk.not_prefix_append hw _)
  · exact absurd h (not_prefix_localeMark hw _)
  · cases word with
    | nil => simpa [MarkerPart.fill] using h
    | cons d word =>
      obtain ⟨rfl, hp⟩ := List.cons_prefix_cons.1 h
      exact List.cons_prefix_cons.2 ⟨rfl, ih word ((List.suffix_cons d word).trans hw) hp⟩

/-- Putting a plain key in adds no mark of the locale. -/
theorem addsNoMark {marker key : String} (hk : PlainKey key.toList) : AddsNoMark marker key := by
  rw [AddsNoMark, replaceFrom_keyMark, ← (count_parts marker.toList).2.2]
  refine parts_induction (P := fun s ps =>
    occurrences localeMark (ps.flatMap (MarkerPart.fill key.toList localeMark)) = ps.count .locale)
    rfl (fun s ih => ?_) (fun s ih => ?_) (fun c s _ hl ih => ?_) marker.toList
  · rw [List.flatMap_cons, MarkerPart.fill,
      isMark_localeMark.occurrences_append_of_not_mem hk.open_not_mem, ih]
    rfl
  · rw [List.flatMap_cons, MarkerPart.fill, isMark_localeMark.occurrences_append, ih,
      List.count_cons_self]
  · rw [List.flatMap_cons, MarkerPart.fill, List.singleton_append, occurrences_cons, ih]
    · rfl
    · refine Bool.eq_false_iff.2 fun h => ?_
      obtain ⟨hc, hp⟩ := List.cons_prefix_cons.1 (List.isPrefixOf_iff_prefix.1 h)
      have hs := hk.prefix_of_prefix_fill s _ (List.suffix_refl localeWord) hp
      have hm := List.isPrefixOf_iff_prefix.2 (List.cons_prefix_cons.2 ⟨hc, hs⟩)
      exact Bool.false_ne_true (hl.symm.trans hm)

end PlainKey

end MissingKeyPolicy

namespace Engine

/-! ## settings -/

theorem settings_publish (e : Engine) (loads : Except LoadError (List (Locale × Entries)))
    (mode : LoadMode) : (e.publish loads mode).settings = e.settings := by
  obtain ⟨n, hp⟩ | ⟨ls, versions, s, n, -, hp⟩ := publish_cases e loads mode
  · rw [hp]
  · rw [hp]
    rfl

theorem settings_perform (e : Engine) (op : Operation) : (e.perform op).settings = e.settings := by
  cases op with
  | load l entries mode =>
    rw [perform, load_eq_publish]
    exact settings_publish e _ mode
  | loadFrom loaded mode =>
    rw [perform, loadFrom_eq_publish]
    exact settings_publish e _ mode
  | unload l =>
    rw [perform, unload]
    split <;> rfl
  | setDefault l => rfl
  | setActive l => rfl
  | query q =>
    rw [perform, ask_frame]

/-- An engine keeps the settings it was made with. -/
theorem settings_run (s : Settings) (ops : List Operation) : ((new s).run ops).settings = s :=
  run_induction (P := fun e => e.settings = s)
    (fun e op h => (settings_perform e op).trans h) rfl ops

/-! ## missing keys -/

open MissingKeyPolicy

/-- In every state that a new engine reaches, a key that no bundle of the chain has is answered
with the marker that the settings ask for, the key being substituted before the locale.  This is
what both at once would give, exactly when putting the key in adds no mark of the locale; no plain
key does. -/
theorem resolve_marker (s : Settings) (ops : List Operation) (marker key : String) (l : Locale)
    (args : Arguments) (hp : s.missingKey = .marker marker)
    (hk : ∀ b ∈ ((new s).run ops).catalog.snapshot.bundlesOf
      (l.fallbackChain ((new s).run ops).default), b.contains key = false) :
    ∃ m, (((new s).run ops).resolve key l args).1 = .ok m ∧
      m.display = markerText marker key l ∧
      (m.display = filled marker key l ↔ AddsNoMark marker key) ∧
      (PlainKey key.toList → m.display = filled marker key l) := by
  have he := coherent_run s ops
  have hset := settings_run s ops
  generalize (new s).run ops = e at hk he hset ⊢
  have hn : key ∉ (e.keys l).1 := by
    rw [he.mem_keys_iff_exists]
    rintro ⟨b, hb, hc⟩
    exact Bool.false_ne_true ((hk b hb).symm.trans hc)
  obtain ⟨hm, -⟩ | ⟨-, hr, -⟩ := request_cases e key l args
  · exact absurd hm hn
  · have hd : (Message.ofText (markerText marker key l)).display = markerText marker key l :=
      (Message.display_pushText _ _).trans (String.empty_append)
    refine ⟨.ofText (markerText marker key l), ?_, hd, ?_, fun h => ?_⟩
    · rw [hr, missing, hset, hp]
      rfl
    · rw [hd, markerText_eq_filled_iff]
    · rw [hd, markerText_eq_filled_iff]
      exact h.addsNoMark

/-- A missing key is answered with a marker. -/
def marking (marker : String) : Settings :=
  { Settings.ofDefault .english with missingKey := .marker marker }

theorem resolve_marker_bothMarks :
    ∃ m, (((new (marking "??\x7bkey\x7d@\x7blocale\x7d??")).run
        [.load .english [("greeting", "Hello")] .replaceAll]).resolve "nope" .german .empty).1 =
          .ok m ∧ m.display = "??nope@de??" := by
  obtain ⟨m, hm, -, -, hd⟩ := resolve_marker (marking "??\x7bkey\x7d@\x7blocale\x7d??")
    [.load .english [("greeting", "Hello")] .replaceAll] "??\x7bkey\x7d@\x7blocale\x7d??" "nope"
    .german .empty rfl (by decide +kernel)
  refine ⟨m, hm, (hd ⟨by decide, by decide, by decide⟩).trans (by decide)⟩

/-- A mark of the locale in the key, or completed by it, is substituted as well. -/
theorem resolve_ne_filled :
    (∃ m, ((new (marking "??\x7bkey\x7d??")).resolve "\x7blocale\x7d" .german .empty).1 = .ok m ∧
        m.display = "??de??" ∧
        filled "??\x7bkey\x7d??" "\x7blocale\x7d" .german = "??\x7blocale\x7d??") ∧
      ∃ m, ((new (marking "\x7bloc\x7bkey\x7d\x7d")).resolve "ale" .german .empty).1 = .ok m ∧
        m.display = "de" ∧ filled "\x7bloc\x7bkey\x7d\x7d" "ale" .german = "\x7blocale\x7d" := by
  exact ⟨⟨_, rfl, by decide +kernel, by decide⟩, ⟨_, rfl, by decide +kernel, by decide⟩⟩

end Engine

end Phrasebook
