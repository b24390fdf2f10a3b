import Mathlib.Data.List.Sort
import Phrasebook.Proofs.Catalog.Texts
import Phrasebook.Proofs.Engine.Coherence
import Phrasebook.Proofs.Evaluation.References
import Phrasebook.Proofs.Text.ByteOrder

/-!
# Phrasebook.Proofs.Engine.Comparison

What a comparison of two locales finds.

A comparison makes two passes, over the entries of the target and over the keys of the source.
The findings of each are given by what they say of the raw texts (`Texts.OnTarget`,
`Texts.OnSource`) and stand in the order of their keys, which leaves one list for each pass
(`Bundle.compares_compare`).  The arguments of a template are the names in its tree, at any
depth (`Template.sorts_arguments`), so two templates agree when they have the same names,
wherever these stand.

Read by what is found, the report has one list for each kind.  Comparing in the other
direction exchanges the keys that are unknown and those that are not translated, and turns
every mismatch round (`Engine.compare_of_loaded`).
-/

namespace Phrasebook

/-! ## sorted names -/

namespace Text

/-- A list has the members of a set, ascending in the order of their bytes, each once. -/
structure Sorts (xs : List String) (S : Set String) : Prop where
  ascending : xs.Pairwise fun a b => bytes a < bytes b
  mem_iff (x : String) : x ∈ xs ↔ x ∈ S

theorem sorts_toList (s : Std.TreeSet String) : Sorts s.toList {x | x ∈ s} where
  ascending := s.ordered_toList.imp fun h => bytes_lt_iff.2 (compareOfLessAndEq_eq_lt.1 h)
  mem_iff _ := Std.TreeSet.mem_toList

/-- A list that ascends by some text of its members is known by its members. -/
theorem eq_of_ascending {α : Type} (f : α → String) {xs ys : List α}
    (hx : xs.Pairwise fun a b => bytes (f a) < bytes (f b))
    (hy : ys.Pairwise fun a b => bytes (f a) < bytes (f b)) (h : ∀ x, x ∈ xs ↔ x ∈ ys) :
    xs = ys := by
  have ha : Std.Asymm fun a b : α => bytes (f a) < bytes (f b) :=
    ⟨fun _ _ hab hba => List.lt_asymm hab hba⟩
  exact hx.eq_of_mem_iff hy @h

/-- Sets are the same when their members are listed alike. -/
theorem Sorts.eq_iff {xs ys : List String} {S T : Set String} (hx : Sorts xs S)
    (hy : Sorts ys T) : xs = ys ↔ S = T := by
  constructor
  · rintro rfl
    exact Set.ext fun x => (hx.mem_iff x).symm.trans (hy.mem_iff x)
  · rintro rfl
    exact eq_of_ascending id hx.ascending hy.ascending
      fun x => (hx.mem_iff x).trans (hy.mem_iff x).symm

end Text

/-! ## names in templates -/

namespace Template

/-- The names and positions that a raw template refers to, anywhere in its tree. -/
def names (raw : String) : Set String := {name | ∃ r ∈ (parse raw).tree.references, r.render = name}

theorem sorts_arguments (raw : String) : Text.Sorts (parse raw).arguments (names raw) where
  ascending := (Text.sorts_toList _).ascending
  mem_iff name := by
    rw [mem_arguments, references_parse]
    rfl

theorem arguments_eq_iff (raw raw' : String) :
    (parse raw).arguments = (parse raw').arguments ↔ names raw = names raw' :=
  (sorts_arguments raw).eq_iff (sorts_arguments raw')

end Template

/-! ## findings -/

namespace Finding

/-- The key that a finding is about. -/
def key : Finding → String
  | .unknownKey key _ => key
  | .argumentMismatch key .. => key
  | .untranslated key _ => key

/-- The key that the source does not have. -/
def unknownKey? : Finding → Option String
  | .unknownKey key _ => some key
  | .argumentMismatch .. | .untranslated .. => none

/-- The key that the target does not have. -/
def untranslated? : Finding → Option String
  | .untranslated key _ => some key
  | .unknownKey .. | .argumentMismatch .. => none

/-- The key whose templates refer to other arguments, with the arguments of the source and those
of the target. -/
def mismatch? : Finding → Option (String × List String × List String)
  | .argumentMismatch key _ source target => some (key, source, target)
  | .unknownKey .. | .untranslated .. => none

end Finding

namespace Texts

/-- What is to be said of the keys of a target: they are not in the source, or the two texts
refer to different arguments. -/
inductive OnTarget (source target : Texts) (tag : String) : Finding → Prop where
  | unknownKey {key : String} (hs : source key = none) (ht : (target key).isSome) :
    OnTarget source target tag (.unknownKey key tag)
  | argumentMismatch {key raw raw' : String} {names names' : List String}
    (hs : source key = some raw) (ht : target key = some raw')
    (hne : Template.names raw ≠ Template.names raw') (hn : Text.Sorts names (Template.names raw))
    (hn' : Text.Sorts names' (Template.names raw')) :
    OnTarget source target tag (.argumentMismatch key tag names names')

/-- What is to be said of the keys of a source: they are not in the target. -/
inductive OnSource (source target : Texts) (tag : String) : Finding → Prop where
  | untranslated {key : String} (hs : (source key).isSome) (ht : target key = none) :
    OnSource source target tag (.untranslated key tag)

/-- The findings of a comparison: those on the keys of the target and then those on the keys
of the source, each in ascending order of the keys. -/
structure Compares (source target : Texts) (tag : String) (first second : List Finding) : Prop where
  first_ascending : first.Pairwise fun f g => Text.bytes f.key < Text.bytes g.key
  mem_first (f : Finding) : f ∈ first ↔ OnTarget source target tag f
  second_ascending : second.Pairwise fun f g => Text.bytes f.key < Text.bytes g.key
  mem_second (f : Finding) : f ∈ second ↔ OnSource source target tag f

/-- Two locales have the same keys, and the texts of a key refer to the same arguments. -/
structure Agree (source target : Texts) : Prop where
  isSome_iff (key : String) : (source key).isSome ↔ (target key).isSome
  names_eq {key raw raw' : String} (hs : source key = some raw) (ht : target key = some raw') :
    Template.names raw = Template.names raw'

theorem agree_self (t : Texts) : t.Agree t where
  isSome_iff _ := Iff.rfl
  names_eq hs ht := congrArg Template.names (Option.some.inj (hs.symm.trans ht))

/-- There are no findings exactly when the two agree. -/
theorem Compares.nil_iff {source target : Texts} {tag : String} {first second : List Finding}
    (h : source.Compares target tag first second) :
    first ++ second = [] ↔ source.Agree target := by
  rw [List.append_eq_nil_iff, List.eq_nil_iff_forall_not_mem, List.eq_nil_iff_forall_not_mem]
  simp only [h.mem_first, h.mem_second]
  constructor
  · rintro ⟨ht, hs⟩
    refine ⟨fun key => ⟨fun hk => ?_, fun hk => ?_⟩, fun {key raw raw'} hr hr' => ?_⟩
    · exact Option.isSome_iff_ne_none.2 fun hn => hs _ (.untranslated hk hn)
    · exact Option.isSome_iff_ne_none.2 fun hn => ht _ (.unknownKey hn hk)
    · by_contra hne
      exact ht _ (.argumentMismatch hr hr' hne (Template.sorts_arguments raw)
        (Template.sorts_arguments raw'))
  · rintro ha
    constructor
    · rintro _ (⟨hs, ht⟩ | ⟨hs, ht, hne, -, -⟩)
      · rw [← ha.isSome_iff, hs] at ht
        cases ht
      · exact hne (ha.names_eq hs ht)
    · rintro _ ⟨hs, ht⟩
      rw [ha.isSome_iff, ht] at hs
      cases hs

/-! ### the findings of each kind -/

section

variable {source target : Texts} {tag tag' : String} {first second first' second' : List Finding}

theorem ascending_filterMap {α : Type} (p : Finding → Option α) (k : α → String)
    (hp : ∀ f x, p f = some x → k x = f.key) {fs : List Finding}
    (h : fs.Pairwise fun f g => Text.bytes f.key < Text.bytes g.key) :
    (fs.filterMap p).Pairwise fun x y => Text.bytes (k x) < Text.bytes (k y) := by
  refine List.Pairwise.filterMap p (fun f g hfg x hx y hy => ?_) h
  rwa [hp f x hx, hp g y hy]

/-- What only the first pass has ascends with it. -/
theorem Compares.ascending_first {α : Type} (h : source.Compares target tag first second)
    (p : Finding → Option α) (k : α → String) (hp : ∀ f x, p f = some x → k x = f.key)
    (hn : ∀ key, p (.untranslated key tag) = none) :
    ((first ++ second).filterMap p).Pairwise fun x y => Text.bytes (k x) < Text.bytes (k y) := by
  have hs : second.filterMap p = [] := by
    rw [List.filterMap_eq_nil_iff]
    intro f hf
    cases (h.mem_second f).1 hf
    exact hn _
  rw [List.filterMap_append, hs, List.append_nil]
  exact ascending_filterMap p k hp h.first_ascending

/-- The keys that the source does not have come from the first pass. -/
theorem Compares.sorts_unknownKeys (h : source.Compares target tag first second) :
    Text.Sorts ((first ++ second).filterMap Finding.unknownKey?)
      {key | source key = none ∧ (target key).isSome} where
  ascending := by
    refine h.ascending_first _ id (fun f key hf => ?_) fun _ => rfl
    cases f with
    | unknownKey => exact (Option.some.inj hf).symm
    | argumentMismatch | untranslated => cases hf
  mem_iff key := by
    rw [List.mem_filterMap]
    simp only [List.mem_append, h.mem_first, h.mem_second]
    constructor
    · rintro ⟨f, (⟨hs, ht⟩ | ⟨hs, ht⟩) | ⟨hs, ht⟩, hf⟩
      · cases hf
        exact ⟨hs, ht⟩
      · cases hf
      · cases hf
    · rintro ⟨hs, ht⟩
      exact ⟨_, .inl (.unknownKey hs ht), rfl⟩

/-- The keys that are not translated come from the second pass. -/
theorem Compares.sorts_untranslated (h : source.Compares target tag first second) :
    Text.Sorts ((first ++ second).filterMap Finding.untranslated?)
      {key | (source key).isSome ∧ target key = none} where
  ascending := by
    have hn : first.filterMap Finding.untranslated? = [] := by
      rw [List.filterMap_eq_nil_iff]
      intro f hf
      cases (h.mem_first f).1 hf <;> rfl
    rw [List.filterMap_append, hn, List.nil_append]
    refine ascending_filterMap _ id (fun f key hf => ?_) h.second_ascending
    cases f with
    | untranslated => exact (Option.some.inj hf).symm
    | argumentMismatch | unknownKey => cases hf
  mem_iff key := by
    rw [List.mem_filterMap]
    simp only [List.mem_append, h.mem_first, h.mem_second]
    constructor
    · rintro ⟨f, (⟨hs, ht⟩ | ⟨hs, ht⟩) | ⟨hs, ht⟩, hf⟩
      · cases hf
      · cases hf
      · cases hf
        exact ⟨hs, ht⟩
    · rintro ⟨hs, ht⟩
      exact ⟨_, .inr (.untranslated hs ht), rfl⟩

/-- A key with the names in the text of the source and those in the text of the target, which
are not the same. -/
def IsMismatch (source target : Texts) (m : String × List String × List String) : Prop :=
  ∃ raw raw', source m.1 = some raw ∧ target m.1 = some raw' ∧
    Template.names raw ≠ Template.names raw' ∧ Text.Sorts m.2.1 (Template.names raw) ∧
    Text.Sorts m.2.2 (Template.names raw')

/-- The mismatches come from the first pass. -/
theorem Compares.ascending_mismatches (h : source.Compares target tag first second) :
    ((first ++ second).filterMap Finding.mismatch?).Pairwise fun m m' =>
      Text.bytes m.1 < Text.bytes m'.1 := by
  refine h.ascending_first _ Prod.fst (fun f m hf => ?_) fun _ => rfl
  cases f with
  | argumentMismatch =>
    cases hf
    rfl
  | unknownKey | untranslated => cases hf

theorem Compares.mem_mismatches (h : source.Compares target tag first second)
    (m : String × List String × List String) :
    m ∈ (first ++ second).filterMap Finding.mismatch? ↔ source.IsMismatch target m := by
  rw [List.mem_filterMap]
  simp only [List.mem_append, h.mem_first, h.mem_second]
  constructor
  · rintro ⟨f, (⟨hs, ht⟩ | ⟨hs, ht, hne, hn, hn'⟩) | ⟨hs, ht⟩, hf⟩
    · cases hf
    · cases hf
      exact ⟨_, _, hs, ht, hne, hn, hn'⟩
    · cases hf
  · rintro ⟨raw, raw', hs, ht, hne, hn, hn'⟩
    exact ⟨_, .inl (.argumentMismatch hs ht hne hn hn'), rfl⟩

/-- A mismatch with the arguments of the target in front. -/
def turn (m : String × List String × List String) : String × List String × List String :=
  (m.1, m.2.2, m.2.1)

theorem isMismatch_turn_iff (m : String × List String × List String) :
    target.IsMismatch source (turn m) ↔ source.IsMismatch target m := by
  constructor
  · rintro ⟨raw, raw', hs, ht, hne, hn, hn'⟩
    exact ⟨raw', raw, ht, hs, hne.symm, hn', hn⟩
  · rintro ⟨raw, raw', hs, ht, hne, hn, hn'⟩
    exact ⟨raw', raw, ht, hs, hne.symm, hn', hn⟩

/-- What is found in the other direction: the two kinds of missing keys change places, and
every mismatch is turned round. -/
structure Reversed (fs gs : List Finding) : Prop where
  untranslated_eq :
    gs.filterMap Finding.untranslated? = fs.filterMap Finding.unknownKey?
  unknownKey_eq :
    gs.filterMap Finding.unknownKey? = fs.filterMap Finding.untranslated?
  mismatch_eq :
    gs.filterMap Finding.mismatch? = (fs.filterMap Finding.mismatch?).map turn

theorem Compares.reversed (h : source.Compares target tag first second)
    (h' : target.Compares source tag' first' second') :
    Reversed (first ++ second) (first' ++ second') where
  untranslated_eq :=
    (h'.sorts_untranslated.eq_iff h.sorts_unknownKeys).2 (Set.ext fun _ => and_comm)
  unknownKey_eq :=
    (h'.sorts_unknownKeys.eq_iff h.sorts_untranslated).2 (Set.ext fun _ => and_comm)
  mismatch_eq := by
    refine Text.eq_of_ascending Prod.fst h'.ascending_mismatches
      (List.pairwise_map.2 h.ascending_mismatches) fun m => ?_
    rw [h'.mem_mismatches, List.mem_map]
    constructor
    · intro hm
      exact ⟨turn m, (h.mem_mismatches _).2 ((isMismatch_turn_iff m).2 hm), rfl⟩
    · rintro ⟨m, hm, rfl⟩
      exact (isMismatch_turn_iff m).2 ((h.mem_mismatches m).1 hm)

end

end Texts

/-! ## bundles -/

namespace Entries

variable (x : Entries)

theorem ascending_toList : x.toList.Pairwise fun a b => Text.bytes a.1 < Text.bytes b.1 :=
  x.ordered_keys_toList.imp fun h => Text.bytes_lt_iff.2 (compareOfLessAndEq_eq_lt.1 h)

theorem mem_toList_iff (e : String × String) : e ∈ x.toList ↔ x.texts e.1 = some e.2 :=
  Std.TreeMap.mem_toList_iff_getElem?_eq_some

theorem contains_eq_isSome (key : String) : x.contains key = (x.texts key).isSome :=
  Std.TreeMap.contains_eq_isSome_getElem?

/-- The keys with some property, as they stand in the list of all keys. -/
theorem sorts_filter_keys (p : String → Bool) :
    Text.Sorts (x.keys.filter p) {key | (x.texts key).isSome ∧ p key = true} where
  ascending :=
    (x.ordered_keys.imp fun h => Text.bytes_lt_iff.2 (compareOfLessAndEq_eq_lt.1 h)).filter p
  mem_iff key := by
    rw [List.mem_filter, ← isSome_texts_iff]
    rfl

/-- The keys that other entries do not have. -/
theorem sorts_absent_keys (y : Entries) :
    Text.Sorts (x.keys.filter fun key => !y.contains key)
      {key | (x.texts key).isSome ∧ y.texts key = none} := by
  simpa [contains_eq_isSome] using x.sorts_filter_keys fun key => !y.contains key

end Entries

namespace Bundle

/-- The raw texts of a bundle. -/
def texts (b : Bundle) : Texts := b.entries.texts

variable {s t : Bundle} {key raw : String}

/-! ### one entry -/

theorem finding?_of_none (h : s.texts key = none) :
    finding? s t key raw = some (.unknownKey key t.locale.tag) := by
  rw [finding?, get?]
  unfold texts Entries.texts at h
  rw [h]

theorem finding?_of_some {raw' : String} (h : s.texts key = some raw') :
    finding? s t key raw =
      if (Template.parse raw').arguments = (Template.parse raw).arguments then none
      else some (.argumentMismatch key t.locale.tag (Template.parse raw').arguments
        (Template.parse raw).arguments) := by
  rw [finding?, get?]
  unfold texts Entries.texts at h
  rw [h]

theorem key_of_finding? {f : Finding} (h : finding? s t key raw = some f) : f.key = key := by
  cases hs : s.texts key with
  | none =>
    rw [finding?_of_none hs] at h
    cases h
    rfl
  | some raw' =>
    rw [finding?_of_some hs] at h
    split at h
    · cases h
    · cases h
      rfl

/-- What is found at an entry of the target is what is to be said of its key. -/
theorem finding?_eq_some_iff (h : t.texts key = some raw) (f : Finding) :
    finding? s t key raw = some f ↔ s.texts.OnTarget t.texts t.locale.tag f ∧ f.key = key := by
  cases hs : s.texts key with
  | none =>
    rw [finding?_of_none hs, Option.some.injEq]
    constructor
    · rintro rfl
      exact ⟨.unknownKey hs (h ▸ rfl), rfl⟩
    · rintro ⟨hf, rfl⟩
      cases hf with
      | unknownKey => rfl
      | argumentMismatch hs' => cases hs.symm.trans hs'
  | some raw' =>
    rw [finding?_of_some hs]
    constructor
    · intro hf
      split at hf
      · cases hf
      · next hne =>
        cases hf
        rw [Template.arguments_eq_iff] at hne
        exact ⟨.argumentMismatch hs h hne (Template.sorts_arguments raw')
          (Template.sorts_arguments raw), rfl⟩
    · rintro ⟨hf, rfl⟩
      cases hf with
      | unknownKey hs' => cases hs.symm.trans hs'
      | argumentMismatch hs' ht hne hn hn' =>
        cases hs.symm.trans hs'
        cases h.symm.trans ht
        rw [if_neg (mt (Template.arguments_eq_iff _ _).1 hne),
          ((Template.sorts_arguments _).eq_iff hn).2 rfl,
          ((Template.sorts_arguments _).eq_iff hn').2 rfl]
        rfl

/-! ### both passes -/

/-- The findings at the entries of the target. -/
def onEntries (s t : Bundle) : List Finding :=
  t.entries.toList.filterMap fun e => finding? s t e.1 e.2

/-- The findings at the keys of the source. -/
def onKeys (s t : Bundle) : List Finding :=
  (s.keys.filter fun key => !t.contains key).map fun key => .untranslated key t.locale.tag

theorem mem_onEntries_iff (s t : Bundle) (f : Finding) :
    f ∈ onEntries s t ↔ s.texts.OnTarget t.texts t.locale.tag f := by
  rw [onEntries, List.mem_filterMap]
  constructor
  · rintro ⟨e, he, hf⟩
    exact ((finding?_eq_some_iff ((Entries.mem_toList_iff _ e).1 he) f).1 hf).1
  · intro hf
    have hk : (t.texts f.key).isSome := by
      cases hf with
      | unknownKey _ ht => exact ht
      | argumentMismatch _ ht => exact ht ▸ rfl
    obtain ⟨raw, hr⟩ := Option.isSome_iff_exists.1 hk
    exact ⟨(f.key, raw), (Entries.mem_toList_iff _ _).2 hr,
      (finding?_eq_some_iff hr f).2 ⟨hf, rfl⟩⟩

theorem mem_onKeys_iff (s t : Bundle) (f : Finding) :
    f ∈ onKeys s t ↔ s.texts.OnSource t.texts t.locale.tag f := by
  have hk := (s.entries.sorts_absent_keys t.entries).mem_iff
  rw [onKeys, List.mem_map]
  constructor
  · rintro ⟨key, hm, rfl⟩
    obtain ⟨hs, ht⟩ := (hk key).1 hm
    exact .untranslated hs ht
  · rintro ⟨hs, ht⟩
    exact ⟨_, (hk _).2 ⟨hs, ht⟩, rfl⟩

/-- A comparison finds what is to be said of the keys of the target, and then of those of the
source. -/
theorem compares_compare (s t : Bundle) :
    s.texts.Compares t.texts t.locale.tag (onEntries s t) (onKeys s t) where
  mem_first := mem_onEntries_iff s t
  mem_second := mem_onKeys_iff s t
  first_ascending := by
    refine List.Pairwise.filterMap _ (fun e e' he f hf f' hf' => ?_)
      (Entries.ascending_toList t.entries)
    rwa [key_of_finding? hf, key_of_finding? hf']
  second_ascending := List.pairwise_map.2 (s.entries.sorts_absent_keys t.entries).ascending

end Bundle

/-! ## engines -/

namespace Snapshot

/-- The texts of a locale are those of its bundle. -/
theorem texts_eq_map (s : Snapshot) (l : Locale) : s.texts l = (s.bundle? l).map Bundle.texts := by
  rw [texts, Contents.texts, contents, Option.map_map]
  rfl

theorem texts_eq_some_iff (s : Snapshot) (l : Locale) (t : Texts) :
    s.texts l = some t ↔ ∃ b, s.bundle? l = some b ∧ b.texts = t := by
  rw [texts_eq_map, Option.map_eq_some_iff]

end Snapshot

namespace Engine

/-- In a coherent engine the comparison of two locales that are loaded finds what is to be said
of their texts, under the tag of the target. -/
theorem Coherent.exists_compares {e : Engine} (he : e.Coherent) {a b : Locale} {A B : Texts}
    (ha : e.catalog.snapshot.texts a = some A) (hb : e.catalog.snapshot.texts b = some B) :
    ∃ first second, e.compare a b = first ++ second ∧ A.Compares B b.tag first second := by
  obtain ⟨s, hs, rfl⟩ := (Snapshot.texts_eq_some_iff _ a A).1 ha
  obtain ⟨t, ht, rfl⟩ := (Snapshot.texts_eq_some_iff _ b B).1 hb
  refine ⟨s.onEntries t, s.onKeys t, ?_, ?_⟩
  · rw [compare, hs, ht]
    rfl
  · rw [← he.sound.locale_eq ht]
    exact Bundle.compares_compare s t

/-- In every state that a new engine reaches, and for any two locales that are loaded in it, the
comparison lists in ascending order what is to be said of the keys of the target, and then
in ascending order what is to be said of those of the source.  It lists nothing exactly
when the two agree, nothing for a locale beside itself, and the same with the sides
exchanged in the other direction. -/
theorem compare_of_loaded (s : Settings) (ops : List Operation) (a b : Locale) (A B : Texts)
    (ha : ((new s).run ops).catalog.snapshot.texts a = some A)
    (hb : ((new s).run ops).catalog.snapshot.texts b = some B) :
    (∃ first second, ((new s).run ops).compare a b = first ++ second ∧
        A.Compares B b.tag first second) ∧
      (((new s).run ops).compare a b = [] ↔ A.Agree B) ∧
      ((new s).run ops).compare a a = [] ∧
      Texts.Reversed (((new s).run ops).compare a b) (((new s).run ops).compare b a) := by
  have he := coherent_run s ops
  obtain ⟨first, second, hab, h⟩ := he.exists_compares ha hb
  obtain ⟨first', second', hba, h'⟩ := he.exists_compares hb ha
  obtain ⟨first'', second'', haa, h''⟩ := he.exists_compares ha ha
  refine ⟨⟨first, second, hab, h⟩, ?_, ?_, ?_⟩
  · rw [hab]
    exact h.nil_iff
  · rw [haa]
    exact h''.nil_iff.2 A.agree_self
  · rw [hab, hba]
    exact h.reversed h'

/-- English and German with a key of their own each, and one that both have. -/
def twoCatalogs : List Operation :=
  [.load .english [("hi", "Hi \x7bname\x7d"), ("bye", "Bye")] .replaceAll,
    .load .german [("hi", "\x7bnom\x7d, \x7b0\x7d"), ("tag", "Tag")] .replaceAll]

theorem compare_of_loaded_twoCatalogs :
    ∃ A B, ((new (.ofDefault .english)).run twoCatalogs).catalog.snapshot.texts .english = some A ∧
      ((new (.ofDefault .english)).run twoCatalogs).catalog.snapshot.texts .german = some B ∧
      ¬ A.Agree B ∧
      (((new (.ofDefault .english)).run twoCatalogs).compare .german .english).filterMap
          Finding.mismatch? = [("hi", ["0", "nom"], ["name"])] := by
  have hc : ((new (.ofDefault .english)).run twoCatalogs).compare .english .german =
      [.argumentMismatch "hi" "de" ["name"] ["0", "nom"], .unknownKey "tag" "de",
        .untranslated "bye" "de"] := by
    decide +kernel
  have hA : (((new (.ofDefault .english)).run twoCatalogs).catalog.snapshot.texts
      .english).isSome := by
    rw [Snapshot.texts_eq_map, Option.isSome_map]
    decide +kernel
  have hB : (((new (.ofDefault .english)).run twoCatalogs).catalog.snapshot.texts
      .german).isSome := by
    rw [Snapshot.texts_eq_map, Option.isSome_map]
    decide +kernel
  obtain ⟨A, hA⟩ := Option.isSome_iff_exists.1 hA
  obtain ⟨B, hB⟩ := Option.isSome_iff_exists.1 hB
  obtain ⟨-, hn, -, hr⟩ :=
    compare_of_loaded (.ofDefault .english) twoCatalogs .english .german A B hA hB
  rw [hc] at hn hr
  exact ⟨A, B, hA, hB, fun h => List.cons_ne_nil _ _ (hn.2 h), hr.mismatch_eq⟩

end Engine

end Phrasebook
