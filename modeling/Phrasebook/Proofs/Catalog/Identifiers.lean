import Phrasebook.Proofs.Catalog.Texts

/-!
# Phrasebook.Proofs.Catalog.Identifiers

The keys behind identifiers.

The index of a bundle is the inverse of hashing its keys: it answers an identifier by the
key of the bundle that has it (`Bundle.Indexed.keyForId?_eq_some_iff`).  Identifiers are
told apart inside a bundle only.  Along several bundles an identifier is answered by the first
that knows it (`findSome?_keyForId?_eq_some_iff`), and the key found there need not be
the one that a later bundle has.
-/

namespace Phrasebook

/-! ## the index of a bundle -/

/-- Keys by the hashes of their identifiers. -/
abbrev KeyIndex := Std.TreeMap UInt64 String

namespace Bundle

/-- An index answers by the given keys, each at its identifier, and by no others. -/
def Names (ids : KeyIndex) (keys : List String) : Prop :=
  ∀ id key, ids[id]? = some key ↔ key ∈ keys ∧ (MessageId.ofKey key).hash = id

theorem names_empty : Names ∅ [] := by
  intro id key
  simp

section

variable {ids ids' : KeyIndex} {before keys : List String} {key : String}

/-- One more key, unless its identifier is in use for another. -/
theorem Names.insert (h : Names ids before)
    (hf : ∀ k, ids[(MessageId.ofKey key).hash]? = some k → k = key) :
    Names (ids.insert (MessageId.ofKey key).hash key) (before ++ [key]) := by
  intro id k
  rw [List.mem_append, List.mem_singleton]
  simp only [Std.TreeMap.getElem?_insert, Std.LawfulEqCmp.compare_eq_iff_eq]
  by_cases hid : (MessageId.ofKey key).hash = id
  · subst hid
    rw [if_pos rfl, Option.some.injEq]
    constructor
    · rintro rfl
      exact ⟨.inr rfl, rfl⟩
    · rintro ⟨hk | rfl, hid⟩
      · exact (hf k ((h _ k).2 ⟨hk, hid⟩)).symm
      · rfl
  · rw [if_neg hid, h id k]
    constructor
    · rintro ⟨hk, hid⟩
      exact ⟨.inl hk, hid⟩
    · rintro ⟨hk | rfl, hid'⟩
      · exact ⟨hk, hid'⟩
      · exact absurd hid' hid

/-- Indexing more keys names them too. -/
theorem Names.index (h : Names ids before) (hi : (index ids keys).toOption = some ids') :
    Names ids' (before ++ keys) := by
  induction keys generalizing ids before with
  | nil =>
    cases hi
    rwa [List.append_nil]
  | cons key keys ih =>
    rw [toOption_index_cons] at hi
    split at hi
    · next hf =>
      have hn := ih (h.insert hf) hi
      rwa [List.append_assoc] at hn
    · cases hi

end

/-- Keys that cannot be indexed are indexed up to one whose identifier is in use for another. -/
theorem Names.exists_split_of_index_eq_error {ids : KeyIndex} {before keys : List String}
    {first second : String} (h : Names ids before)
    (hi : Bundle.index ids keys = .error (first, second)) :
    ∃ pre post ids', keys = pre ++ second :: post ∧ Names ids' (before ++ pre) ∧
      first ∈ before ++ pre ∧ first ≠ second ∧
      MessageId.ofKey first = MessageId.ofKey second := by
  induction keys generalizing ids before with
  | nil => cases hi
  | cons key keys ih =>
    have later : (∀ k, ids[(MessageId.ofKey key).hash]? = some k → k = key) →
        Bundle.index (ids.insert (MessageId.ofKey key).hash key) keys = .error (first, second) →
        ∃ pre post ids', key :: keys = pre ++ second :: post ∧ Names ids' (before ++ pre) ∧
          first ∈ before ++ pre ∧ first ≠ second ∧
          MessageId.ofKey first = MessageId.ofKey second := by
      intro hf hi
      obtain ⟨pre, post, ids', rfl, hn, hm, hs⟩ := ih (h.insert hf) hi
      rw [List.append_assoc] at hn hm
      exact ⟨key :: pre, post, ids', rfl, hn, hm, hs⟩
    rw [Bundle.index] at hi
    split at hi
    · next earlier he =>
      split at hi
      · next hne =>
        cases hi
        obtain ⟨hm, hid⟩ := (h _ _).1 he
        rw [← List.append_nil before] at h hm
        exact ⟨[], keys, ids, rfl, h, hm, hne, MessageId.hash_inj.1 hid⟩
      · next heq =>
        refine later (fun k hk => ?_) hi
        rw [he] at hk
        cases hk
        exact not_not.1 heq
    · next hn =>
      refine later (fun k hk => ?_) hi
      rw [hn] at hk
      cases hk

/-- Keys that cannot be indexed are two of one identifier. -/
theorem Names.of_index_eq_error {ids : KeyIndex} {before keys : List String}
    {first second : String} (h : Names ids before) (hi : Bundle.index ids keys = .error (first, second)) :
    first ≠ second ∧ first ∈ before ++ keys ∧ second ∈ before ++ keys ∧
      MessageId.ofKey first = MessageId.ofKey second := by
  obtain ⟨pre, post, ids', rfl, -, hm, hne, hid⟩ := h.exists_split_of_index_eq_error hi
  rw [← List.append_assoc]
  exact ⟨hne, List.mem_append_left _ hm, by simp, hid⟩

/-- Keys that are indexed have identifiers of their own. -/
theorem Names.eq_of_ofKey_eq {ids : KeyIndex} {keys : List String} (h : Names ids keys)
    {key key' : String} (hk : key ∈ keys) (hk' : key' ∈ keys)
    (hid : MessageId.ofKey key = MessageId.ofKey key') : key = key' := by
  have hf := (h _ key).2 ⟨hk, rfl⟩
  have hf' := (h _ key').2 ⟨hk', rfl⟩
  rw [hid, hf'] at hf
  exact (Option.some.inj hf).symm

/-- A bundle is made of entries unless two keys share their identifier; the error names them. -/
theorem make_cases (l : Locale) (version : UInt64) (x : Entries) :
    (¬ x.texts.Collide ∧ ∃ b, make l version x = .ok b) ∨
      (x.texts.Collide ∧ ∃ first second, make l version x =
          .error (.idCollision l.tag first second) ∧
        first ≠ second ∧ first ∈ x ∧ second ∈ x ∧
        MessageId.ofKey first = MessageId.ofKey second) := by
  have hc := toOption_index_eq_none_iff x
  unfold make
  rcases hi : index ∅ x.keys with ⟨first, second⟩ | ids
  · rw [hi] at hc
    have hs := names_empty.of_index_eq_error hi
    simp only [List.nil_append, Std.TreeMap.mem_keys] at hs
    exact .inr ⟨hc.1 rfl, first, second, rfl, hs⟩
  · rw [hi] at hc
    exact .inl ⟨fun h => Option.some_ne_none _ (hc.2 h), _, rfl⟩

/-- The index of a bundle is the inverse of hashing its keys. -/
theorem Indexed.keyForId?_eq_some_iff {b : Bundle} (hb : b.Indexed) (id : MessageId)
    (key : String) :
    b.keyForId? id = some key ↔ b.contains key = true ∧ MessageId.ofKey key = id := by
  have hi : (index ∅ b.entries.keys).toOption = some b.ids := by
    unfold Indexed make at hb
    split at hb
    · next ids hi =>
      rw [hi, ← congrArg Bundle.ids (Except.ok.inj hb)]
      rfl
    · cases hb
  rw [keyForId?, names_empty.index hi id.hash key, List.nil_append, Std.TreeMap.mem_keys,
    contains, Std.TreeMap.contains_iff_mem, MessageId.hash_inj]

/-! ## the first bundle that knows an identifier -/

/-- A key has an identifier in the first of some bundles that have a key with it. -/
def FirstKey (bs : List Bundle) (id : MessageId) (key : String) : Prop :=
  ∃ before b after, bs = before ++ b :: after ∧
    (∀ x ∈ before, ∀ k, x.contains k = true → MessageId.ofKey k ≠ id) ∧
    b.contains key = true ∧ MessageId.ofKey key = id

theorem FirstKey.exists_mem {bs : List Bundle} {id : MessageId} {key : String}
    (h : FirstKey bs id key) : ∃ b ∈ bs, b.contains key = true ∧ MessageId.ofKey key = id := by
  obtain ⟨before, b, after, rfl, -, hk⟩ := h
  exact ⟨b, by simp, hk⟩

/-- Looking an identifier up in one bundle after the other finds the first key that has it. -/
theorem findSome?_keyForId?_eq_some_iff {bs : List Bundle} (hs : ∀ b ∈ bs, b.Indexed)
    (id : MessageId) (key : String) :
    bs.findSome? (keyForId? · id) = some key ↔ FirstKey bs id key := by
  rw [List.findSome?_eq_some_iff, FirstKey]
  constructor
  · rintro ⟨before, b, after, rfl, hb, hn⟩
    have hk := ((hs b (by simp)).keyForId?_eq_some_iff id key).1 hb
    refine ⟨before, b, after, rfl, fun x hx k hk hid => ?_, hk⟩
    have hx' := ((hs x (by simp [hx])).keyForId?_eq_some_iff id k).2 ⟨hk, hid⟩
    rw [hn x hx] at hx'
    cases hx'
  · rintro ⟨before, b, after, rfl, hn, hk⟩
    refine ⟨before, b, after, rfl, ((hs b (by simp)).keyForId?_eq_some_iff id key).2 hk, ?_⟩
    intro x hx
    refine Option.eq_none_iff_forall_ne_some.2 fun k hk => ?_
    obtain ⟨hc, hid⟩ := ((hs x (by simp [hx])).keyForId?_eq_some_iff id k).1 hk
    exact hn x hx k hc hid

/-- A key of one of the bundles makes its identifier known. -/
theorem exists_firstKey {bs : List Bundle} (hs : ∀ b ∈ bs, b.Indexed) {b : Bundle} (hb : b ∈ bs)
    {key : String} (hk : b.contains key = true) :
    ∃ first, FirstKey bs (MessageId.ofKey key) first := by
  have hf : (bs.findSome? (keyForId? · (MessageId.ofKey key))).isSome = true := by
    rw [List.findSome?_isSome_iff]
    refine ⟨b, hb, ?_⟩
    rw [((hs b hb).keyForId?_eq_some_iff _ key).2 ⟨hk, rfl⟩]
    rfl
  obtain ⟨first, h⟩ := Option.isSome_iff_exists.1 hf
  exact ⟨first, (findSome?_keyForId?_eq_some_iff hs _ first).1 h⟩

end Bundle

namespace Snapshot

theorem Sound.indexed_of_mem_bundlesOf {s : Snapshot} (hs : s.Sound) {chain : List Locale}
    {b : Bundle} (hb : b ∈ s.bundlesOf chain) : b.Indexed := by
  obtain ⟨l, -, h⟩ := List.mem_filterMap.1 hb
  exact (hs l.tag b h).2

/-- A key is found in a chain when one of its bundles has it. -/
theorem isSome_lookup?_iff (s : Snapshot) (chain : List Locale) (key : String) :
    (s.lookup? chain key).isSome = true ↔ ∃ b ∈ s.bundlesOf chain, b.contains key = true := by
  rw [lookup?, List.findSome?_isSome_iff]
  constructor
  · rintro ⟨l, hl, h⟩
    cases hb : s.bundle? l with
    | none => simp [hb] at h
    | some b =>
      refine ⟨b, List.mem_filterMap.2 ⟨l, hl, hb⟩, ?_⟩
      cases hr : b.entries[key]? with
      | none => simp [hb, Bundle.get?, hr] at h
      | some raw =>
        rw [Bundle.contains, Std.TreeMap.contains_eq_isSome_getElem?, hr]
        rfl
  · rintro ⟨b, hb, hk⟩
    obtain ⟨l, hl, hb⟩ := List.mem_filterMap.1 hb
    rw [Bundle.contains, Std.TreeMap.contains_eq_isSome_getElem?] at hk
    obtain ⟨raw, hr⟩ := Option.isSome_iff_exists.1 hk
    exact ⟨l, hl, by simp [hb, Bundle.get?, hr]⟩

end Snapshot

end Phrasebook
