import Phrasebook.Proofs.Catalog.Identifiers
import Phrasebook.Proofs.Catalog.Versions
import Phrasebook.Proofs.Text.ByteOrder

/-!
# Phrasebook.Proofs.Catalog.Collisions

Loads that are refused, and the keys that they are refused for.

Keys are indexed in ascending order, so the error names the first key at which indexing
stops: of all keys that have the identifier of a smaller key it is the least
(`Texts.FirstCollision`), and no other pair answers to this (`FirstCollision.unique`).
The description speaks of what the locale would have after the load and not of how the
entries came in, so loads of the same entries are answered alike (`load_congr`).
-/

namespace Phrasebook

open Text (bytes)

namespace Texts

/-- The keys that a collision is reported with: the least key, in the order of bytes, that has
the identifier of a smaller key, and that smaller key. -/
structure FirstCollision (t : Texts) (first second : String) : Prop where
  isSome_first : (t first).isSome
  isSome_second : (t second).isSome
  ofKey_eq : MessageId.ofKey first = MessageId.ofKey second
  lt : bytes first < bytes second
  least : ∀ key key', (t key).isSome → (t key').isSome →
    MessageId.ofKey key = MessageId.ofKey key' → bytes key < bytes key' →
    ¬ bytes key' < bytes second

variable {t : Texts} {first second first' second' : String}

theorem FirstCollision.collide (h : t.FirstCollision first second) : t.Collide := by
  refine ⟨first, second, ?_, h.isSome_first, h.isSome_second, h.ofKey_eq⟩
  rintro rfl
  exact List.lt_irrefl _ h.lt

/-- At most one pair of keys is reported. -/
theorem FirstCollision.unique (h : t.FirstCollision first second)
    (h' : t.FirstCollision first' second') : first = first' ∧ second = second' := by
  obtain rfl : second = second' := Text.eq_of_not_bytes_lt
    (h'.least first second h.isSome_first h.isSome_second h.ofKey_eq h.lt)
    (h.least first' second' h'.isSome_first h'.isSome_second h'.ofKey_eq h'.lt)
  -- of two keys in front of it, the greater would have the identifier of the smaller
  have hid : MessageId.ofKey first = MessageId.ofKey first' := h.ofKey_eq.trans h'.ofKey_eq.symm
  refine ⟨Text.eq_of_not_bytes_lt (fun hlt => ?_) (fun hlt => ?_), rfl⟩
  · exact h'.least first first' h.isSome_first h'.isSome_first hid hlt h'.lt
  · exact h.least first' first h'.isSome_first h.isSome_first hid.symm hlt h.lt

end Texts

/-! ## bundles -/

namespace Bundle

/-- The keys at which indexing stops are the first that collide. -/
theorem firstCollision_of_index_eq_error {x : Entries} {first second : String}
    (h : index ∅ x.keys = .error (first, second)) : x.texts.FirstCollision first second := by
  obtain ⟨pre, post, ids, hk, hn, hm, hne, hid⟩ := names_empty.exists_split_of_index_eq_error h
  rw [List.nil_append] at hn hm
  have hs : x.keys.Pairwise (· < ·) :=
    x.ordered_keys.imp fun h => compareOfLessAndEq_eq_lt.1 h
  rw [hk, List.pairwise_append, List.pairwise_cons] at hs
  obtain ⟨-, ⟨hpost, -⟩, hpre⟩ := hs
  have hmem : ∀ key, (x.texts key).isSome ↔ key ∈ pre ∨ key = second ∨ key ∈ post := by
    intro key
    rw [Entries.isSome_texts_iff, hk, List.mem_append, List.mem_cons]
  have hlt : ∀ key, (x.texts key).isSome → key < second → key ∈ pre := by
    intro key hx hlt
    rcases (hmem key).1 hx with hp | rfl | hp
    · exact hp
    · exact absurd hlt (String.lt_irrefl key)
    · exact absurd (hpost key hp) (String.lt_asymm hlt)
  refine ⟨(hmem _).2 (.inl hm), (hmem _).2 (.inr (.inl rfl)), hid, ?_, ?_⟩
  · exact Text.bytes_lt_iff.2 (hpre first hm second List.mem_cons_self)
  · intro key key' hx hx' hid hb hb'
    rw [Text.bytes_lt_iff] at hb hb'
    obtain rfl := hn.eq_of_ofKey_eq (hlt key hx (String.lt_trans hb hb')) (hlt key' hx' hb') hid
    exact String.lt_irrefl key hb

/-- A bundle is made of entries, or they have first keys that collide and the error names
these. -/
theorem make_eq_error_iff (l : Locale) (version : UInt64) (x : Entries) (err : LoadError) :
    make l version x = .error err ↔
      ∃ first second, err = .idCollision l.tag first second ∧
        x.texts.FirstCollision first second := by
  rw [make]
  rcases hi : index ∅ x.keys with ⟨first, second⟩ | ids
  · have hc := firstCollision_of_index_eq_error hi
    constructor
    · rintro ⟨⟩
      exact ⟨first, second, rfl, hc⟩
    · rintro ⟨first', second', rfl, hc'⟩
      obtain ⟨rfl, rfl⟩ := hc.unique hc'
      rfl
  · have hn : ¬ x.texts.Collide := by
      rw [← toOption_index_eq_none_iff, hi]
      exact Option.some_ne_none ids
    constructor
    · rintro ⟨⟩
    · rintro ⟨first, second, -, hc⟩
      exact absurd hc.collide hn

end Bundle

/-! ## loads -/

namespace TextMap

/-- The error that a load is refused with: the first keys that collide in what the locale would
have. -/
def Refuses (m : TextMap) (mode : LoadMode) (x : Locale × Entries) (err : LoadError) : Prop :=
  ∃ first second, err = .idCollision x.1.tag first second ∧
    (m.merged x.1 x.2.texts mode).FirstCollision first second

/-- The error that loads made one after the other are refused with: that of the first which is
refused after the ones before it. -/
def RefusesMany (m : TextMap) (mode : LoadMode) (loads : List (Locale × Entries))
    (err : LoadError) : Prop :=
  ∃ before x after m', loads = before ++ x :: after ∧
    before.foldlM (load? mode) m = some m' ∧ m'.Refuses mode x err

theorem not_refusesMany_nil (m : TextMap) (mode : LoadMode) (err : LoadError) :
    ¬ m.RefusesMany mode [] err := by
  rintro ⟨before, x, after, -, h, -⟩
  exact List.append_ne_nil_of_right_ne_nil before (List.cons_ne_nil x after) h.symm

theorem refusesMany_cons_iff (m : TextMap) (mode : LoadMode) (x : Locale × Entries)
    (loads : List (Locale × Entries)) (err : LoadError) :
    m.RefusesMany mode (x :: loads) err ↔
      m.Refuses mode x err ∨ ∃ m', m.load? mode x = some m' ∧ m'.RefusesMany mode loads err := by
  constructor
  · rintro ⟨_ | ⟨y, before⟩, z, after, m', hl, hm, hr⟩
    · cases hl
      cases hm
      exact .inl hr
    · cases hl
      rw [List.foldlM_cons] at hm
      obtain ⟨m₁, h₁, hm⟩ := Option.bind_eq_some_iff.1 hm
      exact .inr ⟨m₁, h₁, before, z, after, m', rfl, hm, hr⟩
  · rintro (hr | ⟨m₁, h₁, before, z, after, m', rfl, hm, hr⟩)
    · exact ⟨[], x, loads, m, rfl, rfl, hr⟩
    · refine ⟨x :: before, z, after, m', rfl, ?_, hr⟩
      rw [List.foldlM_cons]
      exact Option.bind_eq_some_iff.2 ⟨m₁, h₁, hm⟩

end TextMap

/-- Entries are the same in whatever order they come. -/
theorem Entries.texts_ofList_perm {es es' : List (String × String)} (h : es.Perm es')
    (hd : (es.map Prod.fst).Nodup) : (ofList es).texts = (ofList es').texts := by
  have hp : es.Pairwise fun a b => a.1 ≠ b.1 := List.pairwise_map.1 hd
  have hp' : es'.Pairwise fun a b => a.1 ≠ b.1 :=
    List.pairwise_map.1 ((h.map Prod.fst).nodup_iff.1 hd)
  funext key
  rw [texts, texts, ofList, ofList]
  by_cases hk : ∃ raw, (key, raw) ∈ es
  · obtain ⟨raw, hr⟩ := hk
    rw [getElem?_foldl_insert_of_mem hp hr, getElem?_foldl_insert_of_mem hp' (h.mem_iff.1 hr)]
  · have hn : ∀ e ∈ es, e.1 ≠ key := by
      rintro ⟨k, raw⟩ he rfl
      exact hk ⟨raw, he⟩
    rw [getElem?_foldl_insert_of_not_mem hn,
      getElem?_foldl_insert_of_not_mem fun e he => hn e (h.mem_iff.2 he)]

namespace Catalog

/-- Staging a bundle is a load of texts. -/
theorem texts_stage (s : Snapshot) (version : UInt64) (mode : LoadMode) (x : Locale × Entries) :
    (stage s version x.1 x.2 mode).toOption.map Snapshot.texts = s.texts.load? mode x := by
  rw [Snapshot.texts, ← Contents.texts_load, ← contents_stage s version]
  cases stage s version x.1 x.2 mode <;> rfl

/-- Staging is refused for the first keys that collide in what the locale would have. -/
theorem stage_eq_error_iff (s : Snapshot) (version : UInt64) (mode : LoadMode)
    (x : Locale × Entries) (err : LoadError) :
    stage s version x.1 x.2 mode = .error err ↔ s.texts.Refuses mode x err := by
  rw [TextMap.Refuses, Snapshot.texts, ← Contents.texts_merged, ← merged_eq,
    ← Bundle.make_eq_error_iff x.1 version, stage]
  cases Bundle.make x.1 version (merged s x.1 x.2 mode) <;> simp [Except.map]

/-- Staging bundles is refused as loads of their texts one after the other are. -/
theorem stageAll_eq_error_iff (mode : LoadMode) (loads : List (Locale × Entries)) (s : Snapshot)
    (next : UInt64) (err : LoadError) :
    (stageAll s next mode loads).1 = .error err ↔ s.texts.RefusesMany mode loads err := by
  induction loads generalizing s next with
  | nil =>
    constructor
    · rintro ⟨⟩
    · intro h
      exact absurd h (s.texts.not_refusesMany_nil mode err)
  | cons x rest ih =>
    rw [TextMap.refusesMany_cons_iff, ← stage_eq_error_iff s next, ← texts_stage s next]
    cases hx : stage s next x.1 x.2 mode with
    | error e =>
      rw [stageAll, hx]
      simp [Except.toOption]
    | ok s' =>
      rw [stageAll_cons_of_ok hx]
      simp only [Except.toOption, Option.map_some, Option.some.injEq, exists_eq_left',
        reduceCtorEq, false_or, ← ih s' (next + 1)]
      cases (stageAll s' (next + 1) mode rest).1 <;> simp [Except.map]

theorem load_eq_error_iff (c : Catalog) (mode : LoadMode) (x : Locale × Entries)
    (err : LoadError) :
    (c.load x.1 x.2 mode).1 = .error err ↔ c.snapshot.texts.Refuses mode x err := by
  rw [← stage_eq_error_iff c.snapshot c.nextVersion, load]
  cases stage c.snapshot c.nextVersion x.1 x.2 mode <;> simp

theorem loadMany_eq_error_iff (c : Catalog) (mode : LoadMode) (loads : List (Locale × Entries))
    (err : LoadError) :
    (c.loadMany loads mode).1 = .error err ↔ c.snapshot.texts.RefusesMany mode loads err := by
  rw [← stageAll_eq_error_iff mode loads c.snapshot c.nextVersion, loadMany]
  rcases stageAll c.snapshot c.nextVersion mode loads with ⟨e | r, next⟩ <;> simp

/-- A load is refused when two keys would then have one identifier. -/
theorem exists_load_eq_idCollision_iff (c : Catalog) (mode : LoadMode) (x : Locale × Entries) :
    (∃ first second, (c.load x.1 x.2 mode).1 = .error (.idCollision x.1.tag first second)) ↔
      (c.snapshot.texts.merged x.1 x.2.texts mode).Collide := by
  constructor
  · rintro ⟨first, second, h⟩
    obtain ⟨first, second, -, hc⟩ := (load_eq_error_iff c mode x _).1 h
    exact hc.collide
  · intro h
    have hf : c.Fails (.load x.1 x.2 mode) := by
      rw [(texts_perform c _).2, TextMap.after?, TextMap.load?, if_pos h]
    obtain ⟨err, he⟩ := hf
    obtain ⟨first, second, rfl, -⟩ := (load_eq_error_iff c mode x err).1 he
    exact ⟨first, second, he⟩

theorem version_of_load_eq_ok {c : Catalog} {l : Locale} {x : Entries} {mode : LoadMode}
    {version : UInt64} (h : (c.load l x mode).1 = .ok version) : version = c.nextVersion := by
  rw [load] at h
  cases hs : stage c.snapshot c.nextVersion l x mode with
  | error err => rw [hs] at h; cases h
  | ok s => rw [hs] at h; cases h; rfl

/-- Loads of the same entries are answered alike. -/
theorem load_congr (c : Catalog) (l : Locale) (mode : LoadMode) {x y : Entries}
    (h : x.texts = y.texts) : (c.load l x mode).1 = (c.load l y mode).1 := by
  have he : ∀ err, (c.load l x mode).1 = .error err ↔ (c.load l y mode).1 = .error err := by
    intro err
    rw [load_eq_error_iff c mode (l, x), load_eq_error_iff c mode (l, y), TextMap.Refuses,
      TextMap.Refuses, h]
  cases hx : (c.load l x mode).1 with
  | error err => exact ((he err).1 hx).symm
  | ok version =>
    cases hy : (c.load l y mode).1 with
    | error err => exact absurd ((he err).2 hy) (by simp [hx])
    | ok version' => rw [version_of_load_eq_ok hx, version_of_load_eq_ok hy]

/-! ## runs -/

/-- In every catalog that a run reaches the bundles answer an identifier by their key that has
it, and by no other.  A load is refused exactly when two keys of what the locale would have
share their identifier; the error names the first keys that collide, in whatever order the
entries come.  Several loads are refused as the first of them that is refused. -/
theorem identifiers_of_run (ops : List Operation) :
    (∀ (tag : String) (b : Bundle), (empty.run ops).snapshot.bundles[tag]? = some b →
      ∀ id key, b.keyForId? id = some key ↔ b.contains key = true ∧ MessageId.ofKey key = id) ∧
    (∀ (mode : LoadMode) (x : Locale × Entries),
      ((∃ first second, ((empty.run ops).load x.1 x.2 mode).1 =
          .error (.idCollision x.1.tag first second)) ↔
        ((empty.run ops).snapshot.texts.merged x.1 x.2.texts mode).Collide) ∧
      ∀ err, ((empty.run ops).load x.1 x.2 mode).1 = .error err ↔
        (empty.run ops).snapshot.texts.Refuses mode x err) ∧
    (∀ (mode : LoadMode) (loads : List (Locale × Entries)) err,
      ((empty.run ops).loadMany loads mode).1 = .error err ↔
        (empty.run ops).snapshot.texts.RefusesMany mode loads err) ∧
    ∀ (mode : LoadMode) (l : Locale) (es es' : List (String × String)), es.Perm es' →
      (es.map Prod.fst).Nodup →
      ((empty.run ops).load l (.ofList es) mode).1 =
        ((empty.run ops).load l (.ofList es') mode).1 := by
  refine ⟨fun tag b hb id key => ?_, fun mode x => ?_, fun mode loads err => ?_,
    fun mode l es es' hp hd => ?_⟩
  · obtain ⟨x, -, hx⟩ := exists_history_of_published
      ⟨ops, [], tag, (List.append_nil ops).symm, hb⟩
    exact (Bundle.make_eq_ok hx).2.2.2.keyForId?_eq_some_iff id key
  · exact ⟨exists_load_eq_idCollision_iff _ mode x, load_eq_error_iff _ mode x⟩
  · exact loadMany_eq_error_iff _ mode loads err
  · exact load_congr _ l mode (Entries.texts_ofList_perm hp hd)

/-- English with one key, whose identifier another key has too. -/
def oneKey : List Operation := [.load .english (.ofList [("AuHH3scoLSF", "x")]) .replaceAll]

theorem identifiers_of_run_oneKey :
    (∃ b, (empty.run oneKey).snapshot.bundles["en"]? = some b ∧
      b.keyForId? (.ofKey "AuHH3scoLSF") = some "AuHH3scoLSF") ∧
    List.Perm [("LLwCZu4z3qH", "y"), ("k", "z")] [("k", "z"), ("LLwCZu4z3qH", "y")] ∧
    ([("LLwCZu4z3qH", "y"), ("k", "z")].map Prod.fst).Nodup ∧
    ((empty.run oneKey).load .english (.ofList [("LLwCZu4z3qH", "y"), ("k", "z")]) .merge).1 =
      .error (.idCollision "en" "AuHH3scoLSF" "LLwCZu4z3qH") ∧
    ((empty.run oneKey).load .english (.ofList [("k", "z"), ("LLwCZu4z3qH", "y")]) .merge).1 =
      .error (.idCollision "en" "AuHH3scoLSF" "LLwCZu4z3qH") := by
  obtain ⟨hi, -, -, ho⟩ := identifiers_of_run oneKey
  have hb : (empty.run oneKey).snapshot.bundles["en"]?.any (Bundle.contains · "AuHH3scoLSF") =
      true := by
    decide +kernel
  obtain ⟨b, hb, hc⟩ := (Option.any_eq_true _ _).1 hb
  have hp : List.Perm [("LLwCZu4z3qH", "y"), ("k", "z")] [("k", "z"), ("LLwCZu4z3qH", "y")] :=
    List.Perm.swap _ _ []
  have hd : ([("LLwCZu4z3qH", "y"), ("k", "z")].map Prod.fst).Nodup := by decide
  have hl : ((empty.run oneKey).load .english (.ofList [("LLwCZu4z3qH", "y"), ("k", "z")])
      .merge).1 = .error (.idCollision "en" "AuHH3scoLSF" "LLwCZu4z3qH") := by
    decide +kernel
  exact ⟨⟨b, hb, (hi "en" b hb _ _).2 ⟨hc, rfl⟩⟩, hp, hd, hl,
    (ho .merge .english _ _ hp hd).symm.trans hl⟩

end Catalog

end Phrasebook
