import Phrasebook.Proofs.Catalog.Contents
import Phrasebook.Proofs.Catalog.Run

/-!
# Phrasebook.Proofs.Catalog.Texts

A catalog as a map from locales and keys to raw texts.

The reference (`TextMap`) is a function of the locale and the key.  A load makes the texts
of its locale the new ones, or lays them over the old ones, and is refused if two keys of
the locale then have one identifier; several loads are made one after the other, all or
none; removing and clearing forget texts.

The texts of a catalog follow the reference through every run, and a call fails exactly
when the reference refuses it (`texts_run_eq_reference`).  Between the two stand the
contents of a snapshot, which are maps with an order of their own: what they have for a key
is what the reference has (`Contents.texts_load`).
-/

namespace Phrasebook

/-! ## the reference -/

/-- The raw text of every key; none of a key that has no template. -/
abbrev Texts := String → Option String

/-- Two keys that have a text share their identifier. -/
def Texts.Collide (t : Texts) : Prop :=
  ∃ key key', key ≠ key' ∧ (t key).isSome ∧ (t key').isSome ∧
    MessageId.ofKey key = MessageId.ofKey key'

/-- The raw texts of entries. -/
def Entries.texts (x : Entries) : Texts := fun key => x[key]?

/-- The texts of every locale; none of a locale that is not loaded. -/
abbrev TextMap := Locale → Option Texts

namespace TextMap

/-- What a locale has after a load: the new texts, and where they are merged the old text
of every other key. -/
def merged (m : TextMap) (l : Locale) (new : Texts) : LoadMode → Texts
  | .replaceAll => new
  | .merge => fun key => (new key).or ((m l).bind fun old => old key)

/-- The map with new texts of a locale. -/
def put (mode : LoadMode) (m : TextMap) (x : Locale × Entries) : TextMap :=
  Function.update m x.1 (some (m.merged x.1 x.2.texts mode))

open Classical in
/-- The map after a load, which is refused if two keys then share their identifier. -/
noncomputable def load? (mode : LoadMode) (m : TextMap) (x : Locale × Entries) : Option TextMap :=
  if (m.merged x.1 x.2.texts mode).Collide then none else some (m.put mode x)

/-- The map after a call; none if the call is refused. -/
noncomputable def after? (m : TextMap) : Catalog.Operation → Option TextMap
  | .load l entries mode => m.load? mode (l, entries)
  | .loadMany loads mode => loads.foldlM (load? mode) m
  | .remove l => some (Function.update m l none)
  | .clear => some fun _ => none

/-- The map after a call; one that is refused changes nothing. -/
noncomputable def after (m : TextMap) (op : Catalog.Operation) : TextMap := (m.after? op).getD m

end TextMap

/-! ## texts of entries -/

namespace Entries

theorem getElem?_foldl_insert_of_not_mem {es : List (String × String)} {key : String}
    (h : ∀ e ∈ es, e.1 ≠ key) (x : Entries) :
    (es.foldl (fun m e => m.insert e.1 e.2) x)[key]? = x[key]? := by
  induction es generalizing x with
  | nil => rfl
  | cons e es ih =>
    obtain ⟨he, hes⟩ := List.forall_mem_cons.1 h
    rw [List.foldl_cons, ih hes]
    simp only [Std.TreeMap.getElem?_insert, Std.LawfulEqCmp.compare_eq_iff_eq, if_neg he]

theorem getElem?_foldl_insert_of_mem {es : List (String × String)} {key raw : String}
    (hd : es.Pairwise fun a b => a.1 ≠ b.1) (h : (key, raw) ∈ es) (x : Entries) :
    (es.foldl (fun m e => m.insert e.1 e.2) x)[key]? = some raw := by
  induction es generalizing x with
  | nil => cases h
  | cons e es ih =>
    obtain ⟨he, hes⟩ := List.pairwise_cons.1 hd
    rw [List.foldl_cons]
    rcases List.mem_cons.1 h with rfl | h
    · rw [getElem?_foldl_insert_of_not_mem fun a ha => (he a ha).symm]
      simp only [Std.TreeMap.getElem?_insert, Std.LawfulEqCmp.compare_eq_iff_eq, if_true]
    · exact ih hes h _

/-- Entries inserted on top of others are found first. -/
theorem getElem?_foldl_toList (below above : Entries) (key : String) :
    (above.toList.foldl (fun m e => m.insert e.1 e.2) below)[key]? =
      above[key]?.or below[key]? := by
  cases h : above[key]? with
  | some raw =>
    have hd : above.toList.Pairwise fun a b => a.1 ≠ b.1 :=
      above.distinct_keys_toList.imp fun hab he => hab (Std.LawfulEqCmp.compare_eq_iff_eq.2 he)
    rw [getElem?_foldl_insert_of_mem hd (Std.TreeMap.mem_toList_iff_getElem?_eq_some.2 h),
      Option.some_or]
  | none =>
    rw [getElem?_foldl_insert_of_not_mem, Option.none_or]
    rintro ⟨k, raw⟩ hm rfl
    rw [Std.TreeMap.mem_toList_iff_getElem?_eq_some.1 hm] at h
    cases h

theorem texts_overlay (below above : Entries) :
    (below.overlay above).texts = fun key => (above.texts key).or (below.texts key) := by
  funext key
  rw [texts, overlay, Std.TreeMap.foldl_eq_foldl_toList]
  exact getElem?_foldl_toList below above key

theorem texts_ofList_toList (x : Entries) : (ofList x.toList).texts = x.texts := by
  funext key
  rw [texts, ofList, getElem?_foldl_toList, Std.TreeMap.getElem?_emptyc, Option.or_none, texts]

theorem ofList_toList_equiv (x : Entries) : (ofList x.toList).Equiv x :=
  .of_forall_constGet?_eq fun key => congrFun (texts_ofList_toList x) key

theorem isSome_texts_iff (x : Entries) (key : String) : (x.texts key).isSome ↔ key ∈ x.keys := by
  rw [texts, Std.TreeMap.isSome_getElem?_iff_mem, Std.TreeMap.mem_keys]

end Entries

/-! ## identifiers -/

theorem MessageId.hash_inj {a b : MessageId} : a.hash = b.hash ↔ a = b := by
  constructor
  · intro h
    cases a
    cases b
    cases h
    rfl
  · rintro rfl
    rfl

/-- A key is indexed unless its identifier is in use for another key. -/
theorem toOption_index_cons (ids : Std.TreeMap UInt64 String) (key : String) (keys : List String) :
    (Bundle.index ids (key :: keys)).toOption =
      if (∀ k, ids[(MessageId.ofKey key).hash]? = some k → k = key) then
        (Bundle.index (ids.insert (MessageId.ofKey key).hash key) keys).toOption
      else none := by
  rw [Bundle.index]
  cases h : ids[(MessageId.ofKey key).hash]? with
  | none => simp
  | some k =>
    by_cases hk : k = key
    · simp [hk]
    · simp [hk, Except.toOption]

/-- Keys can be indexed when no identifier is in use for another key, neither before nor
among themselves. -/
theorem isSome_index_iff {ids : Std.TreeMap UInt64 String} {keys : List String} :
    (Bundle.index ids keys).toOption.isSome ↔
      ∀ key ∈ keys, (∀ k, ids[(MessageId.ofKey key).hash]? = some k → k = key) ∧
        ∀ k ∈ keys, MessageId.ofKey k = MessageId.ofKey key → k = key := by
  induction keys generalizing ids with
  | nil => simp [Bundle.index, Except.toOption]
  | cons key keys ih =>
    have hi : ∀ x : String, (ids.insert (MessageId.ofKey key).hash key)[(MessageId.ofKey x).hash]? =
        if MessageId.ofKey key = MessageId.ofKey x then some key
        else ids[(MessageId.ofKey x).hash]? := by
      intro x
      simp only [Std.TreeMap.getElem?_insert, Std.LawfulEqCmp.compare_eq_iff_eq,
        MessageId.hash_inj]
    rw [toOption_index_cons]
    by_cases h : ∀ k, ids[(MessageId.ofKey key).hash]? = some k → k = key
    · rw [if_pos h, ih]
      simp only [hi]
      constructor
      · intro hr x hx
        rcases List.mem_cons.1 hx with rfl | hx
        · refine ⟨h, fun k hk he => ?_⟩
          rcases List.mem_cons.1 hk with rfl | hk
          · rfl
          · exact ((hr k hk).1 x (if_pos he.symm)).symm
        · obtain ⟨hl, hk⟩ := hr x hx
          have hx' : MessageId.ofKey key = MessageId.ofKey x → key = x := fun he =>
            hl key (if_pos he)
          refine ⟨fun k hi => ?_, List.forall_mem_cons.2 ⟨hx', hk⟩⟩
          by_cases he : MessageId.ofKey key = MessageId.ofKey x
          · exact hx' he ▸ h k (hx' he ▸ hi)
          · exact hl k ((if_neg he).trans hi)
      · intro hr x hx
        obtain ⟨hl, hk⟩ := hr x (List.mem_cons_of_mem _ hx)
        obtain ⟨hx', hk⟩ := List.forall_mem_cons.1 hk
        refine ⟨fun k hi => ?_, hk⟩
        by_cases he : MessageId.ofKey key = MessageId.ofKey x
        · rw [if_pos he, Option.some.injEq] at hi
          exact hi ▸ hx' he
        · rw [if_neg he] at hi
          exact hl k hi
    · rw [if_neg h]
      exact ⟨fun hn => Bool.noConfusion hn, fun hr => absurd (hr key List.mem_cons_self).1 h⟩

/-- The keys of entries cannot be indexed when two of them share their identifier. -/
theorem toOption_index_eq_none_iff (x : Entries) :
    (Bundle.index ∅ x.keys).toOption = none ↔ x.texts.Collide := by
  rw [← Option.not_isSome_iff_eq_none, isSome_index_iff, Texts.Collide]
  simp only [Std.TreeMap.getElem?_emptyc, Entries.isSome_texts_iff]
  grind

/-! ## loads -/

namespace Contents

/-- The texts of contents. -/
def texts (c : Contents) : TextMap := fun l => (c l).map Entries.texts

theorem texts_merged (c : Contents) (l : Locale) (x : Entries) (mode : LoadMode) :
    (c.merged l x mode).texts = c.texts.merged l x.texts mode := by
  unfold Contents.merged TextMap.merged texts
  cases mode with
  | replaceAll => rfl
  | merge =>
    cases c l with
    | none => simp
    | some old => simp [Entries.texts_overlay]

theorem texts_update (c : Contents) (l : Locale) (x : Option Entries) :
    texts (Function.update c l x) = Function.update c.texts l (x.map Entries.texts) := by
  funext l'
  by_cases h : l' = l
  · subst h
    simp [texts]
  · simp [texts, Function.update_of_ne h]

theorem texts_put (mode : LoadMode) (c : Contents) (x : Locale × Entries) :
    (c.put mode x).texts = c.texts.put mode x := by
  rw [put, texts_update, TextMap.put, ← texts_merged]
  rfl

/-- A load of contents is a load of their texts. -/
theorem texts_load (mode : LoadMode) (c : Contents) (x : Locale × Entries) :
    (load mode c x).toOption.map texts = c.texts.load? mode x := by
  have hc := toOption_index_eq_none_iff (c.merged x.1 x.2 mode)
  rw [texts_merged] at hc
  rw [load, TextMap.load?]
  cases hi : Bundle.index ∅ (c.merged x.1 x.2 mode).keys with
  | ok ids =>
    rw [hi] at hc
    rw [if_neg fun h => absurd (hc.2 h) (Option.some_ne_none ids)]
    exact congrArg some (texts_put mode c x)
  | error e =>
    rw [hi] at hc
    rw [if_pos (hc.1 rfl)]
    rfl

/-- Loads of contents are loads of their texts. -/
theorem texts_foldlM (mode : LoadMode) (loads : List (Locale × Entries)) (c : Contents) :
    (loads.foldlM (load mode) c).toOption.map texts =
      loads.foldlM (TextMap.load? mode) c.texts := by
  induction loads generalizing c with
  | nil => rfl
  | cons x rest ih =>
    rw [List.foldlM_cons, List.foldlM_cons, ← texts_load]
    cases load mode c x with
    | error e => rfl
    | ok c' => exact ih c'

end Contents

/-! ## runs -/

/-- The texts of a snapshot. -/
def Snapshot.texts (s : Snapshot) : TextMap := s.contents.texts

theorem Snapshot.texts_empty : empty.texts = fun _ => none := by
  rw [texts, contents_empty]
  rfl

namespace Catalog

/-- Staging bundles is a sequence of loads of texts. -/
theorem texts_stageAll (mode : LoadMode) (loads : List (Locale × Entries)) (s : Snapshot)
    (next : UInt64) :
    (stageAll s next mode loads).1.toOption.map (fun r => r.2.texts) =
      loads.foldlM (TextMap.load? mode) s.texts := by
  rw [Snapshot.texts, ← Contents.texts_foldlM, ← contents_stageAll mode loads s next]
  rcases stageAll s next mode loads with ⟨_ | _, _⟩ <;> rfl

/-- Loading bundles at once is a sequence of loads of texts, all or none; it fails when one
of them is refused. -/
theorem texts_loadMany (c : Catalog) (loads : List (Locale × Entries)) (mode : LoadMode) :
    (c.loadMany loads mode).2.snapshot.texts =
        (loads.foldlM (TextMap.load? mode) c.snapshot.texts).getD c.snapshot.texts ∧
      ((∃ err, (c.loadMany loads mode).1 = .error err) ↔
        loads.foldlM (TextMap.load? mode) c.snapshot.texts = none) := by
  rw [← texts_stageAll mode loads c.snapshot c.nextVersion, loadMany]
  rcases stageAll c.snapshot c.nextVersion mode loads with ⟨err | r, next⟩
  · simp [Except.toOption]
  · simp [Except.toOption]

/-- The texts after a call are those of the reference, and the call fails when the reference
refuses it. -/
theorem texts_perform (c : Catalog) (op : Operation) :
    (c.perform op).snapshot.texts = c.snapshot.texts.after op ∧
      (c.Fails op ↔ c.snapshot.texts.after? op = none) := by
  cases op with
  | load l entries mode =>
    obtain ⟨ht, hf⟩ := texts_loadMany c [(l, entries)] mode
    rw [loadMany_singleton, List.foldlM_cons] at ht hf
    simp only [List.foldlM_nil, bind_pure] at ht hf
    refine ⟨ht, ?_⟩
    rw [Fails, TextMap.after?, ← hf]
    cases (c.load l entries mode).1 <;> simp [Except.map]
  | loadMany loads mode => exact texts_loadMany c loads mode
  | remove l =>
    have hs : (c.remove l).2.snapshot.texts = Function.update c.snapshot.texts l none := by
      rw [remove]
      by_cases hl : (c.snapshot.bundle? l).isSome
      · rw [if_pos hl, Snapshot.texts, Snapshot.contents_erase, Contents.texts_update]
        rfl
      · have hn : c.snapshot.texts l = none := by
          rw [Snapshot.texts, Contents.texts, Snapshot.contents,
            Option.not_isSome_iff_eq_none.1 hl]
          rfl
        rw [if_neg hl, ← hn, Function.update_eq_self]
    exact ⟨hs, by simp [Fails, TextMap.after?]⟩
  | clear => exact ⟨Snapshot.texts_empty, by simp [Fails, TextMap.after?]⟩

/-- The texts after a run are those of the reference. -/
theorem texts_run (c : Catalog) (ops : List Operation) :
    (c.run ops).snapshot.texts = ops.foldl TextMap.after c.snapshot.texts := by
  induction ops generalizing c with
  | nil => rfl
  | cons op ops ih => rw [run_cons, ih, (texts_perform c op).1, List.foldl_cons]

/-- Through every run of a catalog its texts are those of the reference, and a call fails
exactly when the reference refuses it.  Loading several bundles at once gives the versions
and the catalog, or the first error, of loading them one after the other; when it fails
it publishes nothing. -/
theorem texts_run_eq_reference (ops : List Operation) :
    (empty.run ops).snapshot.texts = ops.foldl TextMap.after (fun _ => none) ∧
      (∀ op, (empty.run ops).Fails op ↔
        (ops.foldl TextMap.after fun _ => none).after? op = none) ∧
      ∀ (c : Catalog) (loads : List (Locale × Entries)) (mode : LoadMode),
        c.loadMany loads mode =
          match c.loadEach mode loads with
          | (.ok versions, c') => (.ok versions, c')
          | (.error err, c') => (.error err, { c' with snapshot := c.snapshot }) := by
  have he : empty.snapshot.texts = fun _ => none := by
    rw [empty, Snapshot.texts, Snapshot.contents_empty]
    rfl
  have hr : (empty.run ops).snapshot.texts = ops.foldl TextMap.after fun _ => none := by
    rw [texts_run, he]
  refine ⟨hr, fun op => ?_, loadMany_eq_loadEach⟩
  rw [← hr]
  exact (texts_perform _ op).2

end Catalog

end Phrasebook
