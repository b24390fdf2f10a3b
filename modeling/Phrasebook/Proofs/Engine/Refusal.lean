import Phrasebook.Proofs.Catalog.Texts
import Phrasebook.Proofs.Engine.Run
import Phrasebook.Proofs.Evaluation.Choices

/-!
# Phrasebook.Proofs.Engine.Refusal

Which loads are refused, and what the others do.

A load goes through three stages.  What a loader hands over may be an error; an entry may be
faulty, with an empty key or a choice that has no branch for `other`; and two keys of
a locale may share their identifier once the entries are merged with what the locale has.
The last is judged bundle by bundle, each against what the earlier ones of the same call
make of the catalog.  A load fails for one of these reasons (`Refuses`), and for no
other (`fails_iff_refuses`).  It has used up versions at most (`Fails.perform_eq`), although
bundles may have been staged before the one that fails.

Any other load is made by the catalog (`load_eq_ok`, `loadFrom_eq_ok`) and puts what it is
given (`contents_of_load_eq_ok`, `contents_of_loadFrom_eq_ok`).
-/

namespace Phrasebook

namespace TextMap

theorem load?_eq_none_iff (mode : LoadMode) (m : TextMap) (x : Locale × Entries) :
    m.load? mode x = none ↔ (m.merged x.1 x.2.texts mode).Collide := by
  rw [load?]
  split
  · next h => exact iff_of_true rfl h
  · next h => exact iff_of_false (Option.some_ne_none _) h

/-- Loads are refused when one of them meets two keys that share their identifier, the
earlier ones being made. -/
theorem foldlM_load?_eq_none_iff {β : Type} (mode : LoadMode) (f : β → Locale × Entries)
    (xs : List β) (m : TextMap) :
    xs.foldlM (fun m x => m.load? mode (f x)) m = none ↔
      ∃ before x after, xs = before ++ x :: after ∧
        ((before.foldl (fun m x => m.put mode (f x)) m).merged (f x).1 (f x).2.texts mode).Collide := by
  induction xs generalizing m with
  | nil => simp
  | cons x xs ih =>
    rw [List.foldlM_cons, load?]
    by_cases hx : (m.merged (f x).1 (f x).2.texts mode).Collide
    · rw [if_pos hx]
      exact iff_of_true rfl ⟨[], x, xs, rfl, hx⟩
    · rw [if_neg hx]
      change xs.foldlM _ (m.put mode (f x)) = none ↔ _
      rw [ih]
      constructor
      · rintro ⟨before, y, after, rfl, hy⟩
        exact ⟨x :: before, y, after, rfl, hy⟩
      · rintro ⟨before, y, after, he, hy⟩
        cases before with
        | nil =>
          cases he
          exact absurd hy hx
        | cons z before =>
          cases he
          exact ⟨before, y, after, rfl, hy⟩

end TextMap

namespace Engine

/-! ## checks -/

theorem error?_parse_eq_none_iff (raw : String) :
    (Template.parse raw).error? = none ↔ (Template.parse raw).tree.HasOthers := by
  rw [Template.tree_parse]
  exact Template.error?_eq_none_iff _

/-- An entry that no load accepts: its key is empty, or a choice of its template has no
branch for `other`. -/
def Faulty (x : String × String) : Prop := x.1 = "" ∨ ¬ (Template.parse x.2).tree.HasOthers

/-- Entries pass the checks unless one is faulty; of two for one key the later stays. -/
theorem checkedFrom_cases (l : Locale) (entries : List (String × String)) (x : Entries) :
    ((∃ y ∈ entries, Faulty y) ∧ ∃ err, checkedFrom l x entries = .error err) ∨
      ((∀ y ∈ entries, ¬ Faulty y) ∧
        checkedFrom l x entries = .ok (entries.foldl (fun m y => m.insert y.1 y.2) x)) := by
  induction entries generalizing x with
  | nil => exact .inr ⟨by simp, rfl⟩
  | cons y rest ih =>
    obtain ⟨key, raw⟩ := y
    rw [checkedFrom]
    by_cases hk : key = ""
    · rw [if_pos hk]
      exact .inl ⟨⟨_, List.mem_cons_self, .inl hk⟩, _, rfl⟩
    · rw [if_neg hk]
      have ho := error?_parse_eq_none_iff raw
      cases he : (Template.parse raw).error? with
      | some err =>
        have hn : ¬ (Template.parse raw).tree.HasOthers := fun h => by
          rw [ho.2 h] at he
          cases he
        exact .inl ⟨⟨_, List.mem_cons_self, .inr hn⟩, _, rfl⟩
      | none =>
        have hf : ¬ Faulty (key, raw) := by
          rintro (h | h)
          · exact hk h
          · exact h (ho.1 he)
        obtain ⟨⟨y, hy, hyf⟩, herr⟩ | ⟨hr, hok⟩ := ih (x.insert key raw)
        · exact .inl ⟨⟨y, List.mem_cons_of_mem _ hy, hyf⟩, herr⟩
        · exact .inr ⟨List.forall_mem_cons.2 ⟨hf, hr⟩, hok⟩

theorem checked_cases (l : Locale) (entries : List (String × String)) :
    ((∃ y ∈ entries, Faulty y) ∧ ∃ err, checked l entries = .error err) ∨
      ((∀ y ∈ entries, ¬ Faulty y) ∧ checked l entries = .ok (.ofList entries)) :=
  checkedFrom_cases l entries ∅

theorem checkedAll_cons (b : BundleSource) (rest : List BundleSource) :
    checkedAll (b :: rest) = (checked b.locale b.entries.toList).bind fun x =>
      (checkedAll rest).map fun xs => (b.locale, x) :: xs := by
  rw [checkedAll, List.mapM_cons, ← checkedAll]
  cases checked b.locale b.entries.toList with
  | error err => rfl
  | ok x => cases checkedAll rest <;> rfl

/-- Bundles pass the checks unless an entry of one is faulty. -/
theorem checkedAll_cases (bundles : List BundleSource) :
    ((∃ b ∈ bundles, ∃ y ∈ b.entries.toList, Faulty y) ∧
        ∃ err, checkedAll bundles = .error err) ∨
      ((∀ b ∈ bundles, ∀ y ∈ b.entries.toList, ¬ Faulty y) ∧
        checkedAll bundles =
          .ok (bundles.map fun b => (b.locale, .ofList b.entries.toList))) := by
  induction bundles with
  | nil => exact .inr ⟨by simp, rfl⟩
  | cons b rest ih =>
    rw [checkedAll_cons]
    obtain ⟨hf, err, he⟩ | ⟨hb, hok⟩ := checked_cases b.locale b.entries.toList
    · rw [he]
      exact .inl ⟨⟨b, List.mem_cons_self, hf⟩, err, rfl⟩
    · rw [hok]
      obtain ⟨⟨b', hb', hf⟩, err, he⟩ | ⟨hr, hrok⟩ := ih
      · rw [he]
        exact .inl ⟨⟨b', List.mem_cons_of_mem _ hb', hf⟩, err, rfl⟩
      · rw [hrok]
        exact .inr ⟨List.forall_mem_cons.2 ⟨hb, hr⟩, rfl⟩

/-! ## succeeding -/

/-- Templates that a load answers a number for have passed the checks and are loaded by the
catalog. -/
theorem load_eq_ok {e e' : Engine} {l : Locale} {entries : List (String × String)}
    {mode : LoadMode} {n : Nat} (h : e.load l entries mode = (.ok n, e')) :
    ∃ version catalog, e.catalog.load l (.ofList entries) mode = (.ok version, catalog) ∧
      n = (Entries.ofList entries).size ∧ e' = { e with catalog }.invalidate [l] := by
  rw [load] at h
  obtain ⟨-, err, he⟩ | ⟨-, hok⟩ := checked_cases l entries
  · rw [he] at h
    cases h
  rw [hok] at h
  dsimp only at h
  rcases hl : e.catalog.load l (.ofList entries) mode with ⟨err | version, catalog⟩
  · rw [hl] at h
    cases h
  · rw [hl] at h
    cases h
    exact ⟨version, catalog, rfl, rfl, rfl⟩

/-- A load of several bundles that answers a number got them from its loader; they have passed the
checks and are loaded by the catalog, all of them. -/
theorem loadFrom_eq_ok {e e' : Engine} {loaded : Except LoadError (List BundleSource)}
    {mode : LoadMode} {n : Nat} (h : e.loadFrom loaded mode = (.ok n, e')) :
    ∃ bundles versions catalog, loaded = .ok bundles ∧
      e.catalog.loadMany (bundles.map fun b => (b.locale, .ofList b.entries.toList)) mode =
        (.ok versions, catalog) ∧
      n = bundles.foldl (fun n b => n + b.entries.size) 0 ∧
      e' = { e with catalog }.invalidate (bundles.map BundleSource.locale) := by
  cases loaded with
  | error err => cases h
  | ok bundles =>
    rw [loadFrom, Except.bind] at h
    obtain ⟨-, err, he⟩ | ⟨-, hok⟩ := checkedAll_cases bundles
    · rw [he] at h
      cases h
    rw [hok] at h
    dsimp only at h
    rcases hl : e.catalog.loadMany (bundles.map fun b => (b.locale, .ofList b.entries.toList)) mode
      with ⟨err | versions, catalog⟩
    · rw [hl] at h
      cases h
    · rw [hl] at h
      obtain ⟨hn, rfl⟩ := Prod.mk.inj h
      have hsize : ∀ b : BundleSource, (Entries.ofList b.entries.toList).size = b.entries.size :=
        fun b => (Entries.ofList_toList_equiv b.entries).size_eq
      refine ⟨bundles, versions, catalog, rfl, hl, ?_, ?_⟩
      · rw [← Except.ok.inj hn, List.foldl_map]
        simp only [hsize]
      · rw [List.map_map]
        rfl

/-- A load that answers a number puts the entries that it is given. -/
theorem contents_of_load_eq_ok {e e' : Engine} {l : Locale} {entries : List (String × String)}
    {mode : LoadMode} {n : Nat} (h : e.load l entries mode = (.ok n, e')) :
    e'.catalog.snapshot.contents = e.catalog.snapshot.contents.put mode (l, .ofList entries) := by
  obtain ⟨version, catalog, hl, -, rfl⟩ := load_eq_ok h
  have hm : e.catalog.loadMany [(l, .ofList entries)] mode = (.ok [version], catalog) := by
    rw [Catalog.loadMany_singleton, hl]
    rfl
  exact Catalog.contents_of_loadMany_eq_ok hm

/-- A load of several bundles that answers a number puts the entries of one after the other. -/
theorem contents_of_loadFrom_eq_ok {e e' : Engine} {bundles : List BundleSource}
    {mode : LoadMode} {n : Nat} (h : e.loadFrom (.ok bundles) mode = (.ok n, e')) :
    e'.catalog.snapshot.contents =
      bundles.foldl (fun c b => c.put mode (b.locale, .ofList b.entries.toList))
        e.catalog.snapshot.contents := by
  obtain ⟨_, versions, catalog, hb, hl, -, rfl⟩ := loadFrom_eq_ok h
  cases hb
  have hc := Catalog.contents_of_loadMany_eq_ok hl
  rw [List.foldl_map] at hc
  exact hc

/-! ## failing -/

/-- An operation answers with an error. -/
def Fails (e : Engine) : Operation → Prop
  | .load l entries mode => ∃ err, (e.load l entries mode).1 = .error err
  | .loadFrom loaded mode => ∃ err, (e.loadFrom loaded mode).1 = .error err
  | .unload _ | .setDefault _ | .setActive _ | .query _ => False

/-- What there is against a load, given the texts that are there: a faulty entry, or two keys of a
bundle that share their identifier as it is merged; for bundles of a loader also its
error. -/
def Refuses (m : TextMap) : Operation → Prop
  | .load l entries mode =>
    (∃ y ∈ entries, Faulty y) ∨ (m.merged l (Entries.ofList entries).texts mode).Collide
  | .loadFrom (.error _) _ => True
  | .loadFrom (.ok bundles) mode =>
    (∃ b ∈ bundles, ∃ y ∈ b.entries.toList, Faulty y) ∨
      ∃ before b after, bundles = before ++ b :: after ∧
        ((before.foldl (fun m b => m.put mode (b.locale, b.entries)) m).merged b.locale
          b.entries.texts mode).Collide
  | .unload _ | .setDefault _ | .setActive _ | .query _ => False

/-- Bundles as a loader has them are refused when they are as they pass the checks. -/
theorem foldlM_checkedAll (mode : LoadMode) (bundles : List BundleSource) (m : TextMap) :
    (bundles.map fun b => (b.locale, Entries.ofList b.entries.toList)).foldlM (TextMap.load? mode) m =
      bundles.foldlM (fun m b => m.load? mode (b.locale, b.entries)) m := by
  rw [List.foldlM_map]
  congr 1
  funext m b
  unfold TextMap.load? TextMap.put
  dsimp only
  rw [Entries.texts_ofList_toList]

/-- A load fails when there is something against it, and only then. -/
theorem fails_iff_refuses (e : Engine) (op : Operation) :
    e.Fails op ↔ Refuses e.catalog.snapshot.texts op := by
  cases op with
  | load l entries mode =>
    rw [Fails, Refuses, load]
    obtain ⟨hf, err, he⟩ | ⟨hn, hok⟩ := checked_cases l entries
    · rw [he]
      exact iff_of_true ⟨err, rfl⟩ (.inl hf)
    · have hc := (Catalog.texts_perform e.catalog (.load l (.ofList entries) mode)).2
      have hnf : ¬ ∃ y ∈ entries, Faulty y := by simpa using hn
      rw [Catalog.Fails, TextMap.after?, TextMap.load?_eq_none_iff] at hc
      rw [hok, or_iff_right hnf, ← hc]
      rcases h : e.catalog.load l (.ofList entries) mode with ⟨err | version, catalog⟩
      · simp [h]
      · simp [h]
  | loadFrom loaded mode =>
    cases loaded with
    | error err => exact iff_of_true ⟨err, rfl⟩ trivial
    | ok bundles =>
      rw [Fails, Refuses, loadFrom]
      obtain ⟨hf, err, he⟩ | ⟨hn, hok⟩ := checkedAll_cases bundles
      · rw [Except.bind, he]
        exact iff_of_true ⟨err, rfl⟩ (.inl hf)
      · have hc := (Catalog.texts_loadMany e.catalog
          (bundles.map fun b => (b.locale, .ofList b.entries.toList)) mode).2
        have hnf : ¬ ∃ b ∈ bundles, ∃ y ∈ b.entries.toList, Faulty y := by simpa using hn
        rw [foldlM_checkedAll, TextMap.foldlM_load?_eq_none_iff mode
          (fun b : BundleSource => (b.locale, b.entries))] at hc
        rw [Except.bind, hok, or_iff_right hnf, ← hc]
        dsimp only
        rcases h : e.catalog.loadMany
          (bundles.map fun b => (b.locale, .ofList b.entries.toList)) mode
          with ⟨err | versions, catalog⟩
        · simp [h]
        · simp [h]
  | unload l => exact Iff.rfl
  | setDefault l => exact Iff.rfl
  | setActive l => exact Iff.rfl
  | query q => exact Iff.rfl

/-- An operation that fails uses up versions at most. -/
theorem Fails.perform_eq {e : Engine} {op : Operation} (h : e.Fails op) :
    ∃ n, e.perform op = { e with catalog := { e.catalog with nextVersion := n } } := by
  cases op with
  | load l entries mode =>
    obtain ⟨err, h⟩ := h
    rw [perform]
    unfold load Catalog.load at h ⊢
    cases hc : checked l entries with
    | error err => exact ⟨e.catalog.nextVersion, rfl⟩
    | ok x =>
      rw [hc] at h
      dsimp only at h ⊢
      cases hs : Catalog.stage e.catalog.snapshot e.catalog.nextVersion l x mode with
      | error err => exact ⟨e.catalog.nextVersion + 1, rfl⟩
      | ok s =>
        rw [hs] at h
        cases h
  | loadFrom loaded mode =>
    obtain ⟨err, h⟩ := h
    rw [perform]
    unfold loadFrom Catalog.loadMany at h ⊢
    cases hc : loaded.bind checkedAll with
    | error err => exact ⟨e.catalog.nextVersion, rfl⟩
    | ok loads =>
      rw [hc] at h
      dsimp only at h ⊢
      rcases hs : Catalog.stageAll e.catalog.snapshot e.catalog.nextVersion mode loads
        with ⟨err | r, n⟩
      · exact ⟨n, rfl⟩
      · rw [hs] at h
        cases h
  | unload l => exact h.elim
  | setDefault l => exact h.elim
  | setActive l => exact h.elim
  | query q => exact h.elim

end Engine

end Phrasebook
