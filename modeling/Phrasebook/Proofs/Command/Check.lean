import Phrasebook.Command.Check
import Phrasebook.Proofs.Catalog.Identifiers
import Phrasebook.Proofs.Engine.Refusal

/-!
# Phrasebook.Proofs.Command.Check

What a check that passes says about loading.

A check without a source reads the bundle of every file and looks at its templates; it
passes when every bundle is read and every choice has a branch for `other`
(`CheckOptions.passes_iff`).  A load looks at the keys as well.  So the bundle of a file
that passes is loaded unless its keys are against it: unless one is empty, or two
share their identifier (`load_of_passes`).
-/

namespace Phrasebook

/-! ## entries with valid templates -/

namespace Entries

/-- Every choice of every template has a branch for `other`. -/
def TemplatesValid (x : Entries) : Prop :=
  ∀ (key raw : String), x[key]? = some raw → (Template.parse raw).tree.HasOthers

theorem TemplatesValid.of_mem_toList {x : Entries} (h : x.TemplatesValid) :
    ∀ y ∈ x.toList, (Template.parse y.2).tree.HasOthers := fun y hy =>
  h y.1 y.2 (Std.TreeMap.mem_toList_iff_getElem?_eq_some.1 hy)

theorem exists_mem_toList_iff (x : Entries) (key : String) :
    (∃ y ∈ x.toList, y.1 = key) ↔ key ∈ x := by
  rw [← Std.TreeMap.mem_keys, ← Std.TreeMap.map_fst_toList_eq_keys, List.mem_map]

end Entries

/-- Diagnostics of the entries of a file are diagnostics of its templates. -/
theorem Diagnostic.ofEntries_eq_nil_iff (content : String) (x : Entries) :
    ofEntries content x = [] ↔ x.TemplatesValid := by
  rw [ofEntries, List.filterMap_eq_nil_iff]
  simp only [Option.map_eq_none_iff, Engine.error?_parse_eq_none_iff]
  constructor
  · intro h key raw hr
    exact h (key, raw) (Std.TreeMap.mem_toList_iff_getElem?_eq_some.2 hr)
  · exact fun h => h.of_mem_toList

/-! ## loading -/

namespace Engine

/-- What loading entries of valid templates in place of all others gives: the keys decide. -/
structure DecidedByKeys (l : Locale) (x : Entries) (r : Except LoadError Nat) : Prop where
  emptyKey : "" ∈ x → r = .error (.emptyKey l.tag)
  idCollision : "" ∉ x → x.texts.Collide →
    ∃ first second, r = .error (.idCollision l.tag first second) ∧
      first ≠ second ∧ first ∈ x ∧ second ∈ x ∧
      MessageId.ofKey first = MessageId.ofKey second
  loaded : "" ∉ x → ¬ x.texts.Collide → r = .ok x.size

theorem DecidedByKeys.error_iff {l : Locale} {x : Entries} {r : Except LoadError Nat}
    (h : DecidedByKeys l x r) : (∃ err, r = .error err) ↔ "" ∈ x ∨ x.texts.Collide := by
  by_cases hk : "" ∈ x
  · exact iff_of_true ⟨_, h.emptyKey hk⟩ (.inl hk)
  by_cases hc : x.texts.Collide
  · obtain ⟨first, second, he, -⟩ := h.idCollision hk hc
    exact iff_of_true ⟨_, he⟩ (.inr hc)
  · simp [h.loaded hk hc, hk, hc]

/-- Of entries with valid templates only an empty key does not pass the checks. -/
theorem checkedFrom_of_hasOthers (l : Locale) {entries : List (String × String)}
    (h : ∀ y ∈ entries, (Template.parse y.2).tree.HasOthers) (x : Entries) :
    checkedFrom l x entries =
      if ∃ y ∈ entries, y.1 = "" then .error (.emptyKey l.tag)
      else .ok (entries.foldl (fun m y => m.insert y.1 y.2) x) := by
  induction entries generalizing x with
  | nil => rfl
  | cons y rest ih =>
    obtain ⟨key, raw⟩ := y
    obtain ⟨hy, hr⟩ := List.forall_mem_cons.1 h
    rw [checkedFrom, (error?_parse_eq_none_iff raw).2 hy]
    by_cases hk : key = ""
    · rw [if_pos hk, if_pos ⟨_, List.mem_cons_self, hk⟩]
    · have hc : (∃ y ∈ (key, raw) :: rest, y.1 = "") ↔ ∃ y ∈ rest, y.1 = "" := by
        simp [hk]
      rw [if_neg hk, List.foldl_cons, if_congr hc rfl rfl]
      exact ih hr _

/-- Entries of valid templates, loaded in place of all others: the keys decide. -/
theorem load_of_templatesValid (e : Engine) (l : Locale) {x : Entries} (h : x.TemplatesValid) :
    DecidedByKeys l x (e.load l x.toList .replaceAll).1 := by
  have hq := Entries.ofList_toList_equiv x
  have hchecked : checked l x.toList =
      if "" ∈ x then .error (.emptyKey l.tag) else .ok (.ofList x.toList) := by
    rw [checked, checkedFrom_of_hasOthers l h.of_mem_toList, ← Entries.ofList]
    simp only [Entries.exists_mem_toList_iff]
  rw [load, hchecked]
  by_cases hk : "" ∈ x
  · rw [if_pos hk]
    exact ⟨fun _ => rfl, fun hn => absurd hk hn, fun hn => absurd hk hn⟩
  rw [if_neg hk]
  dsimp only
  have hs : Catalog.stage e.catalog.snapshot e.catalog.nextVersion l (.ofList x.toList) .replaceAll =
      (Bundle.make l e.catalog.nextVersion (.ofList x.toList)).map
        (e.catalog.snapshot.insert l) := rfl
  have hm := Bundle.make_cases l e.catalog.nextVersion (.ofList x.toList)
  simp only [Entries.texts_ofList_toList, hq.mem_iff] at hm
  rw [Catalog.load, hs]
  obtain ⟨hc, b, hb⟩ | ⟨hc, first, second, hb, hids⟩ := hm
  · rw [hb]
    exact ⟨fun h => absurd h hk, fun _ h => absurd h hc, fun _ _ => congrArg _ hq.size_eq⟩
  · rw [hb]
    exact ⟨fun h => absurd h hk, fun _ _ => ⟨first, second, rfl, hids⟩,
      fun _ h => absurd hc h⟩

end Engine

/-! ## checks that pass -/

namespace Command

/-- Answers for all elements of a list, all of one kind: each has such an answer. -/
theorem exists_mapM_ok_iff {ε α β : Type} {f : α → Except ε β} {p : β → Prop} (xs : List α) :
    (∃ ys, xs.mapM f = .ok ys ∧ ∀ y ∈ ys, p y) ↔ ∀ x ∈ xs, ∃ y, f x = .ok y ∧ p y := by
  induction xs with
  | nil => simp [pure, Except.pure]
  | cons x xs ih =>
    rw [List.mapM_cons, List.forall_mem_cons, ← ih]
    rcases f x with err | y
    · simp [bind, Except.bind]
    · rcases xs.mapM f with err | ys
      · simp [bind, Except.bind]
      · simp [bind, Except.bind, pure, Except.pure]

/-- No error is found in a file whose bundle is read and has valid templates. -/
theorem checkFile_eq_nil_iff (fs : Files) (path : String) :
    checkFile fs path = .ok [] ↔
      ∃ b, BundleSource.ofFile fs path = .ok b ∧ b.entries.TemplatesValid := by
  unfold checkFile
  cases hr : fs.read path with
  | error fault =>
    -- a bundle that is read is read from the content of the file
    have hb : ∀ b, BundleSource.ofFile fs path ≠ .ok b := by
      intro b h
      unfold BundleSource.ofFile at h
      rw [hr] at h
      split at h <;> cases h
    simp [hb]
  | ok content =>
    cases BundleSource.ofFile fs path with
    | error e => simp
    | ok b => simp [Diagnostic.ofEntries_eq_nil_iff]

namespace CheckOptions

/-- The check is finished and nothing is wrong. -/
def Passes (o : CheckOptions) (fs : Files) : Prop := ∃ out, o.run fs = .ok out ∧ out.code = okCode

instance (o : CheckOptions) (fs : Files) : Decidable (o.Passes fs) :=
  match h : o.run fs with
  | .error _ => .isFalse (by simp [Passes, h])
  | .ok out => decidable_of_iff (out.code = okCode) (by simp [Passes, h])

theorem map_code_run (o : CheckOptions) (fs : Files) :
    (o.run fs).map Output.code =
      (o.reports fs).map fun rs => if o.fails rs then dataCode else okCode := by
  rw [run]
  cases o.reports fs with
  | error e => rfl
  | ok rs =>
    cases hj : o.json with
    | false => rfl
    | true => rfl

/-- A check passes when all files are reported on and no report makes it fail. -/
theorem passes_iff_not_fails (o : CheckOptions) (fs : Files) :
    o.Passes fs ↔ ∃ rs, o.reports fs = .ok rs ∧ o.fails rs = false := by
  have hm := o.map_code_run fs
  have hcode : ∀ failing : Bool, (if failing then dataCode else okCode) = okCode ↔
      failing = false := by
    decide
  rw [Passes]
  generalize o.run fs = r at hm
  generalize o.reports fs = found at hm
  cases r with
  | error e =>
    cases found with
    | error e' => simp
    | ok rs => cases hm
  | ok out =>
    cases found with
    | error e' => cases hm
    | ok rs =>
      have hc : out.code = if o.fails rs then dataCode else okCode := Except.ok.inj hm
      simp [hc, hcode]

/-- A check without a source passes when the bundle of every file is read and has valid
templates. -/
theorem passes_iff (files : List String) (json : Bool) (fs : Files) :
    Passes ⟨files, none, json⟩ fs ↔
      ∀ path ∈ files, ∃ b, BundleSource.ofFile fs path = .ok b ∧ b.entries.TemplatesValid := by
  have hr : reports ⟨files, none, json⟩ fs = files.mapM (reportOn fs none) := rfl
  have hf : ∀ rs, fails ⟨files, none, json⟩ rs = false ↔ ∀ r ∈ rs, r.errors = [] := by
    intro rs
    simp [fails]
  have ho : ∀ path, (∃ r, reportOn fs none path = .ok r ∧ r.errors = []) ↔
      checkFile fs path = .ok [] := by
    intro path
    rw [reportOn]
    rcases checkFile fs path with e | errors
    · simp [bind, Except.bind]
    · simp [bind, Except.bind, pure, Except.pure]
  rw [passes_iff_not_fails, hr]
  simp only [hf, exists_mapM_ok_iff, ho, checkFile_eq_nil_iff]

/-- A check without a source passes when every bundle is read and has valid templates, whatever
its keys are.  Loading the bundle of a file that passes, in place of all others, then fails for
an empty key, and without one for two keys that share their identifier, and for nothing
else. -/
theorem load_of_passes (files : List String) (json : Bool) (fs : Files) :
    (Passes ⟨files, none, json⟩ fs ↔
      ∀ path ∈ files, ∃ b, BundleSource.ofFile fs path = .ok b ∧ b.entries.TemplatesValid) ∧
      (Passes ⟨files, none, json⟩ fs → ∀ path ∈ files, ∃ b, BundleSource.ofFile fs path = .ok b ∧
        ∀ e : Engine, Engine.DecidedByKeys b.locale b.entries
          (e.load b.locale b.entries.toList .replaceAll).1) := by
  refine ⟨passes_iff files json fs, fun hp path hm => ?_⟩
  obtain ⟨b, hb, hv⟩ := (passes_iff files json fs).1 hp path hm
  exact ⟨b, hb, fun e => e.load_of_templatesValid b.locale hv⟩

/-- A file with one key. -/
def keyed : Files := .ofList [("en.json", .text "\x7b\"a\":\"x\"\x7d")]

theorem load_of_passes_keyed :
    Passes ⟨["en.json"], none, false⟩ keyed ∧
      ∃ b, BundleSource.ofFile keyed "en.json" = .ok b ∧
        ∀ e : Engine, (e.load b.locale b.entries.toList .replaceAll).1 = .ok 1 := by
  have hp : Passes ⟨["en.json"], none, false⟩ keyed := by decide +kernel
  obtain ⟨b, hb, hl⟩ := (load_of_passes ["en.json"] false keyed).2 hp "en.json" (by simp)
  have hkeys : ((BundleSource.ofFile keyed "en.json").toOption.map fun b => b.entries.keys) =
      some ["a"] := by
    decide +kernel
  rw [hb] at hkeys
  have hk : b.entries.keys = ["a"] := Option.some.inj hkeys
  have hn : "" ∉ b.entries := by
    rw [← Std.TreeMap.mem_keys, hk]
    decide
  have hc : ¬ b.entries.texts.Collide := by
    rw [← toOption_index_eq_none_iff, hk]
    decide +kernel
  have hs : b.entries.size = 1 := by
    rw [← Std.TreeMap.length_keys, hk]
    rfl
  exact ⟨hp, b, hb, fun e => hs ▸ (hl e).loaded hn hc⟩

/-- A file with an empty key, and one with two keys that share their identifier. -/
def badlyKeyed : Files :=
  .ofList
    [("en.json", .text "\x7b\"\":\"x\"\x7d"),
      ("de.json", .text "\x7b\"AuHH3scoLSF\":\"x\",\"LLwCZu4z3qH\":\"y\"\x7d")]

/-- Files pass a check although the bundle of neither can be loaded. -/
theorem passes_badlyKeyed :
    Passes ⟨["en.json", "de.json"], none, false⟩ badlyKeyed ∧
      ∀ path ∈ ["en.json", "de.json"], ∃ b, BundleSource.ofFile badlyKeyed path = .ok b ∧
        ∀ e : Engine, ∃ err, (e.load b.locale b.entries.toList .replaceAll).1 = .error err := by
  have hp : Passes ⟨["en.json", "de.json"], none, false⟩ badlyKeyed := by decide +kernel
  refine ⟨hp, fun path hm => ?_⟩
  obtain ⟨b, hb, hv⟩ := (passes_iff _ _ _).1 hp path hm
  have hkeys : ∀ path ∈ ["en.json", "de.json"],
      ((BundleSource.ofFile badlyKeyed path).toOption.all fun b =>
        b.entries.contains "" || (Bundle.index ∅ b.entries.keys).toOption.isNone) = true := by
    decide +kernel
  have hk := hkeys path hm
  rw [hb, Except.toOption, Option.all_some, Bool.or_eq_true, Std.TreeMap.contains_iff_mem,
    Option.isNone_iff_eq_none, toOption_index_eq_none_iff] at hk
  exact ⟨b, hb, fun e => (e.load_of_templatesValid b.locale hv).error_iff.2 hk⟩

end CheckOptions

end Command

end Phrasebook
