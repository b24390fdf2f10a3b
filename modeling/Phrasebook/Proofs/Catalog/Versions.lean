import Mathlib.Data.List.Nodup
import Phrasebook.Proofs.Catalog.Contents
import Phrasebook.Proofs.Catalog.Run

/-!
# Phrasebook.Proofs.Catalog.Versions

The versions of bundles.

Every bundle that is staged takes the next version, the one that fails as well as the ones
that are dropped because of it.  The history of a run lists all of them (`history`), so
their versions are counted up from the first (`version_history`); a run that stages fewer
than 2^64 bundles does not come around, and versions ascend (`history_ascending`).  Readers
only ever see bundles of the history (`exists_history_of_published`), hence the version of a
published bundle tells which one it is (`published_unique`).
-/

namespace Phrasebook.Catalog

/-! ## counting -/

/-- Versions counted up from one of them. -/
def counted (first : UInt64) (n : Nat) : List UInt64 :=
  (List.range n).map fun i => first + UInt64.ofNat i

theorem counted_add (first : UInt64) (m n : Nat) :
    counted first (m + n) = counted first m ++ counted (first + UInt64.ofNat m) n := by
  simp [counted, List.range_add, UInt64.add_assoc, Function.comp_def]

/-- Counting does not come around within 64 bits. -/
theorem toNat_counted {first : UInt64} {n : Nat} (h : first.toNat + n ≤ UInt64.size) :
    (counted first n).map UInt64.toNat = List.range' first.toNat n := by
  rw [counted, List.map_map, List.range'_eq_map_range]
  refine List.map_congr_left fun i hi => ?_
  have hn := List.mem_range.1 hi
  rw [UInt64.size] at h
  simp only [Function.comp_apply, UInt64.toNat_add, UInt64.toNat_ofNat']
  omega

theorem counted_ascending {first : UInt64} {n : Nat} (h : first.toNat + n ≤ UInt64.size) :
    (counted first n).Pairwise (· < ·) := by
  have hr : (List.range' first.toNat n).Pairwise (· < ·) := List.pairwise_lt_range'
  rw [← toNat_counted h, List.pairwise_map] at hr
  exact hr

/-! ## what is staged -/

/-- A bundle to make: its locale, the version it takes and all that the locale is to have. -/
structure Staging where
  locale : Locale
  version : UInt64
  entries : Entries

/-- The bundle that is staged, unless two of its keys have one identifier. -/
def Staging.make (x : Staging) : Except LoadError Bundle :=
  Bundle.make x.locale x.version x.entries

/-- The bundles that loads stage one after the other, the first that fails being the last. -/
def stagings (s : Snapshot) (next : UInt64) (mode : LoadMode) :
    List (Locale × Entries) → List Staging
  | [] => []
  | (l, entries) :: rest =>
    ⟨l, next, merged s l entries mode⟩ ::
      match stage s next l entries mode with
      | .error _ => []
      | .ok s => stagings s (next + 1) mode rest

/-- The bundles that a call stages. -/
def staged (c : Catalog) : Operation → List Staging
  | .load l entries mode => stagings c.snapshot c.nextVersion mode [(l, entries)]
  | .loadMany loads mode => stagings c.snapshot c.nextVersion mode loads
  | .remove _ | .clear => []

/-- The bundles that a run stages, failed loads included. -/
def history (c : Catalog) : List Operation → List Staging
  | [] => []
  | op :: ops => c.staged op ++ (c.perform op).history ops

/-- A bundle that readers see after some of the calls of a run. -/
def Published (ops : List Operation) (b : Bundle) : Prop :=
  ∃ (before after : List Operation) (tag : String), ops = before ++ after ∧
    (empty.run before).snapshot.bundles[tag]? = some b

theorem history_append (c : Catalog) (before after : List Operation) :
    c.history (before ++ after) = c.history before ++ (c.run before).history after := by
  induction before generalizing c with
  | nil => rfl
  | cons op before ih => rw [List.cons_append, history, history, ih, List.append_assoc, run_cons]

/-! ## versions -/

/-- Staging a bundle is making it. -/
theorem stage_eq_make (s : Snapshot) (version : UInt64) (l : Locale) (entries : Entries)
    (mode : LoadMode) :
    stage s version l entries mode =
      (Staging.make ⟨l, version, merged s l entries mode⟩).map (s.insert l) := rfl

theorem stagings_cons_of_ok {s s' : Snapshot} {next : UInt64} {l : Locale} {entries : Entries}
    {mode : LoadMode} (h : stage s next l entries mode = .ok s') (rest : List (Locale × Entries)) :
    stagings s next mode ((l, entries) :: rest) =
      ⟨l, next, merged s l entries mode⟩ :: stagings s' (next + 1) mode rest := by
  rw [stagings, h]

/-- The versions of the bundles that are staged are counted up from the next one, and the
next one is what follows. -/
theorem version_stagings (mode : LoadMode) (loads : List (Locale × Entries)) (s : Snapshot)
    (next : UInt64) :
    (stagings s next mode loads).map Staging.version =
        counted next (stagings s next mode loads).length ∧
      (stageAll s next mode loads).2 =
        next + UInt64.ofNat (stagings s next mode loads).length := by
  induction loads generalizing s next with
  | nil => simp [stagings, stageAll, counted]
  | cons x rest ih =>
    obtain ⟨l, entries⟩ := x
    cases hst : stage s next l entries mode with
    | error e => simp [stagings, stageAll, hst, counted]
    | ok s' =>
      obtain ⟨hv, hn⟩ := ih s' (next + 1)
      rw [stageAll_cons_of_ok hst, stagings_cons_of_ok hst, List.map_cons, hv, hn,
        List.length_cons, Nat.add_comm, counted_add, UInt64.ofNat_add, ← UInt64.add_assoc]
      exact ⟨by simp [counted], rfl⟩

/-- A call stages bundles of consecutive versions. -/
theorem version_staged (c : Catalog) (op : Operation) :
    (c.staged op).map Staging.version = counted c.nextVersion (c.staged op).length ∧
      (c.perform op).nextVersion = c.nextVersion + UInt64.ofNat (c.staged op).length := by
  have hm : ∀ loads mode, (c.loadMany loads mode).2.nextVersion =
      (stageAll c.snapshot c.nextVersion mode loads).2 := by
    intro loads mode
    rw [loadMany]
    rcases stageAll c.snapshot c.nextVersion mode loads with ⟨_ | _, _⟩ <;> rfl
  cases op with
  | load l entries mode =>
    have hl := hm [(l, entries)] mode
    rw [loadMany_singleton] at hl
    rw [perform, hl]
    exact version_stagings mode [(l, entries)] c.snapshot c.nextVersion
  | loadMany loads mode =>
    rw [perform, hm]
    exact version_stagings mode loads c.snapshot c.nextVersion
  | remove l =>
    have hn : (c.remove l).2.nextVersion = c.nextVersion := by
      unfold remove
      split <;> rfl
    simp [staged, counted, perform, hn]
  | clear => simp [staged, counted, perform, clear]

/-- The versions of a run are counted up. -/
theorem version_history (c : Catalog) (ops : List Operation) :
    (c.history ops).map Staging.version = counted c.nextVersion (c.history ops).length := by
  induction ops generalizing c with
  | nil => rfl
  | cons op ops ih =>
    obtain ⟨hv, hn⟩ := version_staged c op
    rw [history, List.map_append, hv, ih, hn, List.length_append, counted_add]

/-- The versions of a run that stages fewer than 2^64 bundles ascend. -/
theorem history_ascending {ops : List Operation} (h : (empty.history ops).length < UInt64.size) :
    ((empty.history ops).map Staging.version).Pairwise (· < ·) := by
  have h1 : empty.nextVersion.toNat = 1 := rfl
  rw [version_history]
  exact counted_ascending (by omega)

/-! ## published bundles -/

/-- Every bundle of a snapshot was staged. -/
def Stems (s : Snapshot) (xs : List Staging) : Prop :=
  ∀ (tag : String) (b : Bundle), s.bundles[tag]? = some b → ∃ x ∈ xs, x.make = .ok b

theorem Stems.mono {s : Snapshot} {xs ys : List Staging} (h : Stems s xs) (hs : xs ⊆ ys) :
    Stems s ys := by
  intro tag b hb
  obtain ⟨x, hx, hm⟩ := h tag b hb
  exact ⟨x, hs hx, hm⟩

theorem Stems.insert {s : Snapshot} {xs : List Staging} (h : Stems s xs) {x : Staging} {b : Bundle}
    (hb : x.make = .ok b) (l : Locale) : Stems (s.insert l b) (x :: xs) := by
  intro tag b' hb'
  obtain ⟨-, rfl⟩ | ⟨-, hb'⟩ := getElem?_insert_cases hb'
  · exact ⟨x, List.mem_cons_self, hb⟩
  · exact h.mono (List.subset_cons_self x xs) tag b' hb'

/-- Staging bundles leaves old ones and ones that were staged. -/
theorem Stems.stageAll {mode : LoadMode} {loads : List (Locale × Entries)} {s s' : Snapshot}
    {next last : UInt64} {versions : List UInt64} {xs : List Staging} (hs : Stems s xs)
    (h : stageAll s next mode loads = (.ok (versions, s'), last)) :
    Stems s' (xs ++ stagings s next mode loads) := by
  induction loads generalizing s next versions xs with
  | nil =>
    cases h
    exact hs.mono (List.subset_append_left _ _)
  | cons x rest ih =>
    obtain ⟨l, entries⟩ := x
    have hst := stage_eq_make s next l entries mode
    cases hb : Staging.make ⟨l, next, merged s l entries mode⟩ with
    | error e =>
      rw [hb] at hst
      rw [Catalog.stageAll, hst] at h
      cases h
    | ok b =>
      rw [hb] at hst
      rw [stageAll_cons_of_ok hst] at h
      rw [stagings_cons_of_ok hst]
      rcases hr : Catalog.stageAll (s.insert l b) (next + 1) mode rest with ⟨err | r, last'⟩
      · rw [hr] at h
        cases h
      · rw [hr] at h
        cases h
        refine (ih (hs.insert hb l) hr).mono ?_
        simp

theorem Stems.loadMany {c : Catalog} {xs : List Staging} (hs : Stems c.snapshot xs)
    (loads : List (Locale × Entries)) (mode : LoadMode) :
    Stems (c.loadMany loads mode).2.snapshot
      (xs ++ stagings c.snapshot c.nextVersion mode loads) := by
  rw [Catalog.loadMany]
  rcases h : Catalog.stageAll c.snapshot c.nextVersion mode loads with ⟨err | r, next⟩
  · exact hs.mono (List.subset_append_left _ _)
  · exact hs.stageAll h

/-- A call leaves bundles that were there and ones that it stages. -/
theorem Stems.perform {c : Catalog} {xs : List Staging} (hs : Stems c.snapshot xs)
    (op : Operation) : Stems (c.perform op).snapshot (xs ++ c.staged op) := by
  cases op with
  | load l entries mode =>
    have h := hs.loadMany [(l, entries)] mode
    rw [loadMany_singleton] at h
    exact h
  | loadMany loads mode => exact hs.loadMany loads mode
  | remove l =>
    rw [staged, List.append_nil, Catalog.perform, remove]
    split
    · intro tag b hb
      exact hs tag b (getElem?_erase_cases hb).2
    · exact hs
  | clear =>
    intro tag b hb
    rw [Catalog.perform, Catalog.clear, Snapshot.empty, Std.TreeMap.getElem?_emptyc] at hb
    cases hb

/-- The bundles after a run were there or were staged by it. -/
theorem Stems.run {c : Catalog} {xs : List Staging} (hs : Stems c.snapshot xs)
    (ops : List Operation) : Stems (c.run ops).snapshot (xs ++ c.history ops) := by
  induction ops generalizing c xs with
  | nil => exact hs.mono (List.subset_append_left _ _)
  | cons op ops ih =>
    rw [run_cons, history, ← List.append_assoc]
    exact ih (hs.perform op)

/-- What readers see was staged. -/
theorem exists_history_of_published {ops : List Operation} {b : Bundle} (h : Published ops b) :
    ∃ x ∈ empty.history ops, x.make = .ok b := by
  obtain ⟨before, after, tag, rfl, hb⟩ := h
  have hs : Stems empty.snapshot [] := by
    intro tag b hb
    rw [empty, Snapshot.empty, Std.TreeMap.getElem?_emptyc] at hb
    cases hb
  obtain ⟨x, hx, hm⟩ := hs.run before tag b hb
  rw [history_append]
  exact ⟨x, List.mem_append_left _ hx, hm⟩

/-- In a run that stages fewer than 2^64 bundles, published bundles of one version are
the same. -/
theorem published_unique {ops : List Operation} (h : (empty.history ops).length < UInt64.size)
    {b b' : Bundle} (hb : Published ops b) (hb' : Published ops b')
    (hv : b.version = b'.version) : b = b' := by
  obtain ⟨x, hx, hm⟩ := exists_history_of_published hb
  obtain ⟨x', hx', hm'⟩ := exists_history_of_published hb'
  have hd : ((empty.history ops).map Staging.version).Nodup :=
    (history_ascending h).imp fun hlt => UInt64.ne_of_lt hlt
  have hxv : x.version = x'.version := by
    rw [← (Bundle.make_eq_ok hm).2.1, ← (Bundle.make_eq_ok hm').2.1, hv]
  obtain rfl : x = x' := List.inj_on_of_nodup_map hd hx hx' hxv
  exact Except.ok.inj (hm.symm.trans hm')

end Phrasebook.Catalog
