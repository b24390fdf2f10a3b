import Phrasebook.Catalog

/-!
# Phrasebook.Proofs.Catalog.Run

Runs of a catalog, and its two ways of loading several bundles.

Loading bundles at once stages them one after the other against a working copy; loading
them by one call each publishes every step.  As long as no bundle fails the two are the
same, versions included; when one fails the first error is the same, and so are the
versions used up, but loading at once publishes nothing (`loadMany_eq_loadEach`).
-/

namespace Phrasebook.Catalog

/-! ## calls -/

/-- A call that may change a catalog. -/
inductive Operation where
  | load (l : Locale) (entries : Entries) (mode : LoadMode)
  | loadMany (loads : List (Locale × Entries)) (mode : LoadMode)
  | remove (l : Locale)
  | clear

/-- The catalog after a call. -/
def perform (c : Catalog) : Operation → Catalog
  | .load l entries mode => (c.load l entries mode).2
  | .loadMany loads mode => (c.loadMany loads mode).2
  | .remove l => (c.remove l).2
  | .clear => c.clear

/-- The catalog after one call after the other. -/
def run (c : Catalog) (ops : List Operation) : Catalog := ops.foldl perform c

theorem run_cons (c : Catalog) (op : Operation) (ops : List Operation) :
    c.run (op :: ops) = (c.perform op).run ops := rfl

/-- A call answers with an error. -/
def Fails (c : Catalog) : Operation → Prop
  | .load l entries mode => ∃ err, (c.load l entries mode).1 = .error err
  | .loadMany loads mode => ∃ err, (c.loadMany loads mode).1 = .error err
  | .remove _ | .clear => False

/-! ## loading one after the other -/

/-- One load is several of which there is one. -/
theorem loadMany_singleton (c : Catalog) (l : Locale) (entries : Entries) (mode : LoadMode) :
    c.loadMany [(l, entries)] mode =
      ((c.load l entries mode).1.map fun version => [version], (c.load l entries mode).2) := by
  rw [loadMany, load, stageAll]
  cases stage c.snapshot c.nextVersion l entries mode <;> rfl

/-- What is staged after a bundle that does not fail. -/
theorem stageAll_cons_of_ok {s s' : Snapshot} {next : UInt64} {l : Locale} {entries : Entries}
    {mode : LoadMode} (h : stage s next l entries mode = .ok s') (rest : List (Locale × Entries)) :
    stageAll s next mode ((l, entries) :: rest) =
      ((stageAll s' (next + 1) mode rest).1.map fun r => (next :: r.1, r.2),
        (stageAll s' (next + 1) mode rest).2) := by
  rw [stageAll, h]
  dsimp only
  rcases stageAll s' (next + 1) mode rest with ⟨_ | _, _⟩ <;> rfl

/-- Loads bundles by one call after the other, up to the first that fails; the result is
their versions. -/
def loadEach (c : Catalog) (mode : LoadMode) :
    List (Locale × Entries) → Except LoadError (List UInt64) × Catalog
  | [] => (.ok [], c)
  | (l, entries) :: rest =>
    match c.load l entries mode with
    | (.error err, c) => (.error err, c)
    | (.ok version, c) =>
      match c.loadEach mode rest with
      | (.ok versions, c) => (.ok (version :: versions), c)
      | (.error err, c) => (.error err, c)

/-- Staging all bundles is loading them one after the other without publishing: the same
versions and snapshot or the same error, and the same next version. -/
theorem stageAll_eq_loadEach (mode : LoadMode) (loads : List (Locale × Entries)) (c : Catalog) :
    stageAll c.snapshot c.nextVersion mode loads =
      ((c.loadEach mode loads).1.map fun versions => (versions, (c.loadEach mode loads).2.snapshot),
        (c.loadEach mode loads).2.nextVersion) := by
  induction loads generalizing c with
  | nil => rfl
  | cons x rest ih =>
    obtain ⟨l, entries⟩ := x
    rw [stageAll, loadEach, load]
    cases stage c.snapshot c.nextVersion l entries mode with
    | error err => rfl
    | ok s =>
      dsimp only
      rw [ih ⟨s, c.nextVersion + 1⟩]
      rcases loadEach ⟨s, c.nextVersion + 1⟩ mode rest with ⟨_ | _, _⟩ <;> rfl

/-- Loading bundles at once answers as loading them one after the other does, and leaves the
same catalog if none of them fails; otherwise nothing is published. -/
theorem loadMany_eq_loadEach (c : Catalog) (loads : List (Locale × Entries)) (mode : LoadMode) :
    c.loadMany loads mode =
      match c.loadEach mode loads with
      | (.ok versions, c') => (.ok versions, c')
      | (.error err, c') => (.error err, { c' with snapshot := c.snapshot }) := by
  rw [loadMany, stageAll_eq_loadEach]
  rcases c.loadEach mode loads with ⟨_ | _, _⟩ <;> rfl

end Phrasebook.Catalog
