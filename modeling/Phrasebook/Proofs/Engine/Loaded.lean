import Phrasebook.Proofs.Engine.Comparison
import Phrasebook.Proofs.Engine.Refusal

/-!
# Phrasebook.Proofs.Engine.Loaded

What an engine has after loads that succeed.

A load that is not refused puts its texts and leaves those of the other locales alone
(`TextMap.put`).  So an engine has the texts of a bundle that it has loaded
(`texts_loadBundle`, `texts_loadFrom`), and a new engine that has loaded bundles of two
locales has the texts of each (`LoadsInTurn.texts`).  A comparison in such an engine is one of
the bundles, in whatever order and mode they were loaded (`exists_compares_of_loadsInTurn`).
-/

namespace Phrasebook

/-! ## texts -/

namespace TextMap

/-- The texts of a locale that has none are those that are put. -/
theorem put_of_none {mode : LoadMode} {m : TextMap} {l : Locale} (x : Entries) (h : m l = none) :
    m.put mode (l, x) l = some x.texts := by
  rw [put, Function.update_self]
  cases mode with
  | replaceAll => rfl
  | merge => simp [merged, h]

theorem put_of_ne {mode : LoadMode} {m : TextMap} {l : Locale} {x : Locale × Entries}
    (h : l ≠ x.1) : m.put mode x l = m l :=
  Function.update_of_ne h _ _

/-- Entries put as they are listed. -/
theorem put_ofList_toList (mode : LoadMode) (m : TextMap) (l : Locale) (x : Entries) :
    m.put mode (l, .ofList x.toList) = m.put mode (l, x) := by
  rw [put, put]
  simp only [Entries.texts_ofList_toList]

end TextMap

/-! ## loads -/

namespace Engine

/-- Loads one bundle. -/
def loadBundle (e : Engine) (b : BundleSource) (mode : LoadMode) : Except LoadError Nat × Engine :=
  e.load b.locale b.entries.toList mode

variable {e e' : Engine}

/-- An engine that has loaded a bundle has its texts. -/
theorem texts_loadBundle {b : BundleSource} {mode : LoadMode} {n : Nat}
    (h : e.loadBundle b mode = (.ok n, e')) :
    e'.catalog.snapshot.texts = e.catalog.snapshot.texts.put mode (b.locale, b.entries) := by
  rw [Snapshot.texts, contents_of_load_eq_ok h, Contents.texts_put, TextMap.put_ofList_toList]
  rfl

/-- An engine that has loaded what a loader hands over has the texts of all bundles. -/
theorem texts_loadFrom {bundles : List BundleSource} {mode : LoadMode} {n : Nat}
    (h : e.loadFrom (.ok bundles) mode = (.ok n, e')) :
    e'.catalog.snapshot.texts =
      bundles.foldl (fun m b => m.put mode (b.locale, b.entries)) e.catalog.snapshot.texts := by
  have hp : ∀ (c : Contents) (b : BundleSource),
      c.texts.put mode (b.locale, b.entries) =
        (c.put mode (b.locale, .ofList b.entries.toList)).texts := by
    intro c b
    rw [Contents.texts_put, TextMap.put_ofList_toList]
  rw [Snapshot.texts, contents_of_loadFrom_eq_ok h]
  exact (List.foldl_hom Contents.texts hp).symm

/-- Both bundles are loaded, the one and then the other, or at once from a loader. -/
inductive LoadsInTurn (e : Engine) (x y : BundleSource) (e' : Engine) : Prop where
  | apart {mode mode' : LoadMode} {n n' : Nat} {e₁ : Engine}
    (hx : e.loadBundle x mode = (.ok n, e₁)) (hy : e₁.loadBundle y mode' = (.ok n', e'))
  | together {mode : LoadMode} {n : Nat} (h : e.loadFrom (.ok [x, y]) mode = (.ok n, e'))

theorem Coherent.of_loadBundle {b : BundleSource} {mode : LoadMode} {r : Except LoadError Nat}
    (he : e.Coherent) (h : e.loadBundle b mode = (r, e')) : e'.Coherent := by
  obtain rfl : (e.loadBundle b mode).2 = e' := by rw [h]
  exact he.perform (.load b.locale b.entries.toList mode)

theorem LoadsInTurn.coherent {x y : BundleSource} (h : e.LoadsInTurn x y e') (he : e.Coherent) :
    e'.Coherent := by
  cases h with
  | apart hx hy => exact (he.of_loadBundle hx).of_loadBundle hy
  | @together mode _ h =>
    obtain rfl : (e.loadFrom (.ok [x, y]) mode).2 = e' := by rw [h]
    exact he.perform (.loadFrom (.ok [x, y]) mode)

/-- A new engine that has loaded bundles of two locales has the texts of each. -/
theorem LoadsInTurn.texts {s : Settings} {x y : BundleSource} (h : (new s).LoadsInTurn x y e')
    (hne : x.locale ≠ y.locale) :
    e'.catalog.snapshot.texts x.locale = some x.entries.texts ∧
      e'.catalog.snapshot.texts y.locale = some y.entries.texts := by
  have hn : ∀ l, (new s).catalog.snapshot.texts l = none := congrFun Snapshot.texts_empty
  -- the texts of the second do not touch those of the first, and find none of their own
  have hp : ∀ mode mode', (((new s).catalog.snapshot.texts.put mode (x.locale, x.entries)).put mode'
      (y.locale, y.entries)) x.locale = some x.entries.texts ∧
      (((new s).catalog.snapshot.texts.put mode (x.locale, x.entries)).put mode'
      (y.locale, y.entries)) y.locale = some y.entries.texts := by
    intro mode mode'
    refine ⟨?_, TextMap.put_of_none _ ?_⟩
    · rw [TextMap.put_of_ne hne, TextMap.put_of_none _ (hn _)]
    · rw [TextMap.put_of_ne hne.symm, hn]
  cases h with
  | @apart mode mode' _ _ _ hx hy =>
    rw [texts_loadBundle hy, texts_loadBundle hx]
    exact hp mode mode'
  | @together mode _ h =>
    rw [texts_loadFrom h]
    exact hp mode mode

/-- A new engine that has loaded two bundles, in either order, compares what is in them. -/
theorem exists_compares_of_loadsInTurn {s : Settings} {x y : BundleSource}
    (h : (new s).LoadsInTurn x y e ∨ (new s).LoadsInTurn y x e) (hne : x.locale ≠ y.locale) :
    ∃ first second, e.compare x.locale y.locale = first ++ second ∧
      x.entries.texts.Compares y.entries.texts y.locale.tag first second := by
  obtain h | h := h
  · obtain ⟨hx, hy⟩ := h.texts hne
    exact (h.coherent (coherent_new s)).exists_compares hx hy
  · obtain ⟨hy, hx⟩ := h.texts hne.symm
    exact (h.coherent (coherent_new s)).exists_compares hx hy

end Engine

end Phrasebook
