import Phrasebook.Proofs.Engine.Refinement
import Phrasebook.Proofs.Evaluation.Choices
import Phrasebook.Proofs.Evaluation.Outcome

/-!
# Phrasebook.Proofs.Engine.Validity

What is loaded is valid.

Entries are valid (`Entries.Valid`) when no key is empty and every choice of every template
has a branch for `other`.  Entries of which none is faulty are valid, and laying valid
entries over valid ones gives valid entries; so the contents of an engine are valid after
every run, whatever loads are refused on the way (`PlainEngine.valid_run`).

The runs are those of the engine that remembers nothing, where a load changes the
contents and nothing else; the contents of an engine are those of its view.
-/

namespace Phrasebook

/-! ## entries -/

namespace Entries

/-- No key is empty, and every choice of every template has a branch for `other`. -/
def Valid (x : Entries) : Prop :=
  ∀ (key raw : String), x[key]? = some raw → key ≠ "" ∧ (Template.parse raw).tree.HasOthers

theorem valid_empty : Valid ∅ := by
  intro key raw h
  rw [Std.TreeMap.getElem?_emptyc] at h
  cases h

theorem Valid.insert {x : Entries} (hx : x.Valid) {key raw : String} (hk : key ≠ "")
    (hr : (Template.parse raw).tree.HasOthers) : Valid (x.insert key raw) := by
  intro k r h
  obtain ⟨rfl, rfl⟩ | ⟨-, h⟩ := getElem?_insert_cases h
  · exact ⟨hk, hr⟩
  · exact hx k r h

theorem Valid.foldl_insert {x : Entries} (hx : x.Valid) {es : List (String × String)}
    (h : ∀ y ∈ es, ¬ Engine.Faulty y) : Valid (es.foldl (fun m y => m.insert y.1 y.2) x) := by
  induction es generalizing x with
  | nil => exact hx
  | cons y es ih =>
    obtain ⟨hy, hes⟩ := List.forall_mem_cons.1 h
    obtain ⟨hk, ho⟩ := not_or.1 hy
    exact ih (hx.insert hk (not_not.1 ho)) hes

/-- Entries of which none is faulty are valid. -/
theorem valid_ofList {es : List (String × String)} (h : ∀ y ∈ es, ¬ Engine.Faulty y) :
    Valid (.ofList es) :=
  valid_empty.foldl_insert h

theorem Valid.overlay {below above : Entries} (hb : below.Valid) (ha : above.Valid) :
    (below.overlay above).Valid := by
  rw [Entries.overlay, Std.TreeMap.foldl_eq_foldl_toList]
  refine hb.foldl_insert fun y hy => ?_
  obtain ⟨hk, ho⟩ := ha y.1 y.2 (Std.TreeMap.mem_toList_iff_getElem?_eq_some.1 hy)
  exact not_or.2 ⟨hk, not_not.2 ho⟩

end Entries

/-! ## contents -/

namespace Contents

/-- The entries of every locale are valid. -/
def Valid (c : Contents) : Prop := ∀ l x, c l = some x → x.Valid

theorem Valid.update {c : Contents} (hc : c.Valid) {l : Locale} {x : Option Entries}
    (hx : ∀ y ∈ x, y.Valid) : Valid (Function.update c l x) := by
  intro l' y h
  rw [Function.update_apply] at h
  split at h
  · exact hx y h
  · exact hc l' y h

theorem Valid.merged {c : Contents} (hc : c.Valid) (l : Locale) {x : Entries} (hx : x.Valid)
    (mode : LoadMode) : (c.merged l x mode).Valid := by
  unfold Contents.merged
  split
  · next old ho => exact (hc l old ho).overlay hx
  · exact hx

theorem Valid.put {c : Contents} (hc : c.Valid) (mode : LoadMode) {x : Locale × Entries}
    (hx : x.2.Valid) : (c.put mode x).Valid := by
  refine hc.update fun y hy => ?_
  cases hy
  exact hc.merged x.1 hx mode

end Contents

/-! ## runs -/

namespace PlainEngine

/-- Every operation that is not refused keeps the contents valid. -/
theorem valid_apply {e : PlainEngine} (he : e.contents.Valid) {op : Engine.Operation}
    (h : ¬ Engine.Refuses e.contents.texts op) : (e.apply op).contents.Valid := by
  cases op with
  | load l entries mode =>
    have hn := not_exists.1 (not_or.1 h).1
    exact he.put mode (Entries.valid_ofList fun y hy hf => hn y ⟨hy, hf⟩)
  | loadFrom loaded mode =>
    cases loaded with
    | error err => exact he
    | ok bundles =>
      have hn : ∀ b ∈ bundles, Entries.Valid (.ofList b.entries.toList) := fun b hb =>
        Entries.valid_ofList fun y hy hf => (not_or.1 h).1 ⟨b, hb, y, hy, hf⟩
      rw [apply]
      dsimp only
      generalize e.contents = c at he
      clear h
      induction bundles generalizing c with
      | nil => exact he
      | cons b rest ih =>
        obtain ⟨hb, hr⟩ := List.forall_mem_cons.1 hn
        exact ih hr _ (he.put mode hb)
  | unload l => exact he.update (by simp)
  | setDefault l => exact he
  | setActive l => exact he
  | query q => exact he

/-- Every operation keeps the contents valid. -/
theorem valid_perform {e : PlainEngine} (he : e.contents.Valid) (op : Engine.Operation) :
    (e.perform op).contents.Valid := by
  rw [perform]
  split
  · exact he
  · next h => exact valid_apply he h

theorem valid_run (s : Settings) (ops : List Engine.Operation) :
    ((new s).run ops).contents.Valid := by
  have hn : (new s).contents.Valid := by
    intro l x h
    cases h
  generalize new s = e at hn
  induction ops generalizing e with
  | nil => exact hn
  | cons op ops ih => exact ih (e.perform op) (valid_perform hn op)

end PlainEngine

namespace Engine

/-- Every bundle of an engine has valid entries. -/
theorem valid_entries_run (s : Settings) (ops : List Operation) {tag : String} {b : Bundle}
    (hb : ((new s).run ops).catalog.snapshot.bundles[tag]? = some b) : b.entries.Valid := by
  have hv : ((new s).run ops).catalog.snapshot.contents.Valid := by
    have h := PlainEngine.valid_run s ops
    rwa [← view_new, ← view_run] at h
  have ht := ((coherent_run s ops).sound tag b hb).1
  refine hv b.locale b.entries ?_
  rw [Snapshot.contents, Snapshot.bundle?, ht, hb, Option.map_some]

/-- A coherent engine answers a key of its chain with the pieces of the template found. -/
theorem Coherent.resolve_eq_message {e : Engine} (he : e.Coherent) {key raw : String} {l : Locale}
    {b : Bundle} (h : e.catalog.snapshot.lookup? (l.fallbackChain e.default) key = some (b, raw))
    (args : Arguments) :
    (e.resolve key l args).1 =
      Pieces.message key e.settings.missingArgument
        ((Template.parse raw).tree.pieces args b.locale none) := by
  have hc : e.view.contents.lookup? (l.fallbackChain e.view.default) key =
      some (b.locale, raw) := by
    have hl := he.sound.lookup?_contents (l.fallbackChain e.default) key
    rw [h] at hl
    exact hl
  rw [he.resolve_eq, PlainEngine.resolve, hc]
  exact congrArg Prod.fst (Template.evaluate_eq_message (Template.parse raw) rfl)

/-- After every run of a new engine, failed loads included, no key of a bundle is empty and
every choice of a template, at any depth, has a branch for `other`.  So when a key that is
found is resolved, every choice of its template selects a branch for every value in every
locale, and none drops out of the message. -/
theorem choices_select_of_run (s : Settings) (ops : List Operation) :
    (∀ (tag : String) (b : Bundle) (key raw : String),
      ((new s).run ops).catalog.snapshot.bundles[tag]? = some b → b.get? key = some raw →
        key ≠ "" ∧ (Template.parse raw).tree.HasOthers) ∧
      ∀ (key : String) (l : Locale) (args : Arguments) (b : Bundle) (raw : String),
        ((new s).run ops).catalog.snapshot.lookup?
            (l.fallbackChain ((new s).run ops).default) key = some (b, raw) →
          (((new s).run ops).resolve key l args).1 =
              Pieces.message key ((new s).run ops).settings.missingArgument
                ((Template.parse raw).tree.pieces args b.locale none) ∧
            (∀ source, .dropped source ∉ (Template.parse raw).tree.pieces args b.locale none) ∧
            ∀ r bs source, .plural r bs source ∈ (Template.parse raw).tree.allNodes →
              ∀ v l', (Branch.select? bs v l').isSome = true := by
  refine ⟨fun tag b key raw hb hr => valid_entries_run s ops hb key raw hr, ?_⟩
  intro key l args b raw h
  obtain ⟨l', -, hb, hr⟩ := Snapshot.bundle?_of_lookup? h
  have ho := (valid_entries_run s ops hb key raw hr).2
  refine ⟨(coherent_run s ops).resolve_eq_message h args, fun source => ?_, ?_⟩
  · exact Tree.HasOthers.dropped_not_mem args b.locale none source _ ho
  · exact fun r bs source hm v l' => Branch.isSome_select? (ho r bs source hm) v l'

/-- Loads of both modes, of which one fails at an empty key and one at a choice without a
branch for `other`. -/
def mixedLoads : List Operation :=
  [.load .english
      [("k", "\x7bn, plural, one\x7b\x7bm, plural, other\x7b#\x7d\x7d\x7d other\x7bx\x7d\x7d")]
      .replaceAll,
    .load .english [("", "x")] .merge,
    .loadFrom (.ok [⟨.english, .ofList [("l", "y")]⟩]) .merge,
    .loadFrom (.ok [⟨.english, .ofList [("k", "\x7bn, plural, one\x7b\x7d\x7d")]⟩]) .replaceAll]

theorem choices_select_of_mixedLoads :
    ∃ (tag : String) (b : Bundle) (raw : String),
      ((new (.ofDefault .english)).run mixedLoads).catalog.snapshot.bundles[tag]? = some b ∧
        b.get? "k" = some raw ∧
        ((new (.ofDefault .english)).run mixedLoads).catalog.snapshot.lookup?
          (Locale.english.fallbackChain ((new (.ofDefault .english)).run mixedLoads).default) "k" =
            some (b, raw) ∧
        (Template.parse raw).tree.HasOthers ∧
        ∀ source, .dropped source ∉
          (Template.parse raw).tree.pieces (.ofNamed [("n", .integer 1)]) b.locale none := by
  have hs : (((new (.ofDefault .english)).run mixedLoads).catalog.snapshot.lookup?
      (Locale.english.fallbackChain ((new (.ofDefault .english)).run mixedLoads).default)
      "k").isSome = true := by
    decide +kernel
  obtain ⟨⟨b, raw⟩, h⟩ := Option.isSome_iff_exists.1 hs
  obtain ⟨l, -, hb, hr⟩ := Snapshot.bundle?_of_lookup? h
  obtain ⟨hv, hd⟩ := choices_select_of_run (.ofDefault .english) mixedLoads
  exact ⟨l.tag, b, raw, hb, hr, h, (hv l.tag b "k" raw hb hr).2, (hd _ _ _ b raw h).2.1⟩

end Engine

end Phrasebook
