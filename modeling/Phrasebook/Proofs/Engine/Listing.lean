import Phrasebook.Proofs.Engine.Identifiers
import Phrasebook.Proofs.Evaluation.Outcome
import Phrasebook.Proofs.Text.ByteOrder

/-!
# Phrasebook.Proofs.Engine.Listing

What is listed is what can be resolved.

The keys of a locale are collected from all bundles of its fallback chain; a request for
a key looks for the first bundle that has it.  Both meet the same keys
(`Snapshot.mem_keysOf_iff`), so the list (`Engine.keys`) tells beforehand which requests
find a template, which use their fallback, and which report a missing key
(`Engine.Lists`).  The suggestions of such a report come from the list.

Identifiers are resolved by the list as well: one that no listed key has is unknown, and
any other is the identifier of a key that the first bundle with such a key has
(`resolveId_by_keys`).
-/

namespace Phrasebook

/-! ## keys of a chain -/

theorem Suggestion.mem_of_mem_suggest {target c : String} {candidates : List String}
    (h : c ∈ suggest target candidates) : c ∈ candidates := by
  obtain ⟨x, hx, rfl⟩ := List.mem_map.1 h
  obtain ⟨hm, -⟩ := List.mem_filter.1 (List.mem_mergeSort.1 (List.mem_of_mem_take hx))
  obtain ⟨c, hc, rfl⟩ := List.mem_map.1 hm
  exact hc

namespace Snapshot

/-- The keys of a chain are those that are found in it. -/
theorem mem_keysOf_iff (s : Snapshot) (chain : List Locale) (key : String) :
    key ∈ s.keysOf chain ↔ (s.lookup? chain key).isSome = true := by
  rw [isSome_lookup?_iff, keysOf, Std.TreeSet.mem_toList, Std.TreeSet.mem_ofList,
    List.contains_iff_mem, List.mem_flatMap]
  simp only [Bundle.keys, Bundle.contains, Std.TreeMap.mem_keys, Std.TreeMap.contains_iff_mem]

/-- The keys of a chain ascend in the order of their bytes. -/
theorem pairwise_keysOf (s : Snapshot) (chain : List Locale) :
    (s.keysOf chain).Pairwise fun a b => Text.bytes a < Text.bytes b := by
  have h := (Std.TreeSet.ofList ((s.bundlesOf chain).flatMap Bundle.keys)).ordered_toList
  exact h.imp fun hab => Text.bytes_lt_iff.2 (compareOfLessAndEq_eq_lt.1 hab)

end Snapshot

/-! ## evaluation and the key -/

namespace Template

/-- Evaluating under a key or another differs in the key that an error names. -/
theorem exists_evaluate_eq (t : Template) (l : Locale) (args : Arguments)
    (policy : MissingArgumentPolicy) :
    ∃ r : Except String Message, ∀ key,
      (t.evaluate (.fresh key l args policy)).1 = r.mapError (.missingArgument key) := by
  have h : ∀ key, (t.evaluate (.fresh key l args policy)).1 =
      Pieces.message key policy (t.tree.pieces args l none) := fun key =>
    congrArg Prod.fst (evaluate_eq_message t (c := .fresh key l args policy) rfl)
  simp only [h, Pieces.message]
  cases Pieces.failure? policy (t.tree.pieces args l none) with
  | none => exact ⟨.ok _, fun _ => rfl⟩
  | some name => exact ⟨.error name, fun _ => rfl⟩

/-- A text that is read as a single literal is evaluated to itself. -/
theorem evaluate_literal {raw : String} (h : (parse raw).tree = .sequence [.literal raw])
    (key : String) (l : Locale) (args : Arguments) (policy : MissingArgumentPolicy) :
    ((parse raw).evaluate (.fresh key l args policy)).1 = .ok (.ofText raw) := by
  have hf : Pieces.failure? policy [.text raw] = none := by cases policy <;> rfl
  have hm : Pieces.message key policy [.text raw] = .ok (.ofText raw) := by
    rw [Pieces.message, hf, ← Message.ofSegments_eq]
    rfl
  rw [evaluate_eq_message _ rfl, h]
  exact hm

end Template

namespace Engine

variable {e : Engine}

/-! ## keys and requests -/

theorem keys_fst (e : Engine) (l : Locale) :
    (e.keys l).1 = e.catalog.snapshot.keysOf (e.chain l).1 := by
  have hc : (e.chain l).2.catalog = e.catalog := by rw [chain_frame]
  rw [keys, ← hc]

theorem mem_keys_iff (e : Engine) (key : String) (l : Locale) :
    key ∈ (e.keys l).1 ↔ (e.contains key l).1 = true := by
  have hc : (e.chain l).2.catalog = e.catalog := by rw [chain_frame]
  rw [keys_fst, Snapshot.mem_keysOf_iff, contains, ← hc]

/-- What a request for a key does: a listed key has a template, which is evaluated, and for
any other the policy or the fallback answers. -/
theorem request_cases (e : Engine) (key : String) (l : Locale) (args : Arguments) :
    (key ∈ (e.keys l).1 ∧ ∃ (t : Template) (winner : Locale),
        (e.resolve key l args).1 =
          (t.evaluate (.fresh key winner args e.settings.missingArgument)).1 ∧
        ∀ fallback, (e.resolveOr key l args fallback).1 = (e.resolve key l args).1) ∨
      (key ∉ (e.keys l).1 ∧ (e.resolve key l args).1 = e.missing key l (e.chain l).1 ∧
        ∀ fallback, (e.resolveOr key l args fallback).1 = e.evaluate key fallback l args) := by
  have hf := chain_frame e l
  have hc : (e.chain l).2.catalog = e.catalog := by rw [hf]
  have hs : (e.chain l).2.settings = e.settings := by rw [hf]
  rw [keys_fst, Snapshot.mem_keysOf_iff]
  simp only [resolve, resolveOr, resolveIn, hc]
  cases h : e.catalog.snapshot.lookup? (e.chain l).1 key with
  | some r =>
    obtain ⟨b, raw⟩ := r
    refine .inl ⟨rfl, ((e.chain l).2.cache.getOrBuild b.locale key b.version raw).1, b.locale,
      ?_, ?_⟩
    · rw [← hs]
      rfl
    · exact fun _ => rfl
  | none =>
    refine .inr ⟨by simp, ?_, fun fallback => ?_⟩
    · simp only [missing, hc, hs]
    · simp only [evaluate, hs]

/-- A missing key is an error where the policy asks for it. -/
theorem missing_eq_error_iff (e : Engine) (key : String) (l : Locale) (chain : List Locale)
    (err : ResolveError) :
    e.missing key l chain = .error err ↔
      e.settings.missingKey = .error ∧
        err = .missingKey key l.tag (Suggestion.suggest key (e.catalog.snapshot.keysOf chain)) := by
  rw [missing]
  cases e.settings.missingKey <;> simp [MissingKeyPolicy.substitute?, eq_comm]

/-- Evaluating a template never reports a missing key. -/
theorem evaluate_ne_missingKey (t : Template) (key : String) (l : Locale) (args : Arguments)
    (policy : MissingArgumentPolicy) (k tag : String) (suggestions : List String) :
    (t.evaluate (.fresh key l args policy)).1 ≠ .error (.missingKey k tag suggestions) := by
  obtain ⟨r, hr⟩ := Template.exists_evaluate_eq t l args policy
  rw [hr]
  cases r with
  | ok m => nofun
  | error name => nofun

/-- A missing key is reported where the policy asks for it, for the keys that are not listed;
the suggestions are taken from the list. -/
theorem resolve_eq_missingKey_iff (e : Engine) (key : String) (l : Locale) (args : Arguments)
    (k tag : String) (suggestions : List String) :
    (e.resolve key l args).1 = .error (.missingKey k tag suggestions) ↔
      e.settings.missingKey = .error ∧ key ∉ (e.keys l).1 ∧ k = key ∧ tag = l.tag ∧
        suggestions = Suggestion.suggest key (e.keys l).1 := by
  obtain ⟨hm, t, winner, ht, -⟩ | ⟨hn, hr, -⟩ := request_cases e key l args
  · rw [ht]
    exact iff_of_false (evaluate_ne_missingKey t key winner args _ k tag suggestions)
      fun h => h.2.1 hm
  · rw [hr, missing_eq_error_iff, ← keys_fst, ResolveError.missingKey.injEq]
    simp [hn]

/-- The fallback of a request makes no difference exactly when the key is listed. -/
theorem resolveOr_indifferent_iff (e : Engine) (key : String) (l : Locale) (args : Arguments) :
    (∀ fallback fallback',
      (e.resolveOr key l args fallback).1 = (e.resolveOr key l args fallback').1) ↔
      key ∈ (e.keys l).1 := by
  obtain ⟨hm, t, winner, -, hr⟩ | ⟨hn, -, hr⟩ := request_cases e key l args
  · exact iff_of_true (fun fallback fallback' => (hr fallback).trans (hr fallback').symm) hm
  · refine iff_of_false (fun h => ?_) hn
    -- two fallbacks without a placeholder, which are evaluated to what they say
    have ha : (Template.parse "a").tree = .sequence [.literal "a"] := by
      rw [Template.tree_parse]
      cbv
    have hb : (Template.parse "b").tree = .sequence [.literal "b"] := by
      rw [Template.tree_parse]
      cbv
    have hab := h "a" "b"
    rw [hr, hr, evaluate, evaluate, Template.evaluate_literal ha,
      Template.evaluate_literal hb] at hab
    have hd := congrArg Message.display (Except.ok.inj hab)
    simp [Message.ofText, Message.display_pushText] at hd

/-- Asking in between makes no difference to the list. -/
theorem Coherent.keys_ask (he : e.Coherent) (q : Query) (l : Locale) :
    ((e.ask q).keys l).1 = (e.keys l).1 := by
  have hf := ask_frame e q
  have hs : (e.ask q).catalog = e.catalog := by rw [hf]
  have hd : (e.ask q).default = e.default := by rw [hf]
  rw [keys_fst, keys_fst, he.chain_eq, (he.ask q).chain_eq, hs, hd]

/-- What a list of keys says of the requests for a locale. -/
structure Lists (e : Engine) (l : Locale) (keys : List String) : Prop where
  ascending : keys.Pairwise fun a b => Text.bytes a < Text.bytes b
  contains_iff (key : String) : (e.contains key l).1 = true ↔ key ∈ keys
  /-- The fallback makes no difference for the keys of the list, and only for these. -/
  resolveOr_iff (key : String) (args : Arguments) :
    (∀ fallback fallback',
      (e.resolveOr key l args fallback).1 = (e.resolveOr key l args fallback').1) ↔ key ∈ keys
  /-- For other keys it is the template evaluated; an error names the key. -/
  resolveOr_of_not_mem (key : String) (args : Arguments) (fallback : String) (h : key ∉ keys) :
    ∃ r : Except String Message,
      e.evaluateText fallback l args = r.mapError (.missingArgument adHocKey) ∧
        (e.resolveOr key l args fallback).1 = r.mapError (.missingArgument key)
  /-- The keys reported as missing, where the policy asks for it, are those not in the list. -/
  resolve_iff (key : String) (args : Arguments) :
    (∃ k tag suggestions, (e.resolve key l args).1 = .error (.missingKey k tag suggestions)) ↔
      e.settings.missingKey = .error ∧ key ∉ keys
  /-- A report names the key and the locale asked for, and suggests keys of the list. -/
  suggestions_mem (key : String) (args : Arguments) {k tag : String} {suggestions : List String}
    (h : (e.resolve key l args).1 = .error (.missingKey k tag suggestions)) :
    k = key ∧ tag = l.tag ∧ ∀ x ∈ suggestions, x ∈ keys

/-- In every state that a new engine reaches, the keys of a locale tell its requests; and
asking anything in between does not change the list. -/
theorem lists_keys (s : Settings) (ops : List Operation) (l : Locale) :
    ((new s).run ops).Lists l (((new s).run ops).keys l).1 ∧
      ∀ q, ((((new s).run ops).ask q).keys l).1 = (((new s).run ops).keys l).1 := by
  refine ⟨?_, fun q => (coherent_run s ops).keys_ask q l⟩
  generalize (new s).run ops = e
  constructor
  case ascending =>
    rw [keys_fst]
    exact e.catalog.snapshot.pairwise_keysOf _
  case contains_iff => exact fun key => (mem_keys_iff e key l).symm
  case resolveOr_iff => exact fun key args => resolveOr_indifferent_iff e key l args
  case resolveOr_of_not_mem =>
    intro key args fallback h
    obtain ⟨hm, -⟩ | ⟨-, -, hr⟩ := request_cases e key l args
    · exact absurd hm h
    · obtain ⟨r, he⟩ :=
        Template.exists_evaluate_eq (Template.parse fallback) l args e.settings.missingArgument
      exact ⟨r, he adHocKey, (hr fallback).trans (he key)⟩
  case resolve_iff =>
    intro key args
    simp only [resolve_eq_missingKey_iff]
    constructor
    · rintro ⟨k, tag, suggestions, hp, hn, -⟩
      exact ⟨hp, hn⟩
    · rintro ⟨hp, hn⟩
      exact ⟨key, l.tag, _, hp, hn, rfl, rfl, rfl⟩
  case suggestions_mem =>
    intro key args k tag suggestions h
    obtain ⟨-, -, hk, ht, hs⟩ := (resolve_eq_missingKey_iff e key l args k tag suggestions).1 h
    exact ⟨hk, ht, fun x hx => Suggestion.mem_of_mem_suggest (hs ▸ hx)⟩

/-- Missing keys are errors. -/
def strict : Settings := { Settings.ofDefault .english with missingKey := .error }

/-- A key in the default locale, another in a narrower one, and a load that fails. -/
def twoGreetings : List Operation :=
  [.load .english [("greeting", "Hello")] .replaceAll,
    .load .german [("gruss", "Hallo")] .replaceAll,
    .load .german [("", "x")] .replaceAll]

theorem lists_keys_twoGreetings :
    (((new strict).run twoGreetings).keys .german).1 = ["greeting", "gruss"] ∧
      (∃ k tag suggestions, (((new strict).run twoGreetings).resolve "greting" .german .empty).1 =
        .error (.missingKey k tag suggestions)) ∧
      (∃ r : Except String Message,
        ((new strict).run twoGreetings).evaluateText "Hi" .german .empty =
            r.mapError (.missingArgument adHocKey) ∧
          (((new strict).run twoGreetings).resolveOr "greting" .german .empty "Hi").1 =
            r.mapError (.missingArgument "greting")) := by
  have hk : (((new strict).run twoGreetings).keys .german).1 = ["greeting", "gruss"] := by
    decide +kernel
  have hp : ((new strict).run twoGreetings).settings.missingKey = .error := by decide +kernel
  obtain ⟨h, -⟩ := lists_keys strict twoGreetings .german
  rw [hk] at h
  exact ⟨hk, (h.resolve_iff "greting" .empty).2 ⟨hp, by decide⟩,
    h.resolveOr_of_not_mem "greting" .empty "Hi" (by decide)⟩

end Engine

/-! ## identifiers -/

/-- What the policy for missing keys answers for an identifier that no key has. -/
def MissingKeyPolicy.answerId (p : MissingKeyPolicy) (id : MessageId) (l : Locale) :
    Except ResolveError Message :=
  match p with
  | .returnKey => .ok (.ofText id.render)
  | .marker text => .ok (.ofText (markerText text id.render l))
  | .error => .error (.missingId id l.tag)

namespace Engine

variable {e : Engine} {id : MessageId} {l : Locale}

theorem missingId_eq (e : Engine) (id : MessageId) (l : Locale) :
    e.missingId id l = e.settings.missingKey.answerId id l := by
  rw [missingId]
  cases e.settings.missingKey <;> rfl

/-- The keys that are listed are those of the bundles of the chain. -/
theorem Coherent.mem_keys_iff_exists (he : e.Coherent) (key : String) (l : Locale) :
    key ∈ (e.keys l).1 ↔
      ∃ b ∈ e.catalog.snapshot.bundlesOf (l.fallbackChain e.default), b.contains key = true := by
  rw [mem_keys_iff, he.contains_iff]

/-- The policy answers for an identifier that no listed key has. -/
theorem Coherent.resolveId_of_unknown (he : e.Coherent)
    (h : ∀ key ∈ (e.keys l).1, MessageId.ofKey key ≠ id) (args : Arguments) :
    (e.resolveId id l args).1 = e.settings.missingKey.answerId id l := by
  have hf := chain_frame e l
  have hc : (e.chain l).2.catalog = e.catalog := by rw [hf]
  have hs : (e.chain l).2.settings = e.settings := by rw [hf]
  -- a key that an index answers would be listed
  have hn : (e.catalog.snapshot.bundlesOf (e.chain l).1).findSome? (Bundle.keyForId? · id) =
      none := by
    rw [List.findSome?_eq_none_iff, he.chain_eq]
    intro b hb
    refine Option.eq_none_iff_forall_ne_some.2 fun key hk => ?_
    obtain ⟨hkb, hid⟩ := ((he.sound.indexed_of_mem_bundlesOf hb).keyForId?_eq_some_iff id key).1 hk
    exact h key ((he.mem_keys_iff_exists key l).2 ⟨b, hb, hkb⟩) hid
  rw [resolveId]
  dsimp only
  rw [hc, hn, ← hs]
  exact missingId_eq _ id l

/-- An identifier of a listed key is resolved as the one key that has it in the first bundle
that knows it. -/
theorem Coherent.resolveId_of_known (he : e.Coherent)
    (h : ∃ key ∈ (e.keys l).1, MessageId.ofKey key = id) (args : Arguments) :
    ∃ before b after key,
      e.catalog.snapshot.bundlesOf (l.fallbackChain e.default) = before ++ b :: after ∧
        (∀ x ∈ before, ∀ k, x.contains k = true → MessageId.ofKey k ≠ id) ∧
        (∀ k, b.contains k = true ∧ MessageId.ofKey k = id ↔ k = key) ∧
        e.resolveId id l args = e.resolve key l args := by
  obtain ⟨k, hk, rfl⟩ := h
  obtain ⟨b, hb, hkb⟩ := (he.mem_keys_iff_exists k l).1 hk
  obtain ⟨first, hfirst⟩ :=
    Bundle.exists_firstKey (fun b hb => he.sound.indexed_of_mem_bundlesOf hb) hb hkb
  have hr := he.resolveId_of_firstKey hfirst args
  obtain ⟨before, b', after, hs, hn, hc, hid⟩ := hfirst
  have hb' : b' ∈ e.catalog.snapshot.bundlesOf (l.fallbackChain e.default) := by simp [hs]
  have hi : b'.Indexed := he.sound.indexed_of_mem_bundlesOf hb'
  refine ⟨before, b', after, first, hs, hn, fun k' => ?_, hr⟩
  -- the index of a bundle has one key for an identifier
  rw [← hi.keyForId?_eq_some_iff, (hi.keyForId?_eq_some_iff _ first).2 ⟨hc, hid⟩,
    Option.some.injEq, eq_comm]

/-- A key found for an identifier is found again when it is resolved. -/
theorem Coherent.isSome_lookup?_of_keyForId? (he : e.Coherent) {key : String}
    (h : ((e.chain l).2.catalog.snapshot.bundlesOf (e.chain l).1).findSome?
      (Bundle.keyForId? · id) = some key) :
    ((e.chain l).2.catalog.snapshot.lookup? (e.chain l).1 key).isSome = true := by
  obtain ⟨b, hb, hk⟩ := List.exists_of_findSome?_eq_some h
  have hi : b.Indexed := (he.chain l).sound.indexed_of_mem_bundlesOf hb
  obtain ⟨hkb, -⟩ := (hi.keyForId?_eq_some_iff id key).1 hk
  exact (Snapshot.isSome_lookup?_iff _ _ key).2 ⟨b, hb, hkb⟩

/-- Resolving an identifier never reports a missing key. -/
theorem Coherent.resolveId_ne_missingKey (he : e.Coherent) (args : Arguments) (k tag : String)
    (suggestions : List String) :
    (e.resolveId id l args).1 ≠ .error (.missingKey k tag suggestions) := by
  by_cases h : ∃ key ∈ (e.keys l).1, MessageId.ofKey key = id
  · obtain ⟨before, b, after, key, hs, -, hk, hr⟩ := he.resolveId_of_known h args
    have hm : key ∈ (e.keys l).1 :=
      (he.mem_keys_iff_exists key l).2 ⟨b, by simp [hs], ((hk key).2 rfl).1⟩
    rw [hr]
    intro hmissing
    have hn := (resolve_eq_missingKey_iff e key l args k tag suggestions).1 hmissing
    exact hn.2.1 hm
  · rw [he.resolveId_of_unknown fun key hm hid => h ⟨key, hm, hid⟩]
    cases e.settings.missingKey <;> simp [MissingKeyPolicy.answerId]

/-- In every state that a new engine reaches, an identifier that no listed key has is answered
by the policy; any other is resolved as a key, the only one that has it in the first bundle
of the chain with such a key.  The key that an identifier is turned into is always found, so
that no missing key is ever reported. -/
theorem resolveId_by_keys (s : Settings) (ops : List Operation) (id : MessageId) (l : Locale)
    (args : Arguments) :
    ((∀ key ∈ (((new s).run ops).keys l).1, MessageId.ofKey key ≠ id) →
        (((new s).run ops).resolveId id l args).1 =
          ((new s).run ops).settings.missingKey.answerId id l) ∧
      ((∃ key ∈ (((new s).run ops).keys l).1, MessageId.ofKey key = id) →
        ∃ before b after key,
          ((new s).run ops).catalog.snapshot.bundlesOf
              (l.fallbackChain ((new s).run ops).default) = before ++ b :: after ∧
            (∀ x ∈ before, ∀ k, x.contains k = true → MessageId.ofKey k ≠ id) ∧
            (∀ k, b.contains k = true ∧ MessageId.ofKey k = id ↔ k = key) ∧
            ((new s).run ops).resolveId id l args = ((new s).run ops).resolve key l args) ∧
      (∀ key,
        ((((new s).run ops).chain l).2.catalog.snapshot.bundlesOf
            (((new s).run ops).chain l).1).findSome? (Bundle.keyForId? · id) = some key →
          ((((new s).run ops).chain l).2.catalog.snapshot.lookup?
            (((new s).run ops).chain l).1 key).isSome = true) ∧
      ∀ k tag suggestions,
        (((new s).run ops).resolveId id l args).1 ≠ .error (.missingKey k tag suggestions) := by
  have he := coherent_run s ops
  exact ⟨fun h => he.resolveId_of_unknown h args, fun h => he.resolveId_of_known h args,
    fun key h => he.isSome_lookup?_of_keyForId? h, he.resolveId_ne_missingKey args⟩

theorem resolveId_by_keys_sharedIdentifier :
    (((new strict).run sharedIdentifier).resolveId (.ofKey "greeting") .german .empty).1 =
        .error (.missingId (.ofKey "greeting") "de") ∧
      (∃ key, MessageId.ofKey key = .ofKey "LLwCZu4z3qH" ∧
        ((new strict).run sharedIdentifier).resolveId (.ofKey "LLwCZu4z3qH") .german .empty =
          ((new strict).run sharedIdentifier).resolve key .german .empty) ∧
      ((((new strict).run sharedIdentifier).chain .german).2.catalog.snapshot.lookup?
        (((new strict).run sharedIdentifier).chain .german).1 "AuHH3scoLSF").isSome = true := by
  have hk : (((new strict).run sharedIdentifier).keys .german).1 =
      ["AuHH3scoLSF", "LLwCZu4z3qH"] := by
    decide +kernel
  have hp : ((new strict).run sharedIdentifier).settings.missingKey = .error := by decide +kernel
  obtain ⟨hu, -⟩ := resolveId_by_keys strict sharedIdentifier (.ofKey "greeting") .german .empty
  obtain ⟨-, hr, hf, -⟩ :=
    resolveId_by_keys strict sharedIdentifier (.ofKey "LLwCZu4z3qH") .german .empty
  rw [hk] at hu hr
  rw [hp] at hu
  refine ⟨hu (by decide +kernel), ?_, hf _ (by decide +kernel)⟩
  obtain ⟨-, b, -, key, -, -, hb, he⟩ := hr ⟨"LLwCZu4z3qH", by decide, rfl⟩
  exact ⟨key, ((hb key).2 rfl).2, he⟩

end Engine

end Phrasebook
