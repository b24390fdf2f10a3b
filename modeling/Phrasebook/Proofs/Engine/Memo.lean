import Phrasebook.Proofs.Engine.Coherence
import Phrasebook.Proofs.Locale.Fallback

/-!
# Phrasebook.Proofs.Engine.Memo

What the memo of fallback chains holds, told from what was asked for.

A query asks for the chain of one locale; a new default locale makes the memo forget
(`asked`).  In a coherent engine a chain that is remembered is recalled, and any other is
remembered as long as there is room (`Coherent.chain_cases`).  So the memo has the chains of
the first 256 different locales that were asked for (`Remembers`), which every operation
carries on (`Remembers.perform`).

A chain ends with the default locale that it was computed for, so a memo that has chains for a
former default locale is never believed (`chain_eq_of_former`).
-/

namespace Phrasebook.Engine

/-! ## what is asked for -/

/-- The locales asked for since the default locale was last set, after an operation. -/
def Operation.asking (e : Engine) (ls : List Locale) : Operation → List Locale
  | .query q => ls ++ [q.locale e]
  | .setDefault _ => []
  | _ => ls

/-- The locales asked for since the default locale was last set, after a run; `ls` are those
that were asked for before it. -/
def asked (e : Engine) (ls : List Locale) : List Operation → List Locale
  | [] => ls
  | op :: ops => (e.perform op).asked (op.asking e ls) ops

/-- The locales that the memo has room for: the first ones asked for, each once. -/
def remembered (ls : List Locale) : List Locale := ls.eraseDups.take maxChains

section
variable {ls : List Locale} {l : Locale}

theorem eraseDups_concat :
    (ls ++ [l]).eraseDups = if l ∈ ls then ls.eraseDups else ls.eraseDups ++ [l] := by
  have hl : [l].eraseDups = [l] := rfl
  rw [List.eraseDups_append]
  split <;> simp_all [List.removeAll]

/-- A locale that is remembered is not remembered again. -/
theorem remembered_concat_of_mem (h : l ∈ remembered ls) :
    remembered (ls ++ [l]) = remembered ls := by
  have hl : l ∈ ls := List.mem_eraseDups.1 (List.mem_of_mem_take h)
  rw [remembered, eraseDups_concat, if_pos hl, remembered]

/-- Where there is room another locale is remembered. -/
theorem remembered_concat_of_lt (h : l ∉ remembered ls) (hlt : (remembered ls).length < maxChains) :
    remembered (ls ++ [l]) = remembered ls ++ [l] := by
  have hlen : ls.eraseDups.length < maxChains := by
    rw [remembered, List.length_take] at hlt
    omega
  have hall : remembered ls = ls.eraseDups := List.take_of_length_le (Nat.le_of_lt hlen)
  rw [hall, List.mem_eraseDups] at h
  rw [hall, remembered, eraseDups_concat, if_neg h, List.take_of_length_le]
  rw [List.length_append, List.length_singleton]
  omega

/-- Where there is no room nothing is. -/
theorem remembered_concat_of_le (hle : maxChains ≤ (remembered ls).length) :
    remembered (ls ++ [l]) = remembered ls := by
  have hlen : maxChains ≤ ls.eraseDups.length := by
    rw [remembered, List.length_take] at hle
    omega
  rw [remembered, eraseDups_concat]
  split
  · rfl
  · rw [List.take_append_of_le_length hlen, remembered]

end

/-! ## one chain -/

variable {e : Engine} {l : Locale}

/-- A chain is the current one, whatever default locales the chains of the memo are for. -/
theorem chain_eq_of_former
    (h : ∀ (l : Locale) (chain : List Locale), e.chains[l.tag]? = some chain →
      ∃ former, chain = l.fallbackChain former) (l : Locale) :
    (e.chain l).1 = l.fallbackChain e.default := by
  unfold chain
  split
  · next chain hm =>
    obtain ⟨hc, hlast⟩ := Option.filter_eq_some_iff.1 hm
    obtain ⟨former, rfl⟩ := h l chain hc
    rw [Locale.getLast?_fallbackChain, beq_iff_eq, Option.some.injEq] at hlast
    rw [hlast]
  · rfl

/-- What asking for a chain does to the memo of a coherent engine. -/
theorem Coherent.chain_cases (he : e.Coherent) (l : Locale) :
    l.tag ∈ e.chains ∧ (e.chain l).2 = e ∨
      l.tag ∉ e.chains ∧ e.chains.size < maxChains ∧
        (e.chain l).2 = { e with chains := e.chains.insert l.tag (l.fallbackChain e.default) } ∨
      l.tag ∉ e.chains ∧ maxChains ≤ e.chains.size ∧ (e.chain l).2 = e := by
  unfold Engine.chain memoized?
  cases hc : e.chains[l.tag]? with
  | some chain =>
    have hm : l.tag ∈ e.chains := by
      rw [Std.TreeMap.mem_iff_isSome_getElem?, hc, Option.isSome_some]
    have hlast : (chain.getLast? == some e.default) = true := by
      rw [he.memo l chain hc, Locale.getLast?_fallbackChain, beq_self_eq_true]
    rw [Option.filter_some, if_pos hlast]
    exact .inl ⟨hm, rfl⟩
  | none =>
    have hn : l.tag ∉ e.chains := by simp [Std.TreeMap.mem_iff_isSome_getElem?, hc]
    right
    rw [Option.filter_none]
    dsimp only
    rw [Engine.memoize]
    by_cases hlt : e.chains.size < maxChains
    · rw [if_pos (.inl hlt)]
      exact .inl ⟨hn, hlt, rfl⟩
    · rw [if_neg fun h => h.elim hlt fun h => hn (Std.TreeMap.contains_iff_mem.1 h)]
      exact .inr ⟨hn, Nat.le_of_not_lt hlt, rfl⟩

/-! ## runs -/

/-- The memo has the chains of the locales that it has room for. -/
structure Remembers (e : Engine) (ls : List Locale) : Prop where
  mem_iff : ∀ tag, tag ∈ e.chains ↔ ∃ l ∈ remembered ls, l.tag = tag
  size_eq : e.chains.size = (remembered ls).length

theorem remembers_of_isEmpty (h : e.chains = ∅) : e.Remembers [] where
  mem_iff tag := by simp [h, remembered]
  size_eq := by simp [h, remembered]

variable {ls : List Locale}

theorem Remembers.tag_mem_iff (hr : e.Remembers ls) : l.tag ∈ e.chains ↔ l ∈ remembered ls := by
  rw [hr.mem_iff]
  constructor
  · rintro ⟨l', hl', ht⟩
    exact Locale.tag_injective ht ▸ hl'
  · exact fun hl => ⟨l, hl, rfl⟩

/-- Asking for a chain. -/
theorem Remembers.chain (hr : e.Remembers ls) (he : e.Coherent) (l : Locale) :
    (e.chain l).2.Remembers (ls ++ [l]) := by
  rcases he.chain_cases l with ⟨hm, h⟩ | ⟨hn, hlt, h⟩ | ⟨-, hle, h⟩
  · have hc := remembered_concat_of_mem (hr.tag_mem_iff.1 hm)
    rw [h]
    exact ⟨hc ▸ hr.mem_iff, hc ▸ hr.size_eq⟩
  · have hc := remembered_concat_of_lt (fun hl => hn (hr.tag_mem_iff.2 hl)) (hr.size_eq ▸ hlt)
    rw [h]
    refine ⟨fun tag => ?_, ?_⟩
    · simp only [hc, Std.TreeMap.mem_insert, Std.LawfulEqCmp.compare_eq_iff_eq, hr.mem_iff,
        List.mem_append, List.mem_singleton, or_and_right, exists_or, exists_eq_left]
      exact or_comm
    · simp [Std.TreeMap.size_insert, hn, hc, hr.size_eq]
  · have hc := remembered_concat_of_le (l := l) (hr.size_eq ▸ hle)
    rw [h]
    exact ⟨hc ▸ hr.mem_iff, hc ▸ hr.size_eq⟩

/-- The memo alone decides what is remembered. -/
theorem Remembers.of_chains_eq (hr : e.Remembers ls) {e' : Engine} (h : e'.chains = e.chains) :
    e'.Remembers ls :=
  ⟨h ▸ hr.mem_iff, h ▸ hr.size_eq⟩

theorem chains_publish (e : Engine) (loads : Except LoadError (List (Locale × Entries)))
    (mode : LoadMode) : (e.publish loads mode).chains = e.chains := by
  obtain ⟨n, h⟩ | ⟨ls, versions, s, n, -, h⟩ := publish_cases e loads mode <;> rw [h]
  rfl

theorem chains_unload (e : Engine) (l : Locale) : (e.unload l).2.chains = e.chains := by
  unfold unload
  split <;> rfl

/-- One operation. -/
theorem Remembers.perform (hr : e.Remembers ls) (he : e.Coherent) (op : Operation) :
    (e.perform op).Remembers (op.asking e ls) := by
  cases op with
  | load l entries mode =>
    refine hr.of_chains_eq ?_
    rw [Engine.perform, load_eq_publish, chains_publish]
  | loadFrom loaded mode =>
    refine hr.of_chains_eq ?_
    rw [Engine.perform, loadFrom_eq_publish, chains_publish]
  | unload l => exact hr.of_chains_eq (chains_unload e l)
  | setDefault l => exact remembers_of_isEmpty rfl
  | setActive l => exact hr.of_chains_eq rfl
  | query q =>
    refine (hr.chain he (q.locale e)).of_chains_eq ?_
    rw [Engine.perform, (touched_ask e q).frame]

theorem Remembers.run (hr : e.Remembers ls) (he : e.Coherent) (ops : List Operation) :
    (e.run ops).Remembers (e.asked ls ops) := by
  induction ops generalizing e ls with
  | nil => exact hr
  | cons op ops ih => exact ih (hr.perform he op) (he.perform op)

/-- After every run of a new engine the memo has at most 256 chains.  Each is the chain of its
locale for the locale that it ends with, and those remembered are the first 256 different
locales that were asked for since the default locale was last set.  A chain is always the
current one, even from a memo with chains for former default locales. -/
theorem memo_of_run (s : Settings) (ops : List Operation) :
    ((new s).run ops).chains.size ≤ 256 ∧
      (∀ (l : Locale) (chain : List Locale), ((new s).run ops).chains[l.tag]? = some chain →
        ∃ last, chain.getLast? = some last ∧ chain = l.fallbackChain last) ∧
      (∀ tag, tag ∈ ((new s).run ops).chains ↔
        ∃ l ∈ ((new s).asked [] ops).eraseDups.take 256, l.tag = tag) ∧
      ∀ e : Engine,
        (∀ (l : Locale) (chain : List Locale), e.chains[l.tag]? = some chain →
          ∃ former, chain = l.fallbackChain former) →
        ∀ l, (e.chain l).1 = l.fallbackChain e.default := by
  have hr := (remembers_of_isEmpty (e := new s) rfl).run (coherent_new s) ops
  refine ⟨?_, fun l chain h => ?_, hr.mem_iff, fun e h => chain_eq_of_former h⟩
  · rw [hr.size_eq]
    exact List.length_take_le _ _
  · have hc := (coherent_run s ops).memo l chain h
    refine ⟨((new s).run ops).default, ?_, hc⟩
    rw [hc, Locale.getLast?_fallbackChain]

/-- German is asked for before it becomes the default locale, English twice afterwards. -/
def resetting : List Operation :=
  [.query (.keys .german), .setDefault .german, .query (.contains "k" .english),
    .query (.chain .english)]

/-- An engine that has the chain of English for a former default locale in its memo. -/
def outdated : Engine :=
  { new (.ofDefault .german) with
    chains := (new (.ofDefault .german)).chains.insert Locale.english.tag [.english] }

theorem memo_of_run_outdated :
    (∀ tag, tag ∈ ((new (.ofDefault .english)).run resetting).chains ↔ tag = "en") ∧
      (outdated.chain .english).1 = [.english, .german] := by
  obtain ⟨-, -, hm, hc⟩ := memo_of_run (.ofDefault .english) resetting
  have ha : ((new (.ofDefault .english)).asked [] resetting).eraseDups.take 256 = [.english] := by
    decide +kernel
  have ht : Locale.english.tag = "en" := by decide +kernel
  refine ⟨fun tag => ?_, (hc outdated ?_ .english).trans (by decide +kernel)⟩
  · rw [hm tag, ha]
    simp [ht, eq_comm]
  · intro l chain h
    obtain ⟨hl, rfl⟩ | ⟨-, h⟩ := getElem?_insert_cases h
    · rw [← Locale.tag_injective hl]
      exact ⟨.english, by decide +kernel⟩
    · rw [new, Std.TreeMap.getElem?_emptyc] at h
      cases h

end Phrasebook.Engine
