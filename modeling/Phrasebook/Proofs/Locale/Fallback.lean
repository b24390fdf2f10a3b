import Mathlib.Data.List.Nodup
import Mathlib.Data.List.ReduceOption
import Mathlib.Data.List.TakeWhile
import Phrasebook.Locale.Fallback

/-!
# Phrasebook.Proofs.Locale.Fallback

The shape of a fallback chain.

What a request is relaxed to is a list of its own, whatever the default locale: one, two or
four locales of fewer and fewer subtags (`map_subtags_eraseDups_candidates`).  A chain is
this list up to the default locale, and the default locale (`fallbackChain_eq_takeWhile`);
it makes no difference to this form whether the default locale is one of the list.
-/

namespace Phrasebook.Locale

/-! ## relaxing -/

/-- A request and what it is relaxed to: the request, without its region if it has one, without
its script if it has both, and its bare language. -/
def candidates (l : Locale) : List Locale :=
  [some l, l.region.map fun _ => l.withoutRegion,
    if l.script.isSome ∧ l.region.isSome then some l.withoutScript else none,
    some l.languageOnly].reduceOption

/-- The subtags of a request and of what it is relaxed to, each once. -/
def relaxedSubtags (l : Locale) : List (List String) :=
  match l.script, l.region with
  | none, none => [[l.language]]
  | some s, none => [[l.language, s], [l.language]]
  | none, some r => [[l.language, r], [l.language]]
  | some s, some r =>
    [[l.language, s, r], [l.language, s], [l.language, r], [l.language]]

theorem relaxations_eq_eraseDups (l : Locale) : l.relaxations = l.candidates.eraseDups := by
  rw [relaxations, candidates]
  cases hs : l.script <;> cases hr : l.region <;> simp [List.reduceOption]

/-- The candidates are told apart by the subtags that they have. -/
theorem map_subtags_eraseDups_candidates (l : Locale) :
    l.candidates.eraseDups.map subtags = l.relaxedSubtags := by
  obtain ⟨language, script, region, hl, hs, hr⟩ := l
  cases script <;> cases region <;>
    simp [candidates, relaxedSubtags, List.reduceOption, List.eraseDups_cons, withoutRegion,
      withoutScript, languageOnly, subtags]

/-- Without duplicates every candidate is there once. -/
theorem nodup_eraseDups : (ls : List Locale) → ls.eraseDups.Nodup
  | [] => List.nodup_nil
  | l :: ls => by
    rw [List.eraseDups_cons, List.nodup_cons, List.mem_eraseDups]
    exact ⟨by simp, nodup_eraseDups _⟩
termination_by ls => ls.length
decreasing_by
  rw [List.length_cons]
  exact Nat.lt_succ_of_le (List.length_filter_le _ _)

/-- What comes later is relaxed further. -/
theorem pairwise_candidates (l : Locale) :
    l.candidates.eraseDups.Pairwise fun a b => b.subtags.length ≤ a.subtags.length := by
  have h : l.relaxedSubtags.Pairwise fun a b => b.length ≤ a.length := by
    rw [relaxedSubtags]
    split <;> simp
  rw [← map_subtags_eraseDups_candidates, List.pairwise_map] at h
  exact h

/-! ## ending -/

/-- A list that ends at a locale is what stands in front of the locale, and the locale. -/
theorem endingAt_eq_takeWhile (last : Locale) (ls : List Locale) :
    endingAt last ls = ls.takeWhile (· ≠ last) ++ [last] := by
  induction ls with
  | nil => rfl
  | cons l ls ih =>
    rw [endingAt]
    by_cases h : l = last
    · simp [h]
    · simp [h, ih]

theorem fallbackChain_eq_takeWhile (requested default : Locale) :
    requested.fallbackChain default =
      requested.candidates.eraseDups.takeWhile (· ≠ default) ++ [default] := by
  rw [fallbackChain, relaxations_eq_eraseDups, endingAt_eq_takeWhile]

/-- Up to and including an element a list is a prefix of itself. -/
theorem takeWhile_concat_prefix {ls : List Locale} {last : Locale} (h : last ∈ ls) :
    ls.takeWhile (· ≠ last) ++ [last] <+: ls := by
  induction ls with
  | nil => cases h
  | cons l ls ih =>
    by_cases hl : l = last
    · simp [hl]
    · have hm : last ∈ ls := (List.mem_cons.1 h).resolve_left (Ne.symm hl)
      simpa [hl] using ih hm

/-- A chain is cut where the default locale stands. -/
theorem fallbackChain_prefix {requested default : Locale}
    (h : default ∈ requested.candidates.eraseDups) :
    requested.fallbackChain default <+: requested.candidates.eraseDups := by
  rw [fallbackChain_eq_takeWhile]
  exact takeWhile_concat_prefix h

theorem fallbackChain_of_not_mem {requested default : Locale}
    (h : default ∉ requested.candidates.eraseDups) :
    requested.fallbackChain default = requested.candidates.eraseDups ++ [default] := by
  rw [fallbackChain_eq_takeWhile, List.takeWhile_eq_self_iff.2]
  intro l hl
  have hn : l ≠ default := by
    rintro rfl
    exact h hl
  exact decide_eq_true hn

theorem head?_fallbackChain (requested default : Locale) :
    (requested.fallbackChain default).head? = some requested := by
  obtain ⟨rest, hr⟩ : ∃ rest, requested.candidates.eraseDups = requested :: rest :=
    ⟨_, List.eraseDups_cons⟩
  rw [fallbackChain_eq_takeWhile, hr]
  by_cases h : requested = default <;> simp [h]

theorem getLast?_fallbackChain (requested default : Locale) :
    (requested.fallbackChain default).getLast? = some default := by
  rw [fallbackChain_eq_takeWhile, List.getLast?_concat]

/-- What stands in front of the default locale is without duplicates and is not the default
locale. -/
theorem nodup_fallbackChain (requested default : Locale) :
    (requested.fallbackChain default).Nodup := by
  rw [fallbackChain_eq_takeWhile, List.nodup_append]
  have hp := List.takeWhile_prefix (l := requested.candidates.eraseDups) (· ≠ default)
  refine ⟨(nodup_eraseDups _).sublist hp.sublist, List.nodup_singleton default, ?_⟩
  intro a ha b hb
  rw [List.mem_singleton.1 hb]
  have hn := List.mem_takeWhile_imp ha
  exact of_decide_eq_true hn

theorem pairwise_dropLast_fallbackChain (requested default : Locale) :
    (requested.fallbackChain default).dropLast.Pairwise fun a b =>
      b.subtags.length ≤ a.subtags.length := by
  rw [fallbackChain_eq_takeWhile, List.dropLast_concat]
  exact (pairwise_candidates requested).sublist (List.takeWhile_prefix _).sublist

/-- The chain of a request, where R is the request, without its region if it has one, without
its script if it has both, and its bare language, each once: R up to and including the
default locale, or R and the default locale if R does not have it.  So the chain begins with
the request, ends with the default locale and has no locale twice; and in front of the
default locale subtags are dropped and never added. -/
theorem fallbackChain_upTo_default (requested default : Locale) :
    (if default ∈ requested.candidates.eraseDups then
      requested.fallbackChain default =
          requested.candidates.eraseDups.takeWhile (· ≠ default) ++ [default] ∧
        requested.fallbackChain default <+: requested.candidates.eraseDups
    else
      requested.fallbackChain default = requested.candidates.eraseDups ++ [default]) ∧
    requested.candidates.eraseDups.map subtags = requested.relaxedSubtags ∧
    (requested.fallbackChain default).head? = some requested ∧
    (requested.fallbackChain default).getLast? = some default ∧
    (requested.fallbackChain default).Nodup ∧
    (requested.fallbackChain default).count default = 1 ∧
    (requested.fallbackChain default).dropLast.Pairwise fun a b =>
      b.subtags.length ≤ a.subtags.length := by
  have hc := fallbackChain_eq_takeWhile requested default
  refine ⟨?_, map_subtags_eraseDups_candidates requested, head?_fallbackChain requested default,
    ?_, nodup_fallbackChain requested default, ?_,
    pairwise_dropLast_fallbackChain requested default⟩
  · split
    · next h => exact ⟨hc, fallbackChain_prefix h⟩
    · next h => exact fallbackChain_of_not_mem h
  · rw [hc, List.getLast?_concat]
  · exact List.count_eq_one_of_mem (nodup_fallbackChain requested default) (by simp [hc])

end Phrasebook.Locale
