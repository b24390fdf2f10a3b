import Phrasebook.Proofs.Number.Order
import Phrasebook.Suggestion

/-!
# Phrasebook.Proofs.Engine.Suggestions

Which keys are suggested for a key that is missing.

Scores are given by any function (`ranked`).  The order in which candidates are arranged is
that of the values of their scores and, where these are the same, that of the texts
(`precedes_iff`); it tells any two candidates apart, so there is one arrangement of the eligible
candidates only (`eq_arranged`).  What is suggested is its beginning (`best_iff`), and
does not depend on the order in which the candidates are given.
-/

namespace Phrasebook.Suggestion

open Phrasebook.Number (Double)

/-! ## the order of candidates -/

/-- A candidate that may be suggested: it differs from the target and scores at least 0.8. -/
def Eligible (score : String → Double) (target c : String) : Prop :=
  c ≠ target ∧ Double.le threshold (score c) = true

instance (score : String → Double) (target c : String) : Decidable (Eligible score target c) :=
  inferInstanceAs (Decidable (_ ∧ _))

/-- A candidate stands in front of another: it has the greater score, or the same score and
the smaller text. -/
def Ahead (score : String → Double) (c d : String) : Prop :=
  Double.lt (score d) (score c) = true ∨ score c = score d ∧ c < d

instance (score : String → Double) (c d : String) : Decidable (Ahead score c d) :=
  inferInstanceAs (Decidable (_ ∨ _))

variable {score : String → Double} {target : String} {candidates : List String}

/-- What scores high enough is not negative. -/
theorem Eligible.isNegative {c : String} (h : Eligible score target c) :
    (score c).isNegative = false := by
  have ht : 0 < threshold.signedUnits := by decide +kernel
  have hle : threshold.signedUnits ≤ (score c).signedUnits := of_decide_eq_true h.2
  cases hn : (score c).isNegative with
  | false => rfl
  | true =>
    have hs : (score c).signedUnits = -((score c).units : Int) := by
      rw [Double.signedUnits, hn, if_pos rfl]
    omega

theorem precedes_eq_true_iff {x y : Double × String} :
    precedes x y = true ↔
      y.1.orderKey < x.1.orderKey ∨ x.1.orderKey = y.1.orderKey ∧ x.2 ≤ y.2 := by
  rw [precedes]
  split
  · next h => simp [h]
  · next h => simp [h]

theorem precedes_trans (x y z : Double × String) (hxy : precedes x y = true)
    (hyz : precedes y z = true) : precedes x z = true := by
  rw [precedes_eq_true_iff] at *
  rcases hxy with hlt | ⟨heq, hle⟩
  · left
    omega
  · rcases hyz with hlt' | ⟨heq', hle'⟩
    · left
      omega
    · exact .inr ⟨heq.trans heq', String.le_trans hle hle'⟩

theorem precedes_total (x y : Double × String) : (precedes x y || precedes y x) = true := by
  rw [Bool.or_eq_true, precedes_eq_true_iff, precedes_eq_true_iff]
  rcases Int.lt_trichotomy x.1.orderKey y.1.orderKey with hlt | heq | hgt
  · exact .inr (.inl hlt)
  · rcases String.le_total x.2 y.2 with hle | hle
    · exact .inl (.inr ⟨heq, hle⟩)
    · exact .inr (.inr ⟨heq.symm, hle⟩)
  · exact .inl (.inl hgt)

/-- Candidates are compared by the values of their scores. -/
theorem precedes_iff {c d : String} (hc : Eligible score target c) (hd : Eligible score target d) :
    precedes (score c, c) (score d, d) = true ↔ ¬ Ahead score d c := by
  rw [precedes_eq_true_iff, Ahead, ← Double.orderKey_lt_iff hc.isNegative hd.isNegative,
    ← Double.orderKey_inj, ← String.not_lt]
  grind

/-- Of two candidates one stands in front of the other. -/
theorem eq_of_not_ahead {c d : String} (hc : Eligible score target c)
    (hd : Eligible score target d) (hcd : ¬ Ahead score c d) (hdc : ¬ Ahead score d c) : c = d := by
  rw [← precedes_iff hc hd, precedes_eq_true_iff] at hdc
  rw [← precedes_iff hd hc, precedes_eq_true_iff] at hcd
  obtain ⟨hle, hle'⟩ : c ≤ d ∧ d ≤ c := by grind
  exact String.le_antisymm hle hle'

/-! ## the arrangement -/

/-- The candidates that may be suggested. -/
def eligible (score : String → Double) (target : String) (candidates : List String) :
    List String :=
  candidates.filter fun c => Eligible score target c

theorem mem_eligible {c : String} :
    c ∈ eligible score target candidates ↔ c ∈ candidates ∧ Eligible score target c := by
  rw [eligible, List.mem_filter, decide_eq_true_iff]

/-- They are scored and sorted. -/
theorem ranked_eq_mergeSort (score : String → Double) (target : String) (candidates : List String) :
    ranked score target candidates =
      ((eligible score target candidates).map fun c => (score c, c)).mergeSort precedes := by
  rw [ranked, List.filter_map, eligible]
  refine congrArg (fun cs => (List.map _ cs).mergeSort precedes) (List.filter_congr fun c _ => ?_)
  by_cases hc : c = target <;> simp [Eligible, hc]

/-- What is ranked is a candidate that may be suggested, with its score. -/
theorem mem_ranked {x : Double × String} (h : x ∈ ranked score target candidates) :
    ∃ c, Eligible score target c ∧ x = (score c, c) := by
  rw [ranked_eq_mergeSort, List.mem_mergeSort, List.mem_map] at h
  obtain ⟨c, hc, rfl⟩ := h
  exact ⟨c, (mem_eligible.1 hc).2, rfl⟩

/-- The candidates that may be suggested, best first. -/
def arranged (score : String → Double) (target : String) (candidates : List String) :
    List String :=
  (ranked score target candidates).map Prod.snd

theorem arranged_perm (score : String → Double) (target : String) (candidates : List String) :
    (arranged score target candidates).Perm (eligible score target candidates) := by
  have h := (List.mergeSort_perm ((eligible score target candidates).map fun c => (score c, c))
    precedes).map Prod.snd
  rwa [← ranked_eq_mergeSort, List.map_map, Function.comp_def, List.map_id'] at h

/-- No candidate stands behind one that it is ahead of. -/
theorem pairwise_arranged (score : String → Double) (target : String) (candidates : List String) :
    (arranged score target candidates).Pairwise fun c d => ¬ Ahead score d c := by
  have hp := List.pairwise_mergeSort precedes_trans precedes_total
    ((eligible score target candidates).map fun c => (score c, c))
  rw [← ranked_eq_mergeSort] at hp
  rw [arranged, List.pairwise_map]
  refine hp.imp_of_mem fun {x y} hx hy h => ?_
  obtain ⟨c, hc, rfl⟩ := mem_ranked hx
  obtain ⟨d, hd, rfl⟩ := mem_ranked hy
  exact (precedes_iff hc hd).1 h

/-- There is no other arrangement. -/
theorem eq_arranged {cs : List String} (hp : cs.Perm (eligible score target candidates))
    (hs : cs.Pairwise fun c d => ¬ Ahead score d c) : cs = arranged score target candidates := by
  have ha := arranged_perm score target candidates
  refine List.Perm.eq_of_pairwise (fun c d hc hd hdc hcd => ?_) hs
    (pairwise_arranged score target candidates) (hp.trans ha.symm)
  exact eq_of_not_ahead (mem_eligible.1 (hp.mem_iff.1 hc)).2 (mem_eligible.1 (ha.mem_iff.1 hd)).2
    hcd hdc

/-! ## its beginning -/

/-- The best of the candidates that may be suggested: three of them, or all if there are fewer,
with which an arrangement of all of them begins. -/
structure Best (score : String → Double) (target : String) (candidates suggestions : List String) :
    Prop where
  length_eq : suggestions.length = min 3 (eligible score target candidates).length
  exists_rest : ∃ rest, (suggestions ++ rest).Perm (eligible score target candidates) ∧
    (suggestions ++ rest).Pairwise fun c d => ¬ Ahead score d c

theorem best_iff {suggestions : List String} :
    Best score target candidates suggestions ↔
      suggestions = (arranged score target candidates).take limit := by
  have hp := arranged_perm score target candidates
  constructor
  · rintro ⟨hl, rest, hr, hs⟩
    have ha := eq_arranged hr hs
    have hlen : suggestions.length + rest.length = (eligible score target candidates).length :=
      List.length_append ▸ hr.length_eq
    rw [← ha, limit, List.take_append]
    -- either there are three suggestions, or nothing is left
    rcases Nat.le_total 3 (eligible score target candidates).length with h | h
    · rw [Nat.min_eq_left h] at hl
      simp [hl, List.take_of_length_le]
    · rw [Nat.min_eq_right h] at hl
      have hn : rest = [] := List.eq_nil_of_length_eq_zero (by omega)
      rw [hn, List.take_nil, List.append_nil, List.take_of_length_le (by omega)]
  · rintro rfl
    refine ⟨by rw [List.length_take, hp.length_eq, limit], (arranged score target candidates).drop limit,
      ?_, ?_⟩
    · rwa [List.take_append_drop]
    · rw [List.take_append_drop]
      exact pairwise_arranged score target candidates

/-- The arrangement does not depend on the order of the candidates. -/
theorem arranged_congr {others : List String} (h : candidates.Perm others) :
    arranged score target others = arranged score target candidates :=
  (eq_arranged ((arranged_perm score target candidates).trans (h.filter _))
    (pairwise_arranged score target candidates)).symm

/-- The similarity of a candidate to the target. -/
def scoreOf (target c : String) : Double := similarity target.toList c.toList

theorem suggest_eq_take (target : String) (candidates : List String) :
    suggest target candidates = (arranged (scoreOf target) target candidates).take limit :=
  List.map_take

/-- The suggestions for a target are the first three, or all if there are fewer, of the candidates
that differ from it and score at least 0.8, arranged by descending score and then by
ascending text, and no other list is.  So no eligible candidate that is left out stands
in front of one that is suggested, and the order of the candidates makes no difference. -/
theorem suggest_best (target : String) (candidates : List String) :
    (∀ suggestions, suggest target candidates = suggestions ↔
      Best (scoreOf target) target candidates suggestions) ∧
    (∀ c ∈ eligible (scoreOf target) target candidates, ∀ s ∈ suggest target candidates,
      Ahead (scoreOf target) c s → c ∈ suggest target candidates) ∧
    ∀ others, candidates.Perm others → suggest target others = suggest target candidates := by
  refine ⟨fun suggestions => ?_, fun c hc s hs hcs => ?_, fun others h => ?_⟩
  · rw [best_iff, suggest_eq_take, eq_comm]
  · obtain ⟨-, rest, hp, hr⟩ := best_iff.2 (suggest_eq_take target candidates)
    rcases List.mem_append.1 (hp.mem_iff.2 hc) with h | h
    · exact h
    · exact absurd hcs ((List.pairwise_append.1 hr).2.2 s hs c h)
  · rw [suggest_eq_take, suggest_eq_take, arranged_congr h]

/-- Keys that resemble `menu.open`, one of them twice and two with the same score. -/
def resembling : List String :=
  ["menu.opem", "menu.opens", "menu.open", "menu.opex", "menu.opens"]

theorem suggest_best_resembling :
    suggest "menu.open" resembling = ["menu.opens", "menu.opens", "menu.opem"] ∧
      suggest "menu.open" resembling.reverse = ["menu.opens", "menu.opens", "menu.opem"] := by
  obtain ⟨hb, -, hp⟩ := suggest_best "menu.open" resembling
  have h : suggest "menu.open" resembling = ["menu.opens", "menu.opens", "menu.opem"] := by
    refine (hb _).2 ⟨by decide +kernel, ["menu.opex"], by decide +kernel, by decide +kernel⟩
  exact ⟨h, (hp _ (List.reverse_perm _).symm).trans h⟩

end Phrasebook.Suggestion
