import Mathlib.Data.List.Basic
import Phrasebook.Proofs.Evaluation.References

/-!
# Phrasebook.Proofs.Evaluation.Missing

Missing arguments under the policies.

Which arguments an evaluation misses is read off its pieces, which know nothing of
policies.  So the policies differ in what they make of the same missing names: they
write texts and record the names, each once, or they fail at the first
(`Pieces.message_eq_error_iff`); and where nothing is missing they all give the same message
(`Pieces.message_of_missing_eq_nil`).

An argument is missed by a placeholder or a choice that refers to it and finds no
value (`Tree.mem_references_of_missing`).
-/

namespace Phrasebook

/-! ## names recorded once -/

namespace Context

theorem nodup_addMissing {c : Context} (h : c.missing.Nodup) (name : String) :
    (c.addMissing name).missing.Nodup := by
  unfold addMissing
  split
  · exact h
  · next hn =>
    refine List.nodup_append.2 ⟨h, List.pairwise_singleton _ name, ?_⟩
    rintro a ha b hb rfl
    exact hn (List.mem_singleton.1 hb ▸ ha)

/-- Recording keeps every name single. -/
theorem nodup_record {c : Context} (h : c.missing.Nodup) (names : List String) :
    (c.record names).missing.Nodup := by
  induction names generalizing c with
  | nil => rwa [record_nil]
  | cons name names ih =>
    rw [record_cons]
    exact ih (nodup_addMissing h name)

end Context

/-! ## missing pieces -/

namespace Tree

section

variable {args : Arguments} {l : Locale} {r : Reference} {source : String}

mutual

/-- What a tree misses is one of its references, without a value. -/
theorem mem_references_of_missing : (t : Tree) → (q : Option Value) →
    .missing r source ∈ t.pieces args l q → r ∈ t.references ∧ args.get? r = none
  | .sequence ns, q, h => by
    rw [pieces] at h
    exact mem_references_of_missing_nodes ns q h

theorem mem_references_of_missing_nodes : (ns : List (Node Tree)) → (q : Option Value) →
    .missing r source ∈ piecesNodes args l q ns →
      r ∈ (sequence ns).references ∧ args.get? r = none
  | [], _, h => by cases h
  | .literal s :: rest, q, h => by
    rw [piecesNodes] at h
    obtain h | h := List.mem_cons.1 h
    · cases h
    · exact (mem_references_of_missing_nodes rest q h).imp_left mem_references_tail
  | .placeholder r' d source' :: rest, q, h => by
    rw [piecesNodes] at h
    obtain h | h := List.mem_cons.1 h
    · cases ha : args.get? r' with
      | some v =>
        rw [ha] at h
        cases h
      | none =>
        rw [ha] at h
        cases h
        exact ⟨mem_references_head rfl, ha⟩
    · exact (mem_references_of_missing_nodes rest q h).imp_left mem_references_tail
  | .quantity :: rest, q, h => by
    rw [piecesNodes_cons, List.mem_append] at h
    obtain h | h := h
    · cases q <;> simp [piecesNodes] at h
    · exact (mem_references_of_missing_nodes rest q h).imp_left mem_references_tail
  | .plural r' bs source' :: rest, q, h => by
    rw [piecesNodes, List.mem_append] at h
    obtain h | h := h
    · cases ha : args.get? r' with
      | none =>
        simp only [ha, List.mem_singleton] at h
        cases h
        exact ⟨mem_references_head rfl, ha⟩
      | some v =>
        simp only [ha] at h
        split at h
        · next b hs =>
          obtain ⟨⟨body, hb, hr⟩, hn⟩ :=
            mem_references_of_missing_branches bs v b (Branch.mem_of_select? hs) h
          exact ⟨mem_references_body hb hr, hn⟩
        · simp at h
    · exact (mem_references_of_missing_nodes rest q h).imp_left mem_references_tail

theorem mem_references_of_missing_branches : (bs : List (Branch Tree)) → (v : Value) →
    ∀ b ∈ piecesBranches args l v bs, .missing r source ∈ b.body →
      (∃ body ∈ bs.map Branch.body, r ∈ body.references) ∧ args.get? r = none
  | [], _, b, hb, _ => by cases hb
  | ⟨s, body⟩ :: rest, v, b, hb, h => by
    rw [piecesBranches] at hb
    obtain rfl | hb := List.mem_cons.1 hb
    · obtain ⟨hr, hn⟩ := mem_references_of_missing body (some v) h
      exact ⟨⟨body, List.mem_cons_self, hr⟩, hn⟩
    · obtain ⟨⟨body', hb', hr⟩, hn⟩ := mem_references_of_missing_branches rest v b hb h
      exact ⟨⟨body', List.mem_cons_of_mem _ hb', hr⟩, hn⟩

end

end

end Tree

/-! ## what the policies make of pieces -/

namespace Pieces

theorem mem_missing {ps : List Piece} {name : String} :
    name ∈ missing ps ↔ ∃ r source, .missing r source ∈ ps ∧ r.render = name := by
  rw [missing, List.mem_filterMap]
  constructor
  · rintro ⟨p, hp, h⟩
    cases p with
    | missing r source =>
      cases h
      exact ⟨r, source, hp, rfl⟩
    | text | value | dropped => cases h
  · rintro ⟨r, source, hp, rfl⟩
    exact ⟨_, hp, rfl⟩

/-- Where missing arguments are errors, pieces fail at the first of the names that are
recorded where they are not. -/
theorem failure?_error (ps : List Piece) :
    failure? .error ps = (recorded .leave ps).head? := by
  rw [failure?, ← List.head?_filterMap, ← missing]
  change (missing ps).head? = (missing ps).eraseDups.head?
  cases missing ps with
  | nil => rfl
  | cons name names => rw [List.eraseDups_cons, List.head?_cons, List.head?_cons]

theorem message_eq_error_iff (key : String) (ps : List Piece) (e : ResolveError) :
    message key .error ps = .error e ↔
      (recorded .leave ps).head?.map (.missingArgument key) = some e := by
  rw [message, ← failure?_error]
  cases failure? .error ps <;> simp

/-- A policy says only what missing pieces become. -/
theorem segment?_of_missing? {p : Piece} (h : p.missing? = none)
    (policy policy' : MissingArgumentPolicy) : p.segment? policy = p.segment? policy' := by
  cases p with
  | missing r source => cases h
  | text | value | dropped => rfl

/-- Pieces that miss nothing give one message under all policies. -/
theorem message_of_missing_eq_nil {ps : List Piece} (h : missing ps = []) (key : String)
    (policy : MissingArgumentPolicy) :
    message key policy ps = .ok ⟨Message.merged (ps.filterMap (Piece.segment? .leave))⟩ := by
  have hn := List.filterMap_eq_nil_iff.1 h
  have hf : failure? policy ps = none := by
    cases policy with
    | error => exact List.findSome?_eq_none_iff.2 hn
    | leave | marker => rfl
  have hs : ps.filterMap (Piece.segment? policy) = ps.filterMap (Piece.segment? .leave) :=
    List.filterMap_congr fun p hp => segment?_of_missing? (hn p hp) policy .leave
  rw [message, hf, hs]

end Pieces

namespace Template

/-! ## policies -/

/-- The arguments that an evaluation misses, as it records them where placeholders are left
as they are written. -/
def missingArguments (t : Template) (key : String) (l : Locale) (args : Arguments) :
    List String :=
  (t.evaluate (.fresh key l args .leave)).2.missing

/-- All policies describe one evaluation.  Those that write a text record the same names,
each once; the names are arguments of the template, and of references without a value.
Where missing arguments are errors, the evaluation fails exactly if a name is recorded
elsewhere, at the first of them.  If there is none, all policies give the same message. -/
theorem policies_record_alike (text key : String) (l : Locale) (args : Arguments) :
    (∀ mark, ((parse text).evaluate (.fresh key l args (.marker mark))).2.missing =
        (parse text).missingArguments key l args) ∧
      ((parse text).missingArguments key l args).Nodup ∧
      (∀ name ∈ (parse text).missingArguments key l args,
        name ∈ (parse text).arguments ∧
          ∀ r ∈ (parse text).references, r.render = name → args.get? r = none) ∧
      (∀ e, ((parse text).evaluate (.fresh key l args .error)).1 = .error e ↔
        ((parse text).missingArguments key l args).head?.map (.missingArgument key) = some e) ∧
      ((parse text).missingArguments key l args = [] →
        ∃ m, ∀ policy, ((parse text).evaluate (.fresh key l args policy)).1 = .ok m) := by
  have he : ∀ policy, (parse text).evaluate (.fresh key l args policy) = _ := fun policy =>
    evaluate_eq_message (parse text) (c := .fresh key l args policy) rfl
  have hm : (parse text).missingArguments key l args =
      (Pieces.missing ((parse text).tree.pieces args l none)).eraseDups := by
    rw [missingArguments, he]
    rfl
  refine ⟨fun mark => ?_, ?_, fun name hname => ?_, fun e => ?_, fun hnil => ?_⟩
  · rw [hm, he]
    rfl
  · have hc : (Context.fresh key l args .leave).missing = [] := rfl
    have hr := Context.record_of_nil hc
      (Pieces.missing ((parse text).tree.pieces args l none))
    have hn := Context.nodup_record (hc ▸ List.nodup_nil)
      (Pieces.missing ((parse text).tree.pieces args l none))
    rw [hr] at hn
    rwa [hm]
  · rw [hm, List.mem_eraseDups] at hname
    obtain ⟨r, source, hp, rfl⟩ := Pieces.mem_missing.1 hname
    obtain ⟨hr, hn⟩ := Tree.mem_references_of_missing _ none hp
    rw [← references_parse] at hr
    refine ⟨(mem_arguments _ _).2 ⟨r, hr, rfl⟩, fun r' hr' h => ?_⟩
    rwa [render_inj_of_mem_references hr' hr h]
  · rw [hm, he]
    exact Pieces.message_eq_error_iff key _ e
  · have hp : Pieces.missing ((parse text).tree.pieces args l none) = [] := by
      refine List.eq_nil_iff_forall_not_mem.2 fun name hname => ?_
      rw [hm] at hnil
      exact List.not_mem_nil (hnil ▸ List.mem_eraseDups.2 hname)
    exact ⟨_, fun policy => (congrArg Prod.fst (he policy)).trans
      (Pieces.message_of_missing_eq_nil hp key policy)⟩

/-- Arguments for all that is read when the choice is for five. -/
def complete : Arguments :=
  ((five.insert "k" (.text "a")).insert "m" (.text "b")).push (.text "c")

theorem policies_record_alike_branching :
    (∀ mark, ((parse branching).evaluate (.fresh "key" .english five (.marker mark))).2.missing =
        ["k", "0", "m"]) ∧
      five.get? (.name "m") = none ∧
      ((parse branching).evaluate (.fresh "key" .english five .error)).1 =
        .error (.missingArgument "key" "k") ∧
      ∃ m, ∀ policy,
        ((parse branching).evaluate (.fresh "key" .english complete policy)).1 = .ok m := by
  have hl : (parse branching).missingArguments "key" .english five = ["k", "0", "m"] := by
    decide +kernel
  have hm : Reference.name "m" ∈ (parse branching).references := by decide +kernel
  obtain ⟨hmark, -, hnone, herror, -⟩ := policies_record_alike branching "key" .english five
  obtain ⟨-, -, -, -, hsame⟩ := policies_record_alike branching "key" .english complete
  rw [hl] at hnone herror
  refine ⟨fun mark => (hmark mark).trans hl, (hnone "m" (by simp)).2 _ hm rfl,
    (herror _).2 rfl, hsame ?_⟩
  decide +kernel

end Template

end Phrasebook
