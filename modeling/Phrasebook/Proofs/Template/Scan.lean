import Mathlib.Data.List.Basic
import Phrasebook.Proofs.Template.Layout
import Phrasebook.Proofs.Template.Memo

/-!
# Phrasebook.Proofs.Template.Scan

Reading a template takes every character once.

`Grammar.portions` lists the nodes of a sequence with the text that each one took.  At
the top no character stops the reader, so the portions make up the whole template
(`flatMap_portions_top`).  A placeholder keeps the text that it took as its source
(`source_of_mem_portions`), and where there is no backslash the other nodes stand for
their text too (`written_of_mem_portions`).

What the readers below have to give is little: that a placeholder takes no more than there
is, and keeps it (`Inner.Keeps`).
-/

namespace Phrasebook

namespace Node

variable {β γ : Type}

/-- The text of a placeholder or choice as written. -/
def source? : Node β → Option String
  | .placeholder _ _ source | .plural _ _ source => some source
  | .literal _ | .quantity => none

/-- The text that a node stands for while no argument is known. -/
def written : Node β → List Char
  | .literal s => s.toList
  | .placeholder _ _ source | .plural _ _ source => source.toList
  | .quantity => ['#']

theorem source?_map (f : β → γ) (x : Node β) : (x.map f).source? = x.source? := by
  cases x <;> rfl

theorem written_of_source? {x : Node β} {source : String} (h : x.source? = some source) :
    x.written = source.toList := by
  cases x <;> cases h <;> rfl

end Node

/-! ## merging keeps the text -/

namespace Tree

theorem written_consMerged (x : Node Tree) (ns : List (Node Tree)) :
    (consMerged x ns).flatMap Node.written = x.written ++ ns.flatMap Node.written := by
  unfold consMerged
  split <;> simp [Node.written]

theorem written_merged (ns : List (Node Tree)) :
    (merged ns).nodes.flatMap Node.written = ns.flatMap Node.written := by
  rw [merged, nodes]
  induction ns with
  | nil => rfl
  | cons x rest ih => rw [List.foldr_cons, written_consMerged, ih, List.flatMap_cons]

theorem sources_consMerged (x : Node Tree) (ns : List (Node Tree)) :
    (consMerged x ns).filterMap Node.source? = (x :: ns).filterMap Node.source? := by
  unfold consMerged
  split <;> rfl

theorem sources_merged (ns : List (Node Tree)) :
    (merged ns).nodes.filterMap Node.source? = ns.filterMap Node.source? := by
  rw [merged, nodes]
  induction ns with
  | nil => rfl
  | cons x rest ih =>
    rw [List.foldr_cons, sources_consMerged, List.filterMap_cons, ih, List.filterMap_cons]

end Tree

namespace Template

theorem lt_length_of_drop {s t : List Char} {n : Nat} {c : Char} (h : s.drop n = c :: t) :
    n < s.length := by
  have hl := congrArg List.length h
  rw [List.length_drop, List.length_cons] at hl
  omega

/-! ## tokens -/

theorem bounds_of_readDirective? {s : List Char} {d : Option String} {n : Nat}
    (h : readDirective? s = some (d, n)) : 0 < n ∧ n ≤ s.length := by
  unfold readDirective? at h
  split at h
  · next s =>
    dsimp only at h
    split at h
    · next hd =>
      cases h
      have hl := congrArg List.length (List.takeWhile_append_dropWhile (p := isUnbraced) (l := s))
      rw [hd, List.length_append, List.length_cons] at hl
      rw [List.length_cons]
      omega
    · cases h
  · cases h

/-- At the top every character begins a node. -/
theorem readPlain?_top (c : Char) (s : List Char) : ∃ x n, readPlain? .top c s = some (x, n) := by
  unfold readPlain?
  split
  · split
    · split <;> exact ⟨_, _, rfl⟩
    · exact ⟨_, _, rfl⟩
  · split
    · exact ⟨_, _, rfl⟩
    · split <;> exact ⟨_, _, rfl⟩

/-- A node that is no placeholder takes no more than there is. -/
theorem le_of_readPlain? {p : Place} {c : Char} {s : List Char} {x : Node Tree} {n : Nat}
    (h : readPlain? p c s = some (x, n)) : n ≤ s.length + 1 := by
  obtain ⟨e, t, -, rfl, -, -, rfl⟩ | ⟨-, rfl⟩ | ⟨-, -, rfl⟩ | ⟨-, -, -, rfl⟩ := readPlain?_cases h
  · simp
  · simp
  · exact Nat.succ_le_succ (List.takeWhile_prefix p.isText).length_le
  · simp

theorem source?_of_readPlain? {p : Place} {c : Char} {s : List Char} {x : Node Tree} {n : Nat}
    (h : readPlain? p c s = some (x, n)) : x.source? = none := by
  obtain ⟨_, _, -, -, -, rfl, -⟩ | ⟨rfl, -⟩ | ⟨-, rfl, -⟩ | ⟨-, -, rfl, -⟩ := readPlain?_cases h <;>
    rfl

/-- A node that is no placeholder stands for the text it took, unless that was an escape. -/
theorem written_of_readPlain? {p : Place} {c : Char} {s : List Char} {x : Node Tree} {n : Nat}
    (h : readPlain? p c s = some (x, n)) (hc : c ≠ '\\') : x.written = (c :: s).take n := by
  obtain ⟨_, _, rfl, -⟩ | ⟨rfl, rfl⟩ | ⟨-, rfl, rfl⟩ | ⟨-, rfl, rfl, rfl⟩ := readPlain?_cases h
  · exact absurd rfl hc
  · simp [literalChar, Node.written]
  · have hp : s.takeWhile p.isText = s.take (s.takeWhile p.isText).length :=
      List.prefix_iff_eq_take.1 (List.takeWhile_prefix p.isText)
    rw [Node.written, String.toList_ofList, List.length_cons, List.take_succ_cons, ← hp]
  · rfl

namespace Grammar

/-! ## placeholders -/

/-- A reader of placeholders that takes no more than there is and keeps the text, with the
opening brace, as the source of its node. -/
def Inner.Keeps (inner : Inner) : Prop :=
  ∀ s x n, inner s = some (x, n) → n ≤ s.length ∧ x.source? = some (sourceOf s n)

theorem bounds_of_choice? {inner : Inner} {s : List Char} {bs : List (Branch Tree)} {n : Nat}
    (h : choice? inner s = some (bs, n)) : 0 < n ∧ n ≤ s.length := by
  obtain ⟨a, u, -, -, -, hu, rfl⟩ := choice?_cases h
  exact ⟨Nat.succ_pos _, lt_length_of_drop hu⟩

theorem keeps_placeholder (level : Nat) : Inner.Keeps (placeholder level) := by
  intro s x n h
  cases level with
  | zero => cases h
  | succ level =>
    obtain ⟨r, a, -, ⟨t, ht, rfl, rfl⟩ | ⟨bs, m, hc, rfl, rfl⟩ | ⟨d, m, hd, rfl, rfl⟩⟩ :=
      placeholder_cases h
    · exact ⟨lt_length_of_drop ht, rfl⟩
    · have hm := bounds_of_choice? hc
      rw [List.length_drop] at hm
      exact ⟨by omega, rfl⟩
    · have hm := bounds_of_readDirective? hd
      rw [List.length_drop] at hm
      exact ⟨by omega, rfl⟩

/-! ## portions -/

/-- The nodes of a sequence, each with the text that it takes. -/
def portions (inner : Inner) (p : Place) : List Char → List (Node Tree × List Char)
  | [] => []
  | c :: s =>
    match item inner p c s with
    | none => []
    | some (x, n) => (x, (c :: s).take n) :: portions inner p (s.drop (n - 1))
termination_by s => s.length
decreasing_by simp only [List.length_drop, List.length_cons]; omega

section

variable {inner : Inner} {p : Place}

/-- The portions are those of the nodes read. -/
theorem map_fst_portions (inner : Inner) (p : Place) (s : List Char) :
    (portions inner p s).map Prod.fst = (items inner p s).1 := by
  induction s using items.induct inner p with
  | case1 => simp [portions, items]
  | case2 c s hi => simp [portions, items, hi]
  | case3 c s x n hi ih =>
    rw [portions, items, hi]
    simp [ih]

theorem item_top (inner : Inner) (c : Char) (s : List Char) :
    ∃ x n, item inner .top c s = some (x, n) := by
  unfold item
  split
  · split
    · exact ⟨_, _, rfl⟩
    · exact readPlain?_top c s
  · exact readPlain?_top c s

theorem Inner.Keeps.le_of_item (h : inner.Keeps) {c : Char} {s : List Char} {x : Node Tree}
    {n : Nat} (hx : item inner p c s = some (x, n)) : n ≤ s.length + 1 := by
  obtain ⟨m, -, hi, rfl⟩ | hx := item_cases hx
  · exact Nat.succ_le_succ (h s x m hi).1
  · exact le_of_readPlain? hx

theorem Inner.Keeps.source_of_item (h : inner.Keeps) {c : Char} {s : List Char} {x : Node Tree}
    {n : Nat} (hx : item inner p c s = some (x, n)) {source : String}
    (hs : x.source? = some source) : source.toList = (c :: s).take n := by
  obtain ⟨m, rfl, hi, rfl⟩ | hx := item_cases hx
  · rw [(h s x m hi).2, Option.some.injEq] at hs
    rw [← hs, sourceOf, String.toList_ofList, List.take_succ_cons]
  · rw [source?_of_readPlain? hx] at hs
    cases hs

theorem Inner.Keeps.written_of_item (h : inner.Keeps) {c : Char} {s : List Char} {x : Node Tree}
    {n : Nat} (hx : item inner p c s = some (x, n)) (hc : c ≠ '\\') :
    x.written = (c :: s).take n := by
  obtain ⟨m, -, hi, -⟩ | hp := item_cases hx
  · have hs := (h s x m hi).2
    rw [Node.written_of_source? hs, h.source_of_item hx hs]
  · exact written_of_readPlain? hp hc

/-- At the top the whole text is read. -/
theorem Inner.Keeps.items_top (h : inner.Keeps) (s : List Char) :
    (items inner .top s).2 = s.length := by
  induction s using items.induct inner .top with
  | case1 => simp [items]
  | case2 c s hi =>
    obtain ⟨x, n, hx⟩ := item_top inner c s
    rw [hx] at hi
    cases hi
  | case3 c s x n hi ih =>
    have hn := pos_of_item hi
    have hl := h.le_of_item hi
    rw [items, hi]
    dsimp only
    rw [ih, List.length_drop, List.length_cons]
    omega

/-- At the top the portions make up the whole text. -/
theorem flatMap_portions_top (inner : Inner) (s : List Char) :
    (portions inner .top s).flatMap Prod.snd = s := by
  induction s using items.induct inner .top with
  | case1 => simp [portions]
  | case2 c s hi =>
    obtain ⟨x, n, hx⟩ := item_top inner c s
    rw [hx] at hi
    cases hi
  | case3 c s x n hi ih =>
    obtain ⟨m, rfl⟩ : ∃ m, n = m + 1 := ⟨n - 1, by have := pos_of_item hi; omega⟩
    rw [portions, hi]
    dsimp only
    rw [List.flatMap_cons, ih, Nat.add_sub_cancel, List.take_succ_cons, List.cons_append,
      List.take_append_drop]

/-- A placeholder has the text that it took as its source. -/
theorem Inner.Keeps.source_of_mem_portions (h : inner.Keeps) {s : List Char} :
    ∀ x ∈ portions inner p s, ∀ source, x.1.source? = some source → source.toList = x.2 := by
  induction s using items.induct inner p with
  | case1 => simp [portions]
  | case2 c s hi => simp [portions, hi]
  | case3 c s x n hi ih =>
    rw [portions, hi]
    exact List.forall_mem_cons.2 ⟨fun source hs => h.source_of_item hi hs, ih⟩

/-- Without a backslash every node stands for the text that it took. -/
theorem Inner.Keeps.written_of_mem_portions (h : inner.Keeps) {s : List Char} (hs : '\\' ∉ s) :
    ∀ x ∈ portions inner p s, x.1.written = x.2 := by
  induction s using items.induct inner p with
  | case1 => simp [portions]
  | case2 c s hi => simp [portions, hi]
  | case3 c s x n hi ih =>
    rw [portions, hi]
    have hc : c ≠ '\\' := fun hc => hs (hc ▸ List.mem_cons_self)
    have hd : '\\' ∉ s.drop (n - 1) := fun hd =>
      hs (List.mem_cons_of_mem c (List.mem_of_mem_drop hd))
    exact List.forall_mem_cons.2 ⟨h.written_of_item hi hc, ih hd⟩

end

/-- The portions of a template. -/
abbrev topPortions (s : List Char) : List (Node Tree × List Char) :=
  portions (placeholder maxNesting) .top s

/-- Without a backslash the nodes of a template stand for its text. -/
theorem written_tree {s : List Char} (hs : '\\' ∉ s) :
    (tree s).nodes.flatMap Node.written = s := by
  have hw := (keeps_placeholder maxNesting).written_of_mem_portions (p := .top) hs
  calc (tree s).nodes.flatMap Node.written
      = (items (placeholder maxNesting) .top s).1.flatMap Node.written := by
        rw [tree, Tree.written_merged]
    _ = (topPortions s).flatMap fun x => x.1.written := by
        rw [← map_fst_portions, List.flatMap_map]
    _ = (topPortions s).flatMap Prod.snd := by
        rw [List.flatMap_def, List.flatMap_def, List.map_congr_left hw]
    _ = s := flatMap_portions_top _ s

/-- The sources in a template are the texts that its placeholders took. -/
theorem sources_tree (s : List Char) :
    (tree s).nodes.filterMap Node.source? =
      (topPortions s).filterMap fun x => x.1.source?.map fun _ => String.ofList x.2 := by
  have hs := (keeps_placeholder maxNesting).source_of_mem_portions (p := .top) (s := s)
  rw [tree, Tree.sources_merged, ← map_fst_portions, List.filterMap_map]
  refine List.filterMap_congr fun x hx => ?_
  cases hx' : x.1.source? with
  | none => simp [hx']
  | some source => simp [hx', ← hs x hx source hx']

end Grammar

end Template

end Phrasebook
