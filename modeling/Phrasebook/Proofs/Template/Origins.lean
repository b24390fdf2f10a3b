import Phrasebook.Proofs.Template.Positions
import Phrasebook.Proofs.Template.Scan

/-!
# Phrasebook.Proofs.Template.Origins

Where the placeholders of a template were read.

The readers of the grammar go from a text to what is left of it, so what they read anywhere
begins a suffix of the template.  A placeholder or choice at any position of the tree is
what the grammar reads behind an opening brace of the template, with as many levels left
for nesting as the position leaves, and its source is the text that it takes there
(`exists_origin`).
-/

namespace Phrasebook

namespace Tree

theorem mem_of_mem_consMerged {x y : Node Tree} {ns : List (Node Tree)}
    (h : x ∈ consMerged y ns) {source : String} (hs : x.source? = some source) : x ∈ y :: ns := by
  unfold consMerged at h
  split at h
  · rcases List.mem_cons.1 h with rfl | h
    · cases hs
    · exact List.mem_cons_of_mem _ (List.mem_cons_of_mem _ h)
  · exact h

/-- Merging makes no placeholders or choices. -/
theorem mem_of_mem_merged {x : Node Tree} {ns : List (Node Tree)} (h : x ∈ (merged ns).nodes)
    {source : String} (hs : x.source? = some source) : x ∈ ns := by
  rw [merged, nodes] at h
  induction ns with
  | nil => cases h
  | cons y rest ih =>
    rcases List.mem_cons.1 (mem_of_mem_consMerged h hs) with rfl | h
    · exact List.mem_cons_self
    · exact List.mem_cons_of_mem _ (ih h)

end Tree

namespace Template.Grammar

/-- A node was read behind an opening brace of a text, with as many levels left for nesting,
and has what it took there as its source. -/
def Origin (s : List Char) (level : Nat) (x : Node Tree) (source : String) : Prop :=
  ∃ t n, '{' :: t <:+ s ∧ placeholder level t = some (x, n) ∧ source = sourceOf t n

theorem Origin.of_suffix {s s' : List Char} {level : Nat} {x : Node Tree} {source : String}
    (h : Origin s level x source) (hs : s <:+ s') : Origin s' level x source := by
  obtain ⟨t, n, ht, hx, hn⟩ := h
  exact ⟨t, n, ht.trans hs, hx, hn⟩

/-- A placeholder or choice of a sequence was read in its text. -/
theorem origin_of_mem_items {level : Nat} {p : Place} {s : List Char} {x : Node Tree}
    {source : String} (hx : x ∈ (items (placeholder level) p s).1)
    (hs : x.source? = some source) : Origin s level x source := by
  induction s using items.induct (placeholder level) p with
  | case1 => simp [items] at hx
  | case2 c s hi => simp [items, hi] at hx
  | case3 c s y n hi ih =>
    rw [items, hi] at hx
    rcases List.mem_cons.1 hx with rfl | hx
    · obtain ⟨m, rfl, hp, rfl⟩ | hp := item_cases hi
      · have hk := (keeps_placeholder level s x m hp).2
        rw [hs, Option.some.injEq] at hk
        exact ⟨s, m, List.suffix_rfl, hp, hk⟩
      · rw [source?_of_readPlain? hp] at hs
        cases hs
    · exact (ih hx).of_suffix ((List.drop_suffix (n - 1) s).trans (List.suffix_cons c s))

/-- The body of a branch was read in the text of the branches. -/
theorem exists_body_of_mem_branches {inner : Inner} {s : List Char} {b : Branch Tree}
    (hb : b ∈ (branches inner s).1) :
    ∃ t, t <:+ s ∧ b.body = .merged (items inner .branch t).1 := by
  induction s using branches.induct inner with
  | case1 => simp [branches] at hb
  | case2 c s hn => simp [branches, hn] at hb
  | case3 c s b' n hb' ih =>
    rw [branches, hb'] at hb
    rcases List.mem_cons.1 hb with rfl | hb
    · obtain ⟨selector, a, t, u, -, ht, -, rfl, -⟩ := branch_cases hb'
      have hd : '{' :: t <:+ c :: s := ht ▸ List.drop_suffix _ _
      exact ⟨t, (List.suffix_cons '{' t).trans hd, rfl⟩
    · obtain ⟨t, ht, hbody⟩ := ih hb
      exact ⟨t, ht.trans ((List.drop_suffix (n - 1) s).trans (List.suffix_cons c s)), hbody⟩

/-- The body of a choice was read in what the choice was read from, with one level less. -/
theorem exists_body_of_placeholder {level : Nat} {t : List Char} {x : Node Tree} {n : Nat}
    (hx : placeholder level t = some (x, n)) {body : Tree} (hb : body ∈ x.bodies) :
    ∃ l u, level = l + 1 ∧ u <:+ t ∧ body = .merged (items (placeholder l) .branch u).1 := by
  cases level with
  | zero => cases hx
  | succ l =>
    obtain ⟨r, a, -, ⟨_, -, rfl, -⟩ | ⟨bs, m, hc, rfl, -⟩ | ⟨d, m, -, rfl, -⟩⟩ :=
      placeholder_cases hx
    · cases hb
    · obtain ⟨b, hm, rfl⟩ := List.mem_map.1 hb
      obtain ⟨k, _, -, rfl, -⟩ := choice?_cases hc
      obtain ⟨u, hu, hbody⟩ := exists_body_of_mem_branches hm
      exact ⟨l, u, rfl, hu.trans ((List.drop_suffix k _).trans (List.drop_suffix a t)), hbody⟩
    · cases hb

/-- A placeholder or choice at any position was read in the text of the sequence, each
choice around it taking up a level. -/
theorem exists_origin {q : Position} {level : Nat} {p : Place} {s : List Char} {x : Node Tree}
    {source : String} (hx : (Tree.merged (items (placeholder level) p s).1).node? q = some x)
    (hs : x.source? = some source) :
    ∃ l, level = l + q.depth ∧ Origin s l x source := by
  induction q generalizing level p s with
  | node i =>
    have hm := Tree.mem_of_mem_merged (List.mem_of_getElem? hx) hs
    exact ⟨level, rfl, origin_of_mem_items hm hs⟩
  | body i j q ih =>
    obtain ⟨body, hb, hx⟩ := Option.bind_eq_some_iff.1 hx
    obtain ⟨y, hy, hb⟩ := Option.bind_eq_some_iff.1 hb
    have hbody := List.mem_of_getElem? hb
    -- a node with a body is a choice, and was read in the text itself
    obtain ⟨source', hy'⟩ : ∃ source', y.source? = some source' := by
      cases y with
      | plural r bs source' => exact ⟨source', rfl⟩
      | literal | placeholder | quantity => cases hbody
    have hm := Tree.mem_of_mem_merged (List.mem_of_getElem? hy) hy'
    obtain ⟨t, n, ht, hp, -⟩ := origin_of_mem_items hm hy'
    obtain ⟨l, u, rfl, hu, rfl⟩ := exists_body_of_placeholder hp hbody
    obtain ⟨l', rfl, ho⟩ := ih hx
    exact ⟨l', rfl, ho.of_suffix (hu.trans ((List.suffix_cons '{' t).trans ht))⟩

end Template.Grammar

end Phrasebook
