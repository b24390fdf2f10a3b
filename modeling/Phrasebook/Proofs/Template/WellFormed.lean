import Phrasebook.Evaluation
import Phrasebook.Proofs.Template.Layout

/-!
# Phrasebook.Proofs.Template.WellFormed

The flat layout of a parsed template is well formed.

1. Every span is in bounds, no two share a place, and together they cover every node
   (`Layout.Tiled`).
2. The root is the last sequence, and every other one is the body of exactly one
   branch.
3. A body has a smaller number than the sequence that holds its choice.

While a tree is laid out, the bodies of the choice at hand stand there before the
node that names them.  The invariant of laying out (`Layout.Sound`) therefore carries
the list of those loose sequences: one more sequence takes the bodies of its nodes off
the list and puts itself on it, and at the end the root alone is loose.

It follows that a walk from the root meets only sequences that are there
(`WellFormed.exists_span`), that walking into bodies ends (`WellFormed.wellFounded`),
and that the guards which make the walks of the library end are never false
(`WellFormed.printSequence_eq`, `WellFormed.evalSequence_eq`).
-/

namespace Phrasebook

namespace Node

/-- The bodies that a node refers to. -/
def bodies {β : Type} : Node β → List β
  | .plural _ bs _ => bs.map Branch.body
  | _ => []

theorem map_congr {β γ : Type} {f g : β → γ} {x : Node β} (h : ∀ body ∈ x.bodies, f body = g body) :
    x.map f = x.map g := by
  cases x with
  | plural r bs source =>
    have hb : bs.map (Branch.map f) = bs.map (Branch.map g) := by
      refine List.map_congr_left fun b hb => ?_
      rw [Branch.map, Branch.map, h b.body (List.mem_map_of_mem hb)]
    rw [map, map, hb]
  | literal | placeholder | quantity => rfl

end Node

/-- The branch chosen is one of the branches. -/
theorem Branch.mem_of_select? {β : Type} {bs : List (Branch β)} {v : Value} {l : Locale}
    {b : Branch β} (h : select? bs v l = some b) : b ∈ bs := by
  have hf : ∀ s, find? bs s = some b → b ∈ bs := fun s => List.mem_of_find?_eq_some
  simp only [select?, Option.or_eq_some_iff] at h
  obtain h | ⟨-, h | ⟨-, h⟩⟩ := h
  · obtain ⟨n, -, hn⟩ := Option.bind_eq_some_iff.1 h
    exact hf _ hn
  · exact hf _ h
  · exact hf _ h

namespace Template

namespace Layout

/-! ## spans -/

/-- The sequence with a number covers a place among the nodes. -/
def Covers (l : Layout) (id i : Nat) : Prop :=
  ∃ span, l.spans[id]? = some span ∧ span.start ≤ i ∧ i < span.stop

/-- The spans are in bounds and cover every node exactly once. -/
structure Tiled (l : Layout) : Prop where
  in_bounds : ∀ span ∈ l.spans.toList, span.start ≤ span.stop ∧ span.stop ≤ l.nodes.size
  disjoint : ∀ id id' i, l.Covers id i → l.Covers id' i → id = id'
  covered : ∀ i < l.nodes.size, ∃ id, l.Covers id i

theorem tiled_empty : empty.Tiled where
  in_bounds := by simp [empty]
  disjoint := by
    rintro id id' i ⟨span, h, -⟩
    simp [empty] at h
  covered := by simp [empty]

section

variable {l : Layout} {id i : Nat}

theorem Tiled.lt_of_covers (hl : l.Tiled) (h : l.Covers id i) : i < l.nodes.size := by
  obtain ⟨span, hs, -, hi⟩ := h
  have hm : span ∈ l.spans.toList := Array.mem_toList_iff.2 (Array.mem_of_getElem? hs)
  exact Nat.lt_of_lt_of_le hi (hl.in_bounds span hm).2

/-- A new sequence covers the new nodes; the others cover what they covered. -/
theorem covers_addSequence (ns : List (Node Nat)) :
    (l.addSequence ns).2.Covers id i ↔
      l.Covers id i ∨ id = l.spans.size ∧ l.nodes.size ≤ i ∧ i < l.nodes.size + ns.length := by
  unfold Covers addSequence
  simp only [Array.getElem?_push]
  by_cases hid : id = l.spans.size
  · subst hid
    simp
  · simp [hid]

theorem size_nodes_addSequence (ns : List (Node Nat)) :
    (l.addSequence ns).2.nodes.size = l.nodes.size + ns.length := by
  rw [addSequence, ← Array.length_toList, Array.toList_appendList, List.length_append,
    Array.length_toList]

theorem Tiled.addSequence (hl : l.Tiled) (ns : List (Node Nat)) : (l.addSequence ns).2.Tiled where
  in_bounds := by
    intro span h
    rw [size_nodes_addSequence]
    simp only [Layout.addSequence, Array.toList_push, List.mem_append, List.mem_singleton] at h
    obtain h | rfl := h
    · have := hl.in_bounds span h
      omega
    · dsimp only
      omega
  disjoint := by
    intro id id' i h h'
    obtain h | ⟨rfl, hi, -⟩ := (covers_addSequence ns).1 h <;>
      obtain h' | ⟨rfl, hi', -⟩ := (covers_addSequence ns).1 h'
    · exact hl.disjoint id id' i h h'
    · exact absurd (hl.lt_of_covers h) (Nat.not_lt.2 hi')
    · exact absurd (hl.lt_of_covers h') (Nat.not_lt.2 hi)
    · rfl
  covered := by
    intro i hi
    rw [size_nodes_addSequence] at hi
    by_cases h : i < l.nodes.size
    · obtain ⟨id, hid⟩ := hl.covered i h
      exact ⟨id, (covers_addSequence ns).2 (.inl hid)⟩
    · exact ⟨_, (covers_addSequence ns).2 (.inr ⟨rfl, Nat.not_lt.1 h, hi⟩)⟩

end

/-! ## the invariant of laying out -/

/-- The bodies that the nodes of a layout refer to, in order. -/
def bodies (l : Layout) : List Nat := l.nodes.toList.flatMap Node.bodies

/-- A layout in which every sequence is the body of one branch or loose, and bodies have
smaller numbers. -/
structure Sound (l : Layout) (loose : List Nat) : Prop where
  tiled : l.Tiled
  bodies : (l.bodies ++ loose).Perm (List.range l.spans.size)
  descending : ∀ id i x, l.Covers id i → l.nodes[i]? = some x → ∀ body ∈ x.bodies, body < id

theorem sound_empty : empty.Sound [] where
  tiled := tiled_empty
  bodies := by simp [Layout.bodies, empty]
  descending := by
    rintro id i x ⟨span, h, -⟩
    simp [empty] at h

theorem Sound.lt_of_mem {l : Layout} {loose : List Nat} (h : l.Sound loose) {body : Nat}
    (hb : body ∈ loose) : body < l.spans.size :=
  List.mem_range.1 (h.bodies.mem_iff.1 (List.mem_append_right _ hb))

/-- A new sequence takes the bodies of its nodes off the loose ones and is loose itself. -/
theorem Sound.addSequence {l : Layout} {loose : List Nat} {ns : List (Node Nat)}
    (h : l.Sound (loose ++ ns.flatMap Node.bodies)) :
    (l.addSequence ns).2.Sound (loose ++ [(l.addSequence ns).1]) where
  tiled := h.tiled.addSequence ns
  bodies := by
    have hb : (l.addSequence ns).2.bodies = l.bodies ++ ns.flatMap Node.bodies := by
      simp [Layout.bodies, Layout.addSequence]
    rw [hb, size_spans_addSequence, List.range_succ, addSequence_fst, ← List.append_assoc]
    refine List.Perm.append_right _ (.trans ?_ h.bodies)
    rw [List.append_assoc]
    exact List.Perm.append_left _ List.perm_append_comm
  descending := by
    intro id i x hc hx body hbody
    have hx' : (l.nodes ++ ns)[i]? = some x := hx
    rw [← Array.getElem?_toList, Array.toList_appendList] at hx'
    obtain hc | ⟨rfl, hi, -⟩ := (covers_addSequence ns).1 hc
    · have hi : i < l.nodes.toList.length := h.tiled.lt_of_covers hc
      rw [List.getElem?_append_left hi, Array.getElem?_toList] at hx'
      exact h.descending id i x hc hx' body hbody
    · have hi : l.nodes.toList.length ≤ i := hi
      rw [List.getElem?_append_right hi] at hx'
      refine h.lt_of_mem (List.mem_append_right _ ?_)
      exact List.mem_flatMap.2 ⟨x, List.mem_of_getElem? hx', hbody⟩

mutual

theorem Sound.addTree : (t : Tree) → {l : Layout} → {loose : List Nat} → l.Sound loose →
    (l.addTree t).2.Sound (loose ++ [(l.addTree t).1])
  | .sequence ns, l, loose, h => by
    rw [Layout.addTree]
    exact (Sound.addNodes ns h).addSequence

theorem Sound.addNodes : (ns : List (Node Tree)) → {l : Layout} → {loose : List Nat} →
    l.Sound loose → (l.addNodes ns).2.Sound (loose ++ (l.addNodes ns).1.flatMap Node.bodies)
  | [], l, loose, h => by
    rw [Layout.addNodes]
    simpa using h
  | .literal _ :: rest, l, loose, h => by rw [Layout.addNodes]; exact Sound.addNodes rest h
  | .placeholder _ _ _ :: rest, l, loose, h => by rw [Layout.addNodes]; exact Sound.addNodes rest h
  | .quantity :: rest, l, loose, h => by rw [Layout.addNodes]; exact Sound.addNodes rest h
  | .plural _ bs _ :: rest, l, loose, h => by
    rw [Layout.addNodes]
    have hr := Sound.addNodes rest (Sound.addBranches bs h)
    rwa [List.append_assoc] at hr

theorem Sound.addBranches : (bs : List (Branch Tree)) → {l : Layout} → {loose : List Nat} →
    l.Sound loose → (l.addBranches bs).2.Sound (loose ++ (l.addBranches bs).1.map Branch.body)
  | [], l, loose, h => by
    rw [Layout.addBranches]
    simpa using h
  | ⟨_, body⟩ :: rest, l, loose, h => by
    rw [Layout.addBranches]
    have hr := Sound.addBranches rest (Sound.addTree body h)
    rwa [List.append_assoc] at hr

end

/-- The sequence of a tree is laid down last. -/
theorem size_spans_addTree (t : Tree) (l : Layout) :
    (l.addTree t).2.spans.size = (l.addTree t).1 + 1 := by
  obtain ⟨ns⟩ := t
  rw [addTree]
  exact size_spans_addSequence _ _

end Layout

/-! ## well-formed templates -/

/-- A template whose layout can be walked from the root. -/
structure WellFormed (t : Template) : Prop where
  /-- Spans are in bounds and cover every node exactly once. -/
  tiled : t.layout.Tiled
  /-- The root is the last sequence. -/
  root_last : t.spans.size = t.root + 1
  /-- The branches of all nodes name every sequence but the root, each once. -/
  bodies : (t.nodes.toList.flatMap Node.bodies).Perm (List.range t.root)
  /-- Bodies have smaller numbers. -/
  descending : ∀ id, ∀ x ∈ t.sequence id, ∀ body ∈ x.bodies, body < id

/-- A node of a sequence stands at a place that the sequence covers. -/
theorem covers_of_mem_sequence {t : Template} {id : Nat} {x : Node Nat} (h : x ∈ t.sequence id) :
    ∃ i, t.layout.Covers id i ∧ t.nodes[i]? = some x := by
  unfold sequence at h
  split at h
  · next start stop hs =>
    split at h
    · rw [Array.toList_extract, List.mem_iff_getElem?] at h
      obtain ⟨k, hk⟩ := h
      rw [List.extract_eq_take_drop, List.getElem?_take] at hk
      split at hk
      · next hlt =>
        rw [List.getElem?_drop, Array.getElem?_toList] at hk
        exact ⟨start + k, ⟨_, hs, Nat.le_add_right start k, by dsimp only; omega⟩, hk⟩
      · cases hk
    · cases h
  · cases h

/-- What is laid out is well formed. -/
theorem wellFormed_ofTree (t : Tree) : (ofTree t).WellFormed := by
  have h : (ofTree t).layout.Sound [(ofTree t).root] := Layout.Sound.addTree t Layout.sound_empty
  have hr : (ofTree t).layout.spans.size = (ofTree t).root + 1 := Layout.size_spans_addTree t _
  refine ⟨h.tiled, hr, ?_, ?_⟩
  · have hb := h.bodies
    rw [hr, List.range_succ] at hb
    exact (List.perm_append_right_iff _).1 hb
  · intro id x hx body hb
    obtain ⟨i, hc, hi⟩ := covers_of_mem_sequence hx
    exact h.descending id i x hc hi body hb

/-! ## walks -/

/-- One sequence is a body in another. -/
def IsBodyIn (t : Template) (body id : Nat) : Prop := ∃ x ∈ t.sequence id, body ∈ x.bodies

/-- The sequences that a walk from the root meets. -/
inductive Reached (t : Template) : Nat → Prop where
  | root : Reached t t.root
  | body {id body : Nat} (h : Reached t id) (hb : t.IsBodyIn body id) : Reached t body

theorem printBranches_congr {f g : Nat → List Char} {bs : List (Branch Nat)}
    (h : ∀ b ∈ bs, f b.body = g b.body) : printBranches f bs = printBranches g bs := by
  induction bs with
  | nil => rfl
  | cons b rest ih =>
    rw [printBranches, printBranches, h b List.mem_cons_self,
      ih fun b' hb => h b' (List.mem_cons_of_mem b hb)]

/-- Nodes print alike where the bodies in them do. -/
theorem printNodes_congr {f g : Nat → List Char} (p : Place) {ns : List (Node Nat)}
    (h : ∀ x ∈ ns, ∀ body ∈ x.bodies, f body = g body) : printNodes f p ns = printNodes g p ns := by
  induction ns with
  | nil => rfl
  | cons x rest ih =>
    have hr := ih fun y hy => h y (List.mem_cons_of_mem x hy)
    cases x with
    | plural r bs source =>
      have hb := h _ List.mem_cons_self
      rw [printNodes, printNodes, hr,
        printBranches_congr fun b hm => hb b.body (List.mem_map_of_mem hm)]
    | literal | placeholder | quantity => rw [printNodes, printNodes, hr]

/-- Nodes evaluate alike where the bodies in them do. -/
theorem evalNodes_congr {f g : Nat → Context → Message → Outcome} {ns : List (Node Nat)}
    (h : ∀ x ∈ ns, ∀ body ∈ x.bodies, f body = g body) (c : Context) (out : Message) :
    evalNodes f ns c out = evalNodes g ns c out := by
  induction ns generalizing c out with
  | nil => rfl
  | cons x rest ih =>
    have hr := ih fun y hy => h y (List.mem_cons_of_mem x hy)
    cases x with
    | plural r bs source =>
      rw [evalNodes, evalNodes]
      cases c.arguments.get? r with
      | none => simp only [hr]
      | some v =>
        cases hs : Branch.select? bs v c.locale with
        | none => simp only [hs, hr]
        | some b =>
          have hb := h _ List.mem_cons_self b.body
            (List.mem_map_of_mem (Branch.mem_of_select? hs))
          simp only [hs, hr, hb]
    | literal | placeholder | quantity => simp only [evalNodes, hr]

namespace WellFormed

variable {t : Template} {id : Nat}

/-- A body in a sequence has a smaller number. -/
theorem lt_of_isBodyIn (h : t.WellFormed) {body : Nat} (hb : t.IsBodyIn body id) : body < id := by
  obtain ⟨x, hx, hb⟩ := hb
  exact h.descending id x hx body hb

theorem lt_of_reached (h : t.WellFormed) (hr : t.Reached id) : id < t.spans.size := by
  induction hr with
  | root =>
    rw [h.root_last]
    exact Nat.lt_succ_self _
  | body _ hb ih => exact Nat.lt_trans (h.lt_of_isBodyIn hb) ih

/-- A sequence that is reached is found: its span is there and in bounds. -/
theorem exists_span (h : t.WellFormed) (hr : t.Reached id) :
    ∃ span, t.spans[id]? = some span ∧ span.start ≤ span.stop ∧ span.stop ≤ t.nodes.size ∧
      t.sequence id = (t.nodes.extract span.start span.stop).toList := by
  have hid := h.lt_of_reached hr
  have hs : t.spans[id]? = some t.spans[id] := Array.getElem?_eq_getElem hid
  have hb := h.tiled.in_bounds t.spans[id] (Array.mem_toList_iff.2 (Array.getElem_mem hid))
  refine ⟨t.spans[id], hs, hb.1, hb.2, ?_⟩
  rw [sequence, hs]
  exact if_pos hb

/-- Going from sequences to the bodies in them ends. -/
theorem wellFounded (h : t.WellFormed) : WellFounded t.IsBodyIn :=
  Subrelation.wf h.lt_of_isBodyIn Nat.lt_wfRel.wf

/-- Printing follows every body. -/
theorem printSequence_eq (h : t.WellFormed) (p : Place) (id : Nat) :
    t.printSequence p id = printNodes (t.printSequence .branch) p (t.sequence id) := by
  rw [printSequence]
  exact printNodes_congr p fun x hx body hb => dif_pos (h.descending id x hx body hb)

/-- Evaluation follows every body. -/
theorem evalSequence_eq (h : t.WellFormed) (id : Nat) (c : Context) (out : Message) :
    t.evalSequence id c out = evalNodes t.evalSequence (t.sequence id) c out := by
  rw [evalSequence]
  refine evalNodes_congr (fun x hx body hb => ?_) c out
  funext c out
  exact dif_pos (h.descending id x hx body hb)

end WellFormed

end Template

/-! ## the nodes of a tree -/

namespace Tree

mutual

/-- All nodes of a tree: those nested in a sequence, left to right, and then its own. -/
def allNodes : Tree → List (Node Tree)
  | .sequence ns => nestedNodes ns ++ ns

/-- The nodes nested in a row of nodes. -/
def nestedNodes : List (Node Tree) → List (Node Tree)
  | [] => []
  | .plural _ bs _ :: rest => nestedBranches bs ++ nestedNodes rest
  | .literal _ :: rest | .placeholder _ _ _ :: rest | .quantity :: rest => nestedNodes rest

/-- The nodes in the bodies of branches. -/
def nestedBranches : List (Branch Tree) → List (Node Tree)
  | [] => []
  | ⟨_, body⟩ :: rest => body.allNodes ++ nestedBranches rest

end

end Tree

namespace Template

open Phrasebook.Tree (nestedNodes nestedBranches)

/-- The nodes of a layout, the numbers of their bodies replaced by trees. -/
def Layout.nodesOver (l : Layout) (f : Nat → Tree) : List (Node Tree) :=
  l.nodes.toList.map (Node.map f)

mutual

theorem nodes_addTree : (t : Tree) → (l : Layout) → (T : Template) → (n : Nat) →
    (l.addTree t).2.Extends T.layout → (l.addTree t).2.spans.size ≤ n →
    (l.addTree t).2.nodesOver (T.bodyTree n) = l.nodesOver (T.bodyTree n) ++ t.allNodes
  | .sequence ns, l, T, n, h, hn => by
    rw [Layout.addTree] at h hn ⊢
    have he := (Layout.extends_addSequence (l.addNodes ns).2 (l.addNodes ns).1).trans h
    have hs : (l.addNodes ns).2.spans.size ≤ n := by
      rw [Layout.size_spans_addSequence] at hn
      omega
    have hm := map_addNodes ns l T n he hs
    have hl := nodes_addNodes ns l T n he hs
    rw [Tree.allNodes, ← List.append_assoc, ← hl]
    simp only [Layout.nodesOver, Layout.addSequence, Array.toList_appendList, List.map_append, hm]

theorem nodes_addNodes : (ns : List (Node Tree)) → (l : Layout) → (T : Template) → (n : Nat) →
    (l.addNodes ns).2.Extends T.layout → (l.addNodes ns).2.spans.size ≤ n →
    (l.addNodes ns).2.nodesOver (T.bodyTree n) = l.nodesOver (T.bodyTree n) ++ nestedNodes ns
  | [], l, T, n, h, hn => by rw [Layout.addNodes, nestedNodes, List.append_nil]
  | .literal s :: rest, l, T, n, h, hn => by
    rw [Layout.addNodes] at h hn ⊢
    rw [nodes_addNodes rest l T n h hn, nestedNodes]
  | .placeholder r d source :: rest, l, T, n, h, hn => by
    rw [Layout.addNodes] at h hn ⊢
    rw [nodes_addNodes rest l T n h hn, nestedNodes]
  | .quantity :: rest, l, T, n, h, hn => by
    rw [Layout.addNodes] at h hn ⊢
    rw [nodes_addNodes rest l T n h hn, nestedNodes]
  | .plural r bs source :: rest, l, T, n, h, hn => by
    rw [Layout.addNodes] at h hn ⊢
    have hr := Layout.extends_addNodes rest (l.addBranches bs).2
    rw [nodes_addNodes rest _ T n h hn, nestedNodes, ← List.append_assoc,
      nodes_addBranches bs l T n (hr.trans h) (Nat.le_trans hr.size_spans_le hn)]

theorem nodes_addBranches : (bs : List (Branch Tree)) → (l : Layout) → (T : Template) →
    (n : Nat) → (l.addBranches bs).2.Extends T.layout → (l.addBranches bs).2.spans.size ≤ n →
    (l.addBranches bs).2.nodesOver (T.bodyTree n) = l.nodesOver (T.bodyTree n) ++ nestedBranches bs
  | [], l, T, n, h, hn => by rw [Layout.addBranches, nestedBranches, List.append_nil]
  | ⟨selector, body⟩ :: rest, l, T, n, h, hn => by
    rw [Layout.addBranches] at h hn ⊢
    have hr := Layout.extends_addBranches rest (l.addTree body).2
    rw [nodes_addBranches rest _ T n h hn, nestedBranches, ← List.append_assoc,
      nodes_addTree body l T n (hr.trans h) (Nat.le_trans hr.size_spans_le hn)]

end

/-- The nodes of a layout are those of the tree, inner sequences before outer ones. -/
theorem map_nodes_ofTree (t : Tree) :
    (ofTree t).nodes.toList.map (Node.map (ofTree t).treeAt) = t.allNodes := by
  have hw := wellFormed_ofTree t
  have h := nodes_addTree t .empty (ofTree t) (ofTree t).spans.size (.refl _) (Nat.le_refl _)
  rw [Layout.nodesOver, Layout.nodesOver] at h
  refine Eq.trans (List.map_congr_left fun x hx => Node.map_congr fun body hb => ?_) h
  have hm : body ∈ (ofTree t).nodes.toList.flatMap Node.bodies := List.mem_flatMap.2 ⟨x, hx, hb⟩
  have hlt := List.mem_range.1 (hw.bodies.mem_iff.1 hm)
  rw [bodyTree_of_lt _ (by rw [hw.root_last]; omega)]

/-- Every text is laid out well formed.  So a walk from the root finds every sequence that
it meets, and ends; printing and evaluation follow every body; and the nodes laid out are
those of the tree that was parsed, inner sequences before outer ones. -/
theorem wellFormed_parse (text : String) :
    (parse text).WellFormed ∧
      (∀ id, (parse text).Reached id →
        ∃ span, (parse text).spans[id]? = some span ∧ span.start ≤ span.stop ∧
          span.stop ≤ (parse text).nodes.size ∧
          (parse text).sequence id =
            ((parse text).nodes.extract span.start span.stop).toList) ∧
      WellFounded (parse text).IsBodyIn ∧
      (∀ p id, (parse text).printSequence p id =
        printNodes ((parse text).printSequence .branch) p ((parse text).sequence id)) ∧
      (∀ id c out, (parse text).evalSequence id c out =
        evalNodes (parse text).evalSequence ((parse text).sequence id) c out) ∧
      (parse text).nodes.toList.map (Node.map (parse text).treeAt) =
        (Parser.tree text.toList).allNodes := by
  have h : (parse text).WellFormed := wellFormed_ofTree (Parser.tree text.toList)
  exact ⟨h, fun id hr => h.exists_span hr, h.wellFounded, h.printSequence_eq, h.evalSequence_eq,
    map_nodes_ofTree _⟩

end Template

end Phrasebook
