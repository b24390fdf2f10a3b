import Phrasebook.Template.Printer

/-!
# Phrasebook.Proofs.Template.Layout

A layout holds the tree that was laid out, and prints as it.

`Template.tree` reads a layout back: the number of a body is replaced by the tree
of that sequence.  It is defined on every layout, by the same descent of numbers
as the walks of the library.

* `tree_ofTree` — reading back undoes laying out;
* `display_tree` — a template prints as its tree does.

Laying out only ever appends, so a sequence once laid down is found in every
later layout (`Layout.Extends`).  That is what the induction over the tree
carries: its statement is about all templates that extend the layout reached.
-/

namespace Phrasebook

/-! ## reading a layout back -/

/-- A branch over other bodies. -/
def Branch.map {β γ : Type} (f : β → γ) (b : Branch β) : Branch γ := ⟨b.selector, f b.body⟩

/-- A node over other bodies. -/
def Node.map {β γ : Type} (f : β → γ) : Node β → Node γ
  | .literal s => .literal s
  | .placeholder r d source => .placeholder r d source
  | .plural r bs source => .plural r (bs.map (Branch.map f)) source
  | .quantity => .quantity

namespace Template

/-- The tree of a sequence by number.  Bodies have smaller numbers; a body that had
not would be empty. -/
def treeAt (t : Template) (id : Nat) : Tree :=
  .sequence ((t.sequence id).map
    (Node.map fun body => if _h : body < id then treeAt t body else .sequence []))
termination_by id

/-- The tree of a template. -/
def tree (t : Template) : Tree := t.treeAt t.root

/-- The tree of a body inside a sequence with the number `n`. -/
def bodyTree (t : Template) (n body : Nat) : Tree :=
  if body < n then t.treeAt body else .sequence []

theorem treeAt_eq (t : Template) (id : Nat) :
    t.treeAt id = .sequence ((t.sequence id).map (Node.map (t.bodyTree id))) := by
  rw [treeAt]
  rfl

theorem bodyTree_of_lt (t : Template) {n body : Nat} (h : body < n) :
    t.bodyTree n body = t.treeAt body := if_pos h

/-- What a template is laid out in. -/
def layout (t : Template) : Layout := ⟨t.nodes, t.spans⟩

namespace Layout

/-! ## laying out appends -/

/-- A layout that goes on from another one. -/
structure Extends (l l' : Layout) : Prop where
  nodes : l.nodes.toList <+: l'.nodes.toList
  spans : l.spans.toList <+: l'.spans.toList

theorem Extends.refl (l : Layout) : Extends l l := ⟨List.prefix_rfl, List.prefix_rfl⟩

theorem Extends.trans {l l' l'' : Layout} (h : Extends l l') (h' : Extends l' l'') :
    Extends l l'' :=
  ⟨h.nodes.trans h'.nodes, h.spans.trans h'.spans⟩

theorem Extends.size_spans_le {l l' : Layout} (h : Extends l l') :
    l.spans.size ≤ l'.spans.size := by
  simpa using h.spans.length_le

theorem addSequence_fst (l : Layout) (ns : List (Node Nat)) :
    (l.addSequence ns).1 = l.spans.size := rfl

theorem size_spans_addSequence (l : Layout) (ns : List (Node Nat)) :
    (l.addSequence ns).2.spans.size = l.spans.size + 1 := Array.size_push _

theorem extends_addSequence (l : Layout) (ns : List (Node Nat)) :
    Extends l (l.addSequence ns).2 := by
  constructor <;> simp [addSequence]

mutual

theorem extends_addTree : (t : Tree) → (l : Layout) → Extends l (l.addTree t).2
  | .sequence ns, l => by
    rw [addTree]
    exact (extends_addNodes ns l).trans (extends_addSequence _ _)

theorem extends_addNodes : (ns : List (Node Tree)) → (l : Layout) → Extends l (l.addNodes ns).2
  | [], l => by rw [addNodes]; exact .refl l
  | .literal _ :: rest, l => by rw [addNodes]; exact extends_addNodes rest l
  | .placeholder _ _ _ :: rest, l => by rw [addNodes]; exact extends_addNodes rest l
  | .quantity :: rest, l => by rw [addNodes]; exact extends_addNodes rest l
  | .plural _ bs _ :: rest, l => by
    rw [addNodes]
    exact (extends_addBranches bs l).trans (extends_addNodes rest _)

theorem extends_addBranches :
    (bs : List (Branch Tree)) → (l : Layout) → Extends l (l.addBranches bs).2
  | [], l => by rw [addBranches]; exact .refl l
  | ⟨_, body⟩ :: rest, l => by
    rw [addBranches]
    exact (extends_addTree body l).trans (extends_addBranches rest _)

end

end Layout

/-! ## reading back undoes laying out -/

/-- A sequence is found where it was laid down. -/
theorem sequence_of_extends {t : Template} {l : Layout} {ns : List (Node Nat)}
    (h : (l.addSequence ns).2.Extends t.layout) : t.sequence l.spans.size = ns := by
  obtain ⟨⟨nodes, hn⟩, ⟨spans, hs⟩⟩ := h
  simp only [Layout.addSequence, layout, Array.toList_appendList, Array.toList_push] at hn hs
  have hspan : t.spans[l.spans.size]? = some ⟨l.nodes.size, l.nodes.size + ns.length⟩ := by
    rw [← Array.getElem?_toList, ← hs]
    simp
  have hsize : t.nodes.size = l.nodes.size + ns.length + nodes.length := by
    rw [← Array.length_toList, ← hn, List.length_append, List.length_append, Array.length_toList]
  rw [sequence, hspan]
  dsimp only
  rw [if_pos (by omega), Array.toList_extract, ← hn]
  simp

mutual

theorem bodyTree_addTree : (t : Tree) → (l : Layout) → (T : Template) → (n : Nat) →
    (l.addTree t).2.Extends T.layout → (l.addTree t).2.spans.size ≤ n →
    T.bodyTree n (l.addTree t).1 = t
  | .sequence ns, l, T, n, h, hn => by
    rw [Layout.addTree] at h hn ⊢
    dsimp only at h hn ⊢
    have hid : (l.addNodes ns).2.spans.size < n := by
      rw [Layout.size_spans_addSequence] at hn
      omega
    rw [Layout.addSequence_fst, bodyTree_of_lt T hid, treeAt_eq, sequence_of_extends h,
      map_addNodes ns l T _ ((Layout.extends_addSequence _ _).trans h) (Nat.le_refl _)]

theorem map_addNodes : (ns : List (Node Tree)) → (l : Layout) → (T : Template) → (n : Nat) →
    (l.addNodes ns).2.Extends T.layout → (l.addNodes ns).2.spans.size ≤ n →
    (l.addNodes ns).1.map (Node.map (T.bodyTree n)) = ns
  | [], l, T, n, h, hn => by rw [Layout.addNodes, List.map_nil]
  | .literal s :: rest, l, T, n, h, hn => by
    rw [Layout.addNodes] at h hn ⊢
    rw [List.map_cons, map_addNodes rest l T n h hn, Node.map]
  | .placeholder r d source :: rest, l, T, n, h, hn => by
    rw [Layout.addNodes] at h hn ⊢
    rw [List.map_cons, map_addNodes rest l T n h hn, Node.map]
  | .quantity :: rest, l, T, n, h, hn => by
    rw [Layout.addNodes] at h hn ⊢
    rw [List.map_cons, map_addNodes rest l T n h hn, Node.map]
  | .plural r bs source :: rest, l, T, n, h, hn => by
    rw [Layout.addNodes] at h hn ⊢
    have hr := Layout.extends_addNodes rest (l.addBranches bs).2
    rw [List.map_cons, map_addNodes rest _ T n h hn, Node.map,
      map_addBranches bs l T n (hr.trans h) (Nat.le_trans hr.size_spans_le hn)]

theorem map_addBranches : (bs : List (Branch Tree)) → (l : Layout) → (T : Template) →
    (n : Nat) → (l.addBranches bs).2.Extends T.layout → (l.addBranches bs).2.spans.size ≤ n →
    (l.addBranches bs).1.map (Branch.map (T.bodyTree n)) = bs
  | [], l, T, n, h, hn => by rw [Layout.addBranches, List.map_nil]
  | ⟨selector, body⟩ :: rest, l, T, n, h, hn => by
    rw [Layout.addBranches] at h hn ⊢
    have hr := Layout.extends_addBranches rest (l.addTree body).2
    rw [List.map_cons, map_addBranches rest _ T n h hn, Branch.map,
      bodyTree_addTree body l T n (hr.trans h) (Nat.le_trans hr.size_spans_le hn)]

end

/-- Reading a layout back gives the tree that was laid out. -/
theorem tree_ofTree (t : Tree) : (ofTree t).tree = t := by
  obtain ⟨ns⟩ := t
  have h := bodyTree_addTree (.sequence ns) .empty (ofTree (.sequence ns)) _ (.refl _)
    (Nat.le_refl _)
  rwa [bodyTree_of_lt _ (by simp [Layout.addTree, Layout.addSequence])] at h

/-- The tree of a text. -/
theorem tree_parse (text : String) : (parse text).tree = Parser.tree text.toList :=
  tree_ofTree _

/-! ## printing -/

theorem printBranches_map (p : Nat → List Char) (f : Nat → Tree)
    (h : ∀ body, p body = (f body).print .branch) (bs : List (Branch Nat)) :
    printBranches p bs = Tree.printBranches (bs.map (Branch.map f)) := by
  induction bs with
  | nil => rw [printBranches, List.map_nil, Tree.printBranches]
  | cons b rest ih =>
    rw [printBranches, List.map_cons, Branch.map, Tree.printBranches, ih, h]

theorem printNodes_map (body : Nat → List Char) (f : Nat → Tree)
    (h : ∀ id, body id = (f id).print .branch) (p : Place) (ns : List (Node Nat)) :
    printNodes body p ns = Tree.printNodes p (ns.map (Node.map f)) := by
  induction ns with
  | nil => rw [printNodes, List.map_nil, Tree.printNodes]
  | cons x rest ih =>
    cases x <;>
      simp only [printNodes, List.map_cons, Node.map, Tree.printNodes, ih,
        printBranches_map body f h]

theorem print_treeAt (t : Template) (p : Place) (id : Nat) :
    (t.treeAt id).print p = t.printSequence p id := by
  induction id using Nat.strongRecOn generalizing p with
  | _ id ih =>
    rw [treeAt_eq, Tree.print, printSequence]
    refine (printNodes_map _ _ (fun body => ?_) p _).symm
    unfold bodyTree
    split
    · next h => exact (ih body h .branch).symm
    · rw [Tree.print, Tree.printNodes]

/-- A template prints as its tree. -/
theorem display_tree (t : Template) : t.tree.display = t.display := by
  rw [tree, Tree.display, print_treeAt, display]

end Template

end Phrasebook
