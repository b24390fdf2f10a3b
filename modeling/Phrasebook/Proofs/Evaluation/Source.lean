import Phrasebook.Proofs.Evaluation.Outcome
import Phrasebook.Proofs.Template.Scan

/-!
# Phrasebook.Proofs.Evaluation.Source

Without arguments a template without escapes is its own message.

With no arguments, where placeholders are left as they are written, every node of a
template gives the text it stands for (`Node.written`), and the scan says that these
texts make up the template (`Grammar.written_tree`).
-/

namespace Phrasebook

theorem Arguments.get?_empty (r : Reference) : Arguments.empty.get? r = none := by
  cases r with
  | name s => exact Std.TreeMap.getElem?_emptyc
  | index i => rfl

namespace Message

/-- Texts are merged to a single one, unless they are all empty. -/
theorem merged_texts (xs : List (List Char)) :
    merged (xs.map fun x => .text (String.ofList x)) =
      if xs.flatten = [] then [] else [.text (String.ofList xs.flatten)] := by
  induction xs with
  | nil => rfl
  | cons x rest ih =>
    rw [merged, List.map_cons, List.foldr_cons, ← merged, ih, List.flatten_cons]
    by_cases hr : rest.flatten = []
    · by_cases hx : x = [] <;> simp [hr, hx, consMerged]
    · simp [hr, consMerged]

end Message

namespace Tree

/-- Without arguments every node leaves the text that it stands for. -/
theorem segments_piecesNodes_empty (l : Locale) (ns : List (Node Tree)) :
    (piecesNodes .empty l none ns).filterMap (Piece.segment? .leave) =
      ns.map fun x => .text (String.ofList x.written) := by
  induction ns with
  | nil => rfl
  | cons x rest ih =>
    rw [piecesNodes_cons, List.filterMap_append, ih, List.map_cons]
    cases x with
    | literal s => simp [piecesNodes, Piece.segment?, Node.written]
    | placeholder r d source =>
      simp [piecesNodes, Arguments.get?_empty, Piece.segment?, Node.written]
    | plural r bs source =>
      rw [piecesNodes_plural, Arguments.get?_empty]
      simp [Piece.segment?, Node.written]
    | quantity => rfl

/-- Without arguments, where placeholders are left as they are, a tree gives the text that its
nodes stand for. -/
theorem message_pieces_empty (t : Tree) (key : String) (l : Locale) :
    Pieces.message key .leave (t.pieces .empty l none) =
      .ok ⟨if t.nodes.flatMap Node.written = [] then []
        else [.text (String.ofList (t.nodes.flatMap Node.written))]⟩ := by
  obtain ⟨ns⟩ := t
  have hm := Message.merged_texts (ns.map Node.written)
  rw [List.map_map, ← List.flatMap_def] at hm
  have hf : Pieces.failure? .leave (piecesNodes .empty l none ns) = none := rfl
  rw [Tree.pieces, Pieces.message, hf, segments_piecesNodes_empty]
  exact congrArg (fun l => Except.ok (Message.mk l)) hm

end Tree

namespace Template

/-- The sources at the root of a parsed template are those of the tree. -/
theorem sources_rootNodes (t : Template) :
    t.rootNodes.filterMap Node.source? = t.tree.nodes.filterMap Node.source? := by
  rw [tree, treeAt_eq, Tree.nodes, List.filterMap_map, rootNodes]
  exact List.filterMap_congr fun x _ => (Node.source?_map _ x).symm

/-- Nothing of a template is lost.  The parser reads the whole text, portion by portion,
and every placeholder at the root has as its source the portion that it took.  Evaluated
without arguments, where placeholders stay as they are written, a text without backslashes
is given back: no segment if it is empty, and otherwise one text. -/
theorem evaluate_parse_leave (text : String) :
    ('\\' ∉ text.toList → ∀ (key : String) (l : Locale),
      ((parse text).evaluate (.fresh key l .empty .leave)).1 =
        .ok ⟨if text = "" then [] else [.text text]⟩) ∧
      (∃ failures,
        Parser.items (Parser.placeholder maxNesting) .top [] 0 text.toList.length text.toList ∅ =
          ((Grammar.topPortions text.toList).map Prod.fst, text.toList.length, failures)) ∧
      (Grammar.topPortions text.toList).flatMap Prod.snd = text.toList ∧
      (parse text).rootNodes.filterMap Node.source? =
        (Grammar.topPortions text.toList).filterMap fun x =>
          x.1.source?.map fun _ => String.ofList x.2 := by
  refine ⟨?_, ?_, Grammar.flatMap_portions_top _ _, ?_⟩
  · intro hs key l
    have hw : (parse text).tree.nodes.flatMap Node.written = text.toList := by
      rw [tree_parse, Parser.tree_eq, Grammar.written_tree hs]
    calc ((parse text).evaluate (.fresh key l .empty .leave)).1
        = Pieces.message key .leave ((parse text).tree.pieces .empty l none) :=
          congrArg Prod.fst (evaluate_eq_message (parse text) rfl)
      _ = .ok ⟨if text = "" then [] else [.text text]⟩ := by
          rw [Tree.message_pieces_empty, hw, String.ofList_toList]
          simp only [String.toList_eq_nil_iff]
  · obtain ⟨f, -, h⟩ := (Parser.follows_placeholder text.toList maxNesting).items .top
      List.suffix_rfl [] 0 (Parser.trueFailures_empty text.toList)
    refine ⟨f, ?_⟩
    rw [h, Grammar.map_fst_portions, (Grammar.keeps_placeholder maxNesting).items_top,
      List.reverse_nil, List.nil_append, Nat.zero_add]
  · rw [sources_rootNodes, tree_parse, Parser.tree_eq, Grammar.sources_tree]

/-- A choice, a closing brace too many, a placeholder, and a choice that is not closed. -/
def tangled : String :=
  "\x7ba, plural, other\x7b#\x7d\x7d \x7d \x7bn, x\x7d \x7ba, plural, one\x7b \x7b"

theorem evaluate_parse_leave_tangled :
    '\\' ∉ tangled.toList ∧
      ((parse tangled).evaluate (.fresh "k" .english .empty .leave)).1 =
        .ok ⟨if tangled = "" then [] else [.text tangled]⟩ := by
  have hs : '\\' ∉ tangled.toList := by decide
  exact ⟨hs, (evaluate_parse_leave tangled).1 hs "k" .english⟩

end Template

end Phrasebook
