import Phrasebook.Proofs.Template.Layout
import Phrasebook.Proofs.Template.Memo
import Phrasebook.Proofs.Template.Printing
import Phrasebook.Proofs.Template.Reading

/-!
# Phrasebook.Proofs.Template.RoundTrip

Parsing undoes printing, and printing gives a normal form.

Templates are compared as trees without their authored texts.  Every tree in normal
form is the tree of a template (`ofTree`), and a template with such a tree is read
back from its text.  Everything that is parsed has a tree in normal form, so one
parse and one print settle the text; and the normal form is no wider than what is
parsed (`canonical_iff_parsed`).
-/

namespace Phrasebook.Template

open Phrasebook.Tree

/-- The grammar reads the text of a tree in normal form as that tree. -/
theorem Grammar.bare_tree_print {t : Tree} (h : t.Canonical) :
    (tree (t.print .top)).bare = t.bare := by
  obtain ⟨ns⟩ := t
  rw [Canonical, CanonicalAt] at h
  obtain ⟨ns', hb, hm⟩ := mergedItems_printNodes ns .top maxNesting 0 rfl h [] rfl
  rw [List.append_nil] at hm
  have hm : (items (placeholder maxNesting) .top (Tree.printNodes .top ns)).1.foldr
      consMerged [] = ns' := congrArg Prod.fst hm
  rw [Tree.print, tree, merged, hm, bare, bare, hb]

/-- Every text is parsed as the grammar reads it. -/
theorem tree_parse_eq_grammar (text : String) : (parse text).tree = Grammar.tree text.toList := by
  rw [tree_parse, Parser.tree_eq]

/-- A template in normal form is read back from its text. -/
theorem bare_tree_parse_display {T : Template} (h : T.tree.Canonical) :
    (parse T.display).tree.bare = T.tree.bare := by
  rw [tree_parse_eq_grammar, ← display_tree, Tree.display, String.toList_ofList]
  exact Grammar.bare_tree_print h

/-- Every text is parsed as a template in normal form. -/
theorem canonical_parse (text : String) : (parse text).tree.Canonical := by
  rw [tree_parse_eq_grammar]
  exact Grammar.canonical_tree text.toList

/-! ## the round trips -/

/-- Parsing undoes printing: a tree in normal form is the tree of a template, and
every template with that tree is read back from its text, apart from the authored
texts. -/
theorem parse_display_of_canonical (t : Tree) (h : t.Canonical) :
    (ofTree t).tree = t ∧
      ∀ T : Template, T.tree = t → (parse T.display).tree.bare = t.bare := by
  refine ⟨tree_ofTree t, ?_⟩
  rintro T rfl
  exact bare_tree_parse_display h

/-- A tree with all that printing has to mind: a mark and braces in literals, a
directive that begins like a choice, conditions that are repeated, an empty body
and a choice in a branch. -/
def intricate : Tree :=
  .sequence [.literal "# \x7b\\", .placeholder (.name "_a.b-c") (some "plural, one") "",
    .plural (.index 18446744073709551615)
      [⟨.exact (-9223372036854775808), .sequence [.quantity, .literal "#\x7d"]⟩,
        ⟨.category .other, .sequence []⟩,
        ⟨.category .other, .sequence [.plural (.name "n")
          [⟨.exact 0, .sequence [.placeholder (.name "n") none "", .quantity]⟩] ""]⟩] "",
    .literal " "]

theorem parse_display_intricate :
    intricate.Canonical ∧ (parse (ofTree intricate).display).tree.bare = intricate.bare := by
  have h : intricate.Canonical := by decide +kernel
  obtain ⟨ht, hp⟩ := parse_display_of_canonical intricate h
  exact ⟨h, hp _ ht⟩

/-- The text of a parsed template is a normal form: the template is in normal form,
and parsing its text again changes neither the tree nor the text. -/
theorem parse_display_parse (text : String) :
    (parse text).tree.Canonical ∧
      (parse (parse text).display).tree.bare = (parse text).tree.bare ∧
      (parse (parse text).display).display = (parse text).display := by
  have h := canonical_parse text
  have hb := bare_tree_parse_display h
  refine ⟨h, hb, ?_⟩
  calc (parse (parse text).display).display
      = (parse (parse text).display).tree.bare.display := by rw [display_bare, display_tree]
    _ = (parse text).tree.bare.display := by rw [hb]
    _ = (parse text).display := by rw [display_bare, display_tree]

/-- The trees in normal form are those of parsed texts, apart from the authored texts. -/
theorem canonical_iff_parsed (t : Tree) :
    t.Canonical ↔ ∃ text : String, (parse text).tree.bare = t.bare := by
  constructor
  · intro h
    have ht : (ofTree t).tree.Canonical := by rw [tree_ofTree]; exact h
    exact ⟨(ofTree t).display, by rw [bare_tree_parse_display ht, tree_ofTree]⟩
  · rintro ⟨text, h⟩
    rw [← canonical_bare, ← h, canonical_bare]
    exact canonical_parse text

end Phrasebook.Template
