import Phrasebook.Proofs.Evaluation.Outcome
import Phrasebook.Proofs.Message.Lines

/-!
# Phrasebook.Proofs.Message.Construction

The ways of building a message.

A message is started empty, from a text or from a row of segments, and pushed onto
(`Construction`).  Whatever the way, it is the message of the stream that was pushed
(`message_eq`).  So constructions are told apart by their streams alone, and the messages
that can be built are those in canonical form (`exists_construction_iff`).  The lines of
a message and the messages that templates are evaluated to are among them
(`canonical_of_mem_splitLines`, `canonical_of_evaluate`).
-/

namespace Phrasebook

/-- A way of building a message. -/
inductive Construction where
  | empty
  | ofText (s : String)
  | ofSegments (segments : List (Segment Value))
  | pushText (c : Construction) (s : String)
  | pushValue (c : Construction) (v : Value) (directive : Option String)
  | push (c : Construction) (x : Segment Value)

namespace Construction

/-- The message built. -/
def message : Construction → Message
  | empty => .empty
  | ofText s => .ofText s
  | ofSegments segments => .ofSegments segments
  | pushText c s => c.message.pushText s
  | pushValue c v d => c.message.pushValue v d
  | push c x => c.message.push x

/-- The items pushed, in order. -/
def stream : Construction → List Item
  | empty => []
  | ofText s => s.toList.map .character
  | ofSegments segments => segments.flatMap Segment.items
  | pushText c s => c.stream ++ s.toList.map .character
  | pushValue c v d => c.stream ++ [.value v d]
  | push c x => c.stream ++ x.items

/-- A construction builds the message of the items that it pushes. -/
theorem message_eq (c : Construction) : c.message = .ofStream c.stream := by
  induction c with
  | empty => rfl
  | ofText s => exact Message.push_ofStream [] (.text s)
  | ofSegments segments => exact (Message.ofStream_flatMap_items segments).symm
  | pushText c s ih =>
    rw [message, ih]
    exact Message.push_ofStream c.stream (.text s)
  | pushValue c v d ih =>
    rw [message, ih]
    exact Message.push_ofStream c.stream (.value v d)
  | push c x ih =>
    rw [message, ih]
    exact Message.push_ofStream c.stream x

/-- Constructions build the same message exactly when they push the same items. -/
theorem message_eq_iff (c c' : Construction) : c.message = c'.message ↔ c.stream = c'.stream := by
  rw [message_eq, message_eq, Message.ofStream, Message.ofStream, Message.ofSegments_eq_iff]
  simp [List.flatMap_map]

end Construction

namespace Message

/-- The messages that can be built are those in canonical form. -/
theorem exists_construction_iff (m : Message) :
    (∃ c : Construction, c.message = m) ↔ m.Canonical := by
  constructor
  · rintro ⟨c, rfl⟩
    rw [c.message_eq]
    exact canonical_ofStream _
  · intro h
    exact ⟨.ofSegments m.segments, (canonical_iff m).1 h⟩

theorem canonical_of_mem_splitLines {m line : Message} (h : m.Canonical)
    (hline : line ∈ m.splitLines) : line.Canonical := by
  rw [splitLines_eq h] at hline
  obtain ⟨p, -, rfl⟩ := List.mem_map.1 hline
  exact canonical_ofStream p

/-- Evaluating a template builds its message. -/
theorem canonical_of_evaluate {t : Template} {c : Context} {m : Message}
    (h : (t.evaluate c).1 = .ok m) : m.Canonical := by
  rw [Template.evaluate, Template.evalSequence_eq_outcome, Pieces.outcome] at h
  split at h
  · cases h
  · cases h
    exact canonical_ofSegments _

/-- Whatever the way in which a message is built, it is in canonical form and rebuilt by
its own segments; two ways lead to the same segments exactly when they push the same
characters and values in order; and the lines of a message are messages that can be
built, as is what templates are evaluated to. -/
theorem construction_canonical (c : Construction) :
    c.message.Canonical ∧
      ofSegments c.message.segments = c.message ∧
      (∀ c' : Construction,
        c.message.segments = c'.message.segments ↔ c.stream = c'.stream) ∧
      (∀ line ∈ c.message.splitLines, ∃ c' : Construction, c'.message = line) ∧
      ∀ (t : Template) (ctx : Context) (m : Message),
        (t.evaluate ctx).1 = .ok m → ∃ c' : Construction, c'.message = m := by
  have h : c.message.Canonical := (exists_construction_iff _).1 ⟨c, rfl⟩
  refine ⟨h, (canonical_iff _).1 h, fun c' => ?_, fun line hline => ?_, fun t ctx m hm => ?_⟩
  · rw [← Construction.message_eq_iff, Message.mk.injEq]
  · exact (exists_construction_iff line).2 (canonical_of_mem_splitLines h hline)
  · exact (exists_construction_iff m).2 (canonical_of_evaluate hm)

/-- Text pushed piece by piece, some of it empty, and a value after it. -/
def piecemeal : Construction :=
  ((Construction.ofSegments [.text "", .text "a"]).pushText "\nb").pushValue (.integer 1) none

theorem construction_canonical_piecemeal :
    piecemeal.message.segments =
        ((Construction.ofText "a\nb").push (.value (.integer 1) none)).message.segments ∧
      (ofText "a" ∈ piecemeal.message.splitLines ∧
        ∃ c' : Construction, c'.message = ofText "a") ∧
      ∃ m, ((Template.parse "a\x7bn\x7d").evaluate
          (.fresh "k" .english (.ofNamed [("n", .integer 1)]) .error)).1 = .ok m ∧
        ∃ c' : Construction, c'.message = m := by
  obtain ⟨-, -, hs, hl, he⟩ := construction_canonical piecemeal
  have hm : ofText "a" ∈ piecemeal.message.splitLines := List.mem_cons_self
  have ho : ((Template.parse "a\x7bn\x7d").evaluate
      (.fresh "k" .english (.ofNamed [("n", .integer 1)]) .error)).1.toOption.isSome = true := by
    decide +kernel
  refine ⟨(hs _).2 rfl, ⟨hm, hl _ hm⟩, ?_⟩
  cases h : ((Template.parse "a\x7bn\x7d").evaluate
      (.fresh "k" .english (.ofNamed [("n", .integer 1)]) .error)).1 with
  | error err => simp [h, Except.toOption] at ho
  | ok m => exact ⟨m, rfl, he _ _ m h⟩

end Message

end Phrasebook
