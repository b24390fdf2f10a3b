import Phrasebook.Message

/-!
# Phrasebook.Proofs.Message.Merging

The message of a row of segments.

Pushing goes from the left and looks at the last segment.  `Message.merged` builds the
same row from the right: an empty text is left out, and a text in front of a text is
one text with it.  The two agree (`ofSegments_eq`), since what is put in front of
a row and what is pushed at its end do not see each other (`segments_push_consMerged`).
-/

namespace Phrasebook.Message

/-- A segment in front of others; an empty text is none, and text in front of text is one
text. -/
def consMerged : Segment Value → List (Segment Value) → List (Segment Value)
  | .text s, .text t :: rest => .text (s ++ t) :: rest
  | .text s, rest => if s = "" then rest else .text s :: rest
  | .value v d, rest => .value v d :: rest

/-- A row of segments without empty texts, adjacent texts made one. -/
def merged (segments : List (Segment Value)) : List (Segment Value) :=
  segments.foldr consMerged []

/-- Only the first of the segments behind is looked at. -/
theorem consMerged_append (x : Segment Value) {l : List (Segment Value)} (h : l ≠ [])
    (r : List (Segment Value)) : consMerged x (l ++ r) = consMerged x l ++ r := by
  cases l with
  | nil => exact absurd rfl h
  | cons y rest =>
    cases x with
    | value v d => rfl
    | text s =>
      cases y with
      | text t => rfl
      | value v d =>
        by_cases hs : s = ""
        · simp [consMerged, hs]
        · simp [consMerged, hs]

/-- A text pushed at the end looks at the last segment only. -/
theorem appendText_append (t : String) (k : List (Segment Value)) {l : List (Segment Value)}
    (h : l ≠ []) : appendText t (k ++ l) = k ++ appendText t l := by
  obtain rfl | ⟨l, z, rfl⟩ := List.eq_nil_or_concat l
  · exact absurd rfl h
  · rw [List.concat_eq_append, ← List.append_assoc]
    cases z with
    | text u => rw [appendText_concat_text, appendText_concat_text, List.append_assoc]
    | value v d => rw [appendText_concat_value, appendText_concat_value, List.append_assoc]

/-- What is put in front of a row and a text pushed at its end do not see each other. -/
theorem segments_pushText_consMerged (x : Segment Value) (l : List (Segment Value)) (t : String) :
    (pushText ⟨consMerged x l⟩ t).segments = consMerged x (pushText ⟨l⟩ t).segments := by
  by_cases ht : t = ""
  · simp [ht]
  · simp only [pushText, if_neg ht]
    obtain rfl | ⟨k, z, rfl⟩ := List.eq_nil_or_concat l
    · cases x with
      | value v d => rfl
      | text s => by_cases hs : s = "" <;> simp [consMerged, hs, appendText]
    · rw [List.concat_eq_append]
      by_cases hk : k = []
      · -- the segment at the end is also the one behind `x`
        subst hk
        cases x with
        | text s => cases z <;> by_cases hs : s = "" <;>
            simp [consMerged, hs, appendText, String.append_assoc]
        | value v d => cases z <;> simp [consMerged, appendText]
      · rw [appendText_append t k (List.cons_ne_nil z []), consMerged_append x hk,
          consMerged_append x hk, appendText_append t _ (List.cons_ne_nil z [])]

theorem segments_push_consMerged (x y : Segment Value) (l : List (Segment Value)) :
    (push ⟨consMerged x l⟩ y).segments = consMerged x (push ⟨l⟩ y).segments := by
  cases y with
  | text t => exact segments_pushText_consMerged x l t
  | value v d =>
    by_cases hl : l = []
    · subst hl
      cases x with
      | value v d => rfl
      | text s => by_cases hs : s = "" <;> simp [consMerged, hs, push, pushValue]
    · exact (consMerged_append x hl _).symm

theorem merged_concat (l : List (Segment Value)) (y : Segment Value) :
    merged (l ++ [y]) = (push ⟨merged l⟩ y).segments := by
  induction l with
  | nil =>
    cases y with
    | text t => by_cases ht : t = "" <;> simp [merged, consMerged, push, pushText, ht]
    | value v d => rfl
  | cons x rest ih =>
    calc merged (x :: rest ++ [y])
        = consMerged x (merged (rest ++ [y])) := rfl
      _ = consMerged x (push ⟨merged rest⟩ y).segments := by rw [ih]
      _ = (push ⟨consMerged x (merged rest)⟩ y).segments :=
        (segments_push_consMerged x y (merged rest)).symm

/-- Segments pushed one after the other are merged with those before. -/
theorem segments_foldl_push (l pre : List (Segment Value)) :
    (l.foldl push ⟨merged pre⟩).segments = merged (pre ++ l) := by
  induction l generalizing pre with
  | nil => rw [List.append_nil, List.foldl_nil]
  | cons y rest ih =>
    have hy : push ⟨merged pre⟩ y = ⟨merged (pre ++ [y])⟩ := by rw [merged_concat]
    rw [List.foldl_cons, hy, ih, List.append_assoc, List.singleton_append]

/-- The message of a row of segments has them merged. -/
theorem ofSegments_eq (l : List (Segment Value)) : ofSegments l = ⟨merged l⟩ := by
  have h := segments_foldl_push l []
  rw [List.nil_append] at h
  rw [← h]
  rfl

end Phrasebook.Message
