import Phrasebook.Proofs.Message.Stream

/-!
# Phrasebook.Proofs.Message.Lines

Cutting a message into lines loses nothing but a last newline.

Segments are cut text by text, with an inner loop over the pieces between newlines.  The
same cut can be made item by item (`Cut.addItem`, `Cut.add_eq_foldl`), where a step
either ends a line or extends it.  The invariant of these steps (`Cut.Follows`) is that the
lines so far are the pieces of the stream so far, and that `fresh` tells whether a newline
came last.

* `splitLines_eq` — the lines of a message are the lines of its stream;
* `joinLines_splitLines` — joined with newlines they are the message again, but for a
  newline at its end.
-/

namespace Phrasebook

/-! ## joining lists -/

section

variable {α β : Type}

theorem flatMap_intercalate (f : α → List β) (sep : List α) (ls : List (List α)) :
    (sep.intercalate ls).flatMap f =
      (sep.flatMap f).intercalate (ls.map fun l => l.flatMap f) := by
  induction ls with
  | nil => rfl
  | cons l rest ih =>
    cases rest with
    | nil => simp
    | cons l' rest =>
      simp only [List.map_cons] at ih
      simp [List.intercalate_cons_cons, ih]

theorem nil_intercalate (ls : List (List α)) : [].intercalate ls = ls.flatten := by
  induction ls with
  | nil => rfl
  | cons l rest ih =>
    cases rest with
    | nil => simp
    | cons l' rest => simp [List.intercalate_cons_cons, ih]

end

/-! ## lines of a stream -/

namespace Item

/-- The item at which a message is cut. -/
def newline : Item := .character '\n'

/-- Whether an item is a newline. -/
def isNewline : Item → Bool
  | .character c => c == '\n'
  | .value _ _ => false

theorem isNewline_iff {i : Item} : i.isNewline = true ↔ i = newline := by
  cases i <;> simp [isNewline, newline]

/-- A newline comes last. -/
def endsInNewline (s : List Item) : Bool := s.getLast?.any isNewline

theorem endsInNewline_iff {s : List Item} :
    endsInNewline s = true ↔ ∃ t, s = t ++ [newline] := by
  obtain rfl | ⟨t, i, rfl⟩ := List.eq_nil_or_concat s
  · simp [endsInNewline]
  · simp [endsInNewline, isNewline_iff]

/-- The pieces of a stream between its newlines; a last newline ends the last piece. -/
def lines (s : List Item) : List (List Item) :=
  if endsInNewline s then (s.splitOnP isNewline).dropLast else s.splitOnP isNewline

theorem splitOnP_concat_newline (s : List Item) :
    (s ++ [newline]).splitOnP isNewline = s.splitOnP isNewline ++ [[]] :=
  List.splitOnP_append_cons s [] (isNewline_iff.2 rfl)

/-- An item that is no newline extends the last piece. -/
theorem splitOnP_concat (s : List Item) {i : Item} (hi : i.isNewline = false) :
    ∃ before last, s.splitOnP isNewline = before ++ [last] ∧
      (s ++ [i]).splitOnP isNewline = before ++ [last ++ [i]] := by
  induction s with
  | nil => exact ⟨[], [], rfl, by simp [List.splitOnP_cons_eq_if_modifyHead, hi]⟩
  | cons j s ih =>
    obtain ⟨before, last, hs, hsi⟩ := ih
    rw [List.cons_append, List.splitOnP_cons_eq_if_modifyHead,
      List.splitOnP_cons_eq_if_modifyHead, hs, hsi]
    by_cases hj : j.isNewline = true
    · exact ⟨[] :: before, last, by simp [hj], by simp [hj]⟩
    · cases before with
      | nil => exact ⟨[], j :: last, by simp [hj], by simp [hj]⟩
      | cons p before => exact ⟨(j :: p) :: before, last, by simp [hj], by simp [hj]⟩

/-- No piece between newlines has a newline in it. -/
theorem newline_not_mem_of_mem_splitOnP {s p : List Item} (h : p ∈ s.splitOnP isNewline) :
    newline ∉ p := by
  induction s generalizing p with
  | nil => simp_all
  | cons i s ih =>
    rw [List.splitOnP_cons_eq_if_modifyHead] at h
    split at h
    · obtain rfl | h := List.mem_cons.1 h
      · exact List.not_mem_nil
      · exact ih h
    · next hi =>
      cases hs : s.splitOnP isNewline with
      | nil => exact absurd hs (List.splitOnP_ne_nil _ s)
      | cons q rest =>
        rw [hs] at h ih
        obtain rfl | h := List.mem_cons.1 h
        · rw [isNewline_iff] at hi
          simp [Ne.symm hi, ih List.mem_cons_self]
        · exact ih (List.mem_cons_of_mem q h)

/-- The pieces between newlines, joined with newlines, are the whole. -/
theorem intercalate_splitOnP (s : List Item) :
    [newline].intercalate (s.splitOnP isNewline) = s := by
  induction s with
  | nil => rfl
  | cons i s ih =>
    rw [List.splitOnP_cons_eq_if_modifyHead]
    cases hs : s.splitOnP isNewline with
    | nil => exact absurd hs (List.splitOnP_ne_nil _ s)
    | cons p rest =>
      rw [hs] at ih
      split
      · next hi => rw [List.intercalate_cons_cons, ih, isNewline_iff.1 hi]; rfl
      · cases rest with
        | nil => simpa using ih
        | cons q rest =>
          rw [List.intercalate_cons_cons] at ih
          rw [List.modifyHead_cons, List.intercalate_cons_cons, ← ih]
          simp

theorem lines_concat_newline (s : List Item) :
    lines (s ++ [newline]) = s.splitOnP isNewline := by
  have h : endsInNewline (s ++ [newline]) = true := endsInNewline_iff.2 ⟨s, rfl⟩
  rw [lines, if_pos h, splitOnP_concat_newline, List.dropLast_concat]

theorem lines_of_not_endsInNewline {s : List Item} (h : ¬ ∃ t, s = t ++ [newline]) :
    lines s = s.splitOnP isNewline := by
  rw [lines, if_neg fun he => h (endsInNewline_iff.1 he)]

/-- The lines of a stream are the pieces of all of it but a last newline. -/
theorem exists_lines_eq (s : List Item) :
    ∃ t, lines s = t.splitOnP isNewline ∧
      (s = t ++ [newline] ∨ s = t ∧ ¬ ∃ u, s = u ++ [newline]) := by
  by_cases h : ∃ t, s = t ++ [newline]
  · obtain ⟨t, rfl⟩ := h
    exact ⟨t, lines_concat_newline t, .inl rfl⟩
  · exact ⟨s, lines_of_not_endsInNewline h, .inr ⟨rfl, h⟩⟩

end Item

/-! ## cutting item by item -/

namespace Message

open Item (newline isNewline)

/-- Continues a cut with an item. -/
def Cut.addItem (c : Cut) (i : Item) : Cut :=
  if i.isNewline then ⟨c.current :: c.done, empty, true⟩
  else ⟨c.done, c.current.push i.segment, false⟩

/-- The pieces of a text between its newlines are cut as its characters are, one by one. -/
theorem Cut.newlines_eq_foldl (s : List Char) (c : Cut) {first : List Char}
    {rest : List (List Char)} (h : Text.splitOn '\n' s = first :: rest) :
    newlines ⟨c.done, c.current.pushText (String.ofList first), c.fresh && first.isEmpty⟩ rest =
      (s.map .character).foldl addItem c := by
  induction s generalizing c first rest with
  | nil =>
    cases h
    simp [newlines]
  | cons d s ih =>
    rw [Text.splitOn] at h
    rw [List.map_cons, List.foldl_cons]
    cases hs : Text.splitOn '\n' s with
    | nil => exact absurd hs (Text.splitOn_ne_nil _ s)
    | cons p ps =>
      rw [hs] at h
      rw [← ih (c.addItem (.character d)) hs]
      -- a newline turns the piece that follows it into one of the later pieces
      split at h
      · next hd =>
        cases h
        simp [newlines, addItem, isNewline, hd, ofText]
      · next hd =>
        cases h
        have hp : String.ofList (d :: p) = String.singleton d ++ String.ofList p := by simp
        simp [addItem, isNewline, hd, Item.segment, push, pushText_append, hp]

/-- A segment is cut as its items are, one by one. -/
theorem Cut.add_eq_foldl (c : Cut) {x : Segment Value} (hx : ∀ s, x = .text s → s ≠ "") :
    c.add x = x.items.foldl addItem c := by
  cases x with
  | value v d => rfl
  | text s =>
    rw [Segment.items, Cut.add]
    cases h : Text.splitOn '\n' s.toList with
    | nil => exact absurd h (Text.splitOn_ne_nil _ _)
    | cons first rest =>
      rw [← newlines_eq_foldl s.toList c h]
      cases rest with
      | cons p ps => rfl
      | nil =>
        -- without a newline the piece is the whole text, which is not empty
        have hs := Text.intercalate_splitOn '\n' s.toList
        rw [h, List.intercalate_singleton] at hs
        have hf : first.isEmpty = false := by
          rw [hs, List.isEmpty_eq_false_iff]
          exact fun he => hx s rfl (String.toList_eq_nil_iff.1 he)
        rw [hf, Bool.and_false]

/-- The lines so far are the pieces of the stream so far, and it is known whether a newline
came last. -/
structure Cut.Follows (c : Cut) (s : List Item) : Prop where
  pieces : (c.current :: c.done).reverse = (s.splitOnP isNewline).map ofStream
  fresh : c.fresh = Item.endsInNewline s

theorem Cut.follows_nil : Cut.Follows ⟨[], empty, false⟩ [] := ⟨rfl, rfl⟩

/-- One more item ends a line or extends it. -/
theorem Cut.Follows.addItem {c : Cut} {s : List Item} (h : c.Follows s) (i : Item) :
    (c.addItem i).Follows (s ++ [i]) := by
  obtain ⟨hp, -⟩ := h
  rw [Cut.addItem]
  -- the pieces are kept in reverse, the line in progress in front
  by_cases hi : i.isNewline = true
  · refine ⟨?_, by simp [Item.endsInNewline, hi]⟩
    rw [if_pos hi, Item.isNewline_iff.1 hi, Item.splitOnP_concat_newline, List.reverse_cons, hp,
      List.map_append]
    rfl
  · have hi : i.isNewline = false := by simpa using hi
    refine ⟨?_, by simp [Item.endsInNewline, hi]⟩
    obtain ⟨before, last, hs, hsi⟩ := Item.splitOnP_concat s hi
    rw [hs, List.reverse_cons, List.map_append] at hp
    obtain ⟨hd, hc⟩ := List.append_inj' hp rfl
    have hc : c.current = ofStream last := by simpa using hc
    rw [hsi, if_neg (by simp [hi]), List.reverse_cons, hd, hc, push_ofStream]
    simp

theorem Cut.Follows.run {c : Cut} {s : List Item} (h : c.Follows s) (t : List Item) :
    (t.foldl Cut.addItem c).Follows (s ++ t) := by
  induction t generalizing c s with
  | nil => simpa using h
  | cons i t ih =>
    have hi := ih (h.addItem i)
    rwa [List.append_assoc, List.singleton_append] at hi

/-- A finished cut has the lines of the stream. -/
theorem Cut.Follows.lines_eq {c : Cut} {s : List Item} (h : c.Follows s) :
    c.lines = (Item.lines s).map ofStream := by
  obtain ⟨hp, hf⟩ := h
  rw [Cut.lines, hf]
  by_cases hs : ∃ t, s = t ++ [newline]
  · obtain ⟨t, rfl⟩ := hs
    have he : Item.endsInNewline (t ++ [newline]) = true := Item.endsInNewline_iff.2 ⟨t, rfl⟩
    rw [Item.splitOnP_concat_newline, List.reverse_cons, List.map_append] at hp
    obtain ⟨hd, hc⟩ := List.append_inj' hp rfl
    have hc : c.current = ofStream [] := by simpa using hc
    have hm : c.current.isEmpty = true := by rw [hc]; rfl
    rw [he, hm, Item.lines_concat_newline, ← hd]
    rfl
  · have he : Item.endsInNewline s = false := by
      simpa using fun h => hs (Item.endsInNewline_iff.1 h)
    rw [he, Item.lines_of_not_endsInNewline hs, ← hp]
    rfl

/-- A message is cut as its stream is, item by item. -/
theorem foldl_add_eq_foldl {m : Message} (h : m.Canonical) (c : Cut) :
    m.segments.foldl Cut.add c = m.stream.foldl Cut.addItem c := by
  obtain ⟨l⟩ := m
  induction l generalizing c with
  | nil => rfl
  | cons x rest ih =>
    have hx : ∀ s, x = .text s → s ≠ "" := fun s hs => h.ne_empty s (hs ▸ List.mem_cons_self)
    have hs : stream ⟨x :: rest⟩ = x.items ++ stream ⟨rest⟩ := rfl
    rw [hs, List.foldl_append, ← c.add_eq_foldl hx]
    exact ih (c.add x) h.tail

/-- The lines of a message are the lines of its stream. -/
theorem splitLines_eq {m : Message} (h : m.Canonical) :
    m.splitLines = (Item.lines m.stream).map ofStream := by
  rw [splitLines, foldl_add_eq_foldl h]
  exact (Cut.follows_nil.run m.stream).lines_eq

/-! ## joining lines -/

/-- Lines pushed in order, with a newline between one and the next. -/
def joinLines (lines : List Message) : Message :=
  ofSegments ([.text "\n"].intercalate (lines.map segments))

theorem stream_joinLines (lines : List Message) :
    (joinLines lines).stream = [newline].intercalate (lines.map stream) := by
  rw [joinLines, stream_ofSegments, flatMap_intercalate, List.map_map]
  rfl

/-! ## values -/

/-- The value that a segment is, with its directive. -/
def segmentValues : Segment Value → List (Value × Option String)
  | .text _ => []
  | .value v d => [(v, d)]

/-- The values of a message with their directives, in order. -/
def values (m : Message) : List (Value × Option String) := m.segments.flatMap segmentValues

/-- The values of a message are those of its stream. -/
theorem values_eq (m : Message) : m.values = m.stream.flatMap fun i => segmentValues i.segment := by
  have hx : ∀ x : Segment Value,
      segmentValues x = x.items.flatMap fun i => segmentValues i.segment := by
    intro x
    cases x <;> simp [segmentValues, Segment.items, Item.segment]
  rw [values, stream, List.flatMap_assoc]
  exact List.flatMap_congr fun x _ => hx x

/-- Joining lines keeps their values. -/
theorem values_joinLines (lines : List Message) :
    (joinLines lines).values = lines.flatMap values := by
  have hn : [newline].flatMap (fun i => segmentValues i.segment) = [] := rfl
  rw [values_eq, stream_joinLines, flatMap_intercalate, hn, nil_intercalate, List.map_map,
    funext values_eq]
  rfl

/-! ## cutting and joining -/

section

variable {m : Message}

theorem Canonical.splitLines_ne_nil (h : m.Canonical) : m.splitLines ≠ [] := by
  obtain ⟨t, hl, -⟩ := Item.exists_lines_eq m.stream
  rw [splitLines_eq h, hl, ne_eq, List.map_eq_nil_iff]
  exact List.splitOnP_ne_nil _ t

/-- No line has a newline in its text. -/
theorem Canonical.newline_not_mem_of_mem_splitLines (h : m.Canonical) {line : Message}
    (hline : line ∈ m.splitLines) {s : String} (hs : .text s ∈ line.segments) :
    '\n' ∉ s.toList := by
  obtain ⟨t, hl, -⟩ := Item.exists_lines_eq m.stream
  rw [splitLines_eq h, hl] at hline
  obtain ⟨p, hp, rfl⟩ := List.mem_map.1 hline
  intro hn
  have hnl : newline ∈ (ofStream p).stream := List.mem_flatMap.2 ⟨_, hs, List.mem_map_of_mem hn⟩
  rw [stream_ofStream] at hnl
  exact Item.newline_not_mem_of_mem_splitOnP hp hnl

/-- The stream of the lines, joined, is that of the message, without a newline at its end. -/
theorem Canonical.stream_joinLines_cases (h : m.Canonical) :
    m.stream = (joinLines m.splitLines).stream ++ [newline] ∨
      m.stream = (joinLines m.splitLines).stream ∧ ¬ ∃ t, m.stream = t ++ [newline] := by
  obtain ⟨t, hl, ht⟩ := Item.exists_lines_eq m.stream
  have hs : stream ∘ ofStream = id := funext stream_ofStream
  rwa [stream_joinLines, splitLines_eq h, List.map_map, hs, List.map_id, hl,
    Item.intercalate_splitOnP]

/-- The values of the lines are those of the message. -/
theorem Canonical.flatMap_values_splitLines (h : m.Canonical) :
    m.splitLines.flatMap values = m.values := by
  rw [← values_joinLines, values_eq, values_eq]
  obtain hs | ⟨hs, -⟩ := h.stream_joinLines_cases
  · simp [hs, newline, Item.segment, segmentValues]
  · rw [← hs]

/-- The stream of a message ends in a newline when its last segment is a text that does. -/
theorem Canonical.stream_eq_concat_newline_iff (h : m.Canonical) :
    (∃ t, m.stream = t ++ [newline]) ↔
      ∃ before s, m.segments = before ++ [.text (s ++ "\n")] := by
  constructor
  · rintro ⟨t, ht⟩
    obtain hl | ⟨before, x, hl⟩ := List.eq_nil_or_concat m.segments
    · simp [stream, hl] at ht
    · rw [List.concat_eq_append] at hl
      rw [stream, hl] at ht
      cases x with
      | value v d => simp [Segment.items, newline] at ht
      | text s =>
        have hs : s ≠ "" := h.ne_empty s (by simp [hl])
        obtain hn | ⟨u, c, hu⟩ := List.eq_nil_or_concat s.toList
        · exact absurd (String.toList_eq_nil_iff.1 hn) hs
        · have hc : c = '\n' := by
            simpa [Segment.items, hu, newline, ← List.append_assoc] using
              congrArg List.getLast? ht
          refine ⟨before, String.ofList u, ?_⟩
          rw [hl, ← String.ofList_toList (s := s), hu, hc]
          simp
  · rintro ⟨before, s, hl⟩
    refine ⟨before.flatMap Segment.items ++ s.toList.map .character, ?_⟩
    simp [stream, hl, Segment.items, newline]

/-- The lines of a message that ends in a newline are joined to what stands before it. -/
theorem Canonical.joinLines_splitLines_of_newline (h : m.Canonical)
    {before : List (Segment Value)} {s : String}
    (hl : m.segments = before ++ [.text (s ++ "\n")]) :
    joinLines m.splitLines = pushText ⟨before⟩ s := by
  have hb : Canonical ⟨before⟩ := by
    obtain ⟨l⟩ := m
    cases hl
    exact h.left
  have hp : pushText ⟨before⟩ s =
      ofStream (before.flatMap Segment.items ++ (Segment.text s).items) := hb.push_eq (.text s)
  have hm : m.stream = before.flatMap Segment.items ++ (Segment.text s).items ++ [newline] := by
    simp [stream, hl, Segment.items, newline]
  obtain hs | ⟨-, hn⟩ := h.stream_joinLines_cases
  · rw [hp]
    refine (canonical_ofSegments _).eq_of_stream_eq (canonical_ofStream _) ?_
    rw [stream_ofStream]
    exact List.append_cancel_right (hs.symm.trans hm)
  · exact absurd ⟨_, hm⟩ hn

/-- The lines of other messages are joined to the message. -/
theorem Canonical.joinLines_splitLines_of_no_newline (h : m.Canonical)
    (hn : ∀ before s, m.segments ≠ before ++ [.text (s ++ "\n")]) :
    joinLines m.splitLines = m := by
  refine (canonical_ofSegments _).eq_of_stream_eq h ?_
  obtain hs | ⟨hs, -⟩ := h.stream_joinLines_cases
  · obtain ⟨before, s, hl⟩ := h.stream_eq_concat_newline_iff.1 ⟨_, hs⟩
    exact absurd hl (hn before s)
  · exact hs.symm

/-- Cutting a message into lines loses no more than a last newline.  There is a line, no line
has a newline in its text, and every value is whole in one of them, in order.  Joined with
newlines the lines are the message, without its last newline if its last segment is a text
that ends in one. -/
theorem joinLines_splitLines (h : m.Canonical) :
    m.splitLines ≠ [] ∧
      (∀ line ∈ m.splitLines, ∀ s, .text s ∈ line.segments → '\n' ∉ s.toList) ∧
      m.splitLines.flatMap values = m.values ∧
      (∀ before s, m.segments = before ++ [.text (s ++ "\n")] →
        joinLines m.splitLines = pushText ⟨before⟩ s) ∧
      ((∀ before s, m.segments ≠ before ++ [.text (s ++ "\n")]) →
        joinLines m.splitLines = m) := by
  refine ⟨h.splitLines_ne_nil, ?_, h.flatMap_values_splitLines, ?_, ?_⟩
  · exact fun line hline s hs => h.newline_not_mem_of_mem_splitLines hline hs
  · exact fun before s hl => h.joinLines_splitLines_of_newline hl
  · exact h.joinLines_splitLines_of_no_newline

end

/-- A line of text, one of a value with a newline in it, and an empty one. -/
def threeLines : Message :=
  ofSegments [.text "a\n", .value (.text "b\nc") (some "bold"), .text "\n\n"]

theorem joinLines_splitLines_threeLines :
    threeLines.Canonical ∧
      threeLines.splitLines.flatMap values = [(.text "b\nc", some "bold")] ∧
      joinLines threeLines.splitLines =
        ⟨[.text "a\n", .value (.text "b\nc") (some "bold"), .text "\n"]⟩ := by
  have h : threeLines.Canonical := canonical_ofSegments _
  obtain ⟨-, -, hv, hj, -⟩ := joinLines_splitLines h
  refine ⟨h, hv, ?_⟩
  exact hj [.text "a\n", .value (.text "b\nc") (some "bold")] "\n" rfl

end Message

end Phrasebook
