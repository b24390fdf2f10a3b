import Mathlib.Data.List.Chain
import Phrasebook.Proofs.Message.Merging

/-!
# Phrasebook.Proofs.Message.Stream

Messages as streams of characters and values.

A row of segments stands for a stream of items (`Segment.items`): the characters of its
texts, one by one, and its values with their directives.  Merging keeps the stream
(`flatMap_items_merged`) and looks at nothing else (`ofStream_flatMap_items`), so

* two rows are merged to the same message exactly when their streams are the same
  (`ofSegments_eq_iff`);
* a message is in canonical form, with no text empty and no two texts side by side,
  exactly when its own segments rebuild it (`canonical_iff`);
* a message in canonical form is determined by its stream (`Canonical.ofStream_stream`).
-/

namespace Phrasebook

/-! ## items -/

/-- What messages are made of: characters of text, and values with their directives. -/
inductive Item where
  | character (c : Char)
  | value (v : Value) (directive : Option String)

/-- The segment of a single item. -/
def Item.segment : Item → Segment Value
  | .character c => .text (String.singleton c)
  | .value v d => .value v d

namespace Segment

/-- The items of a segment. -/
def items : Segment Value → List Item
  | .text s => s.toList.map .character
  | .value v d => [.value v d]

/-- Whether a segment is text. -/
def isText : Segment Value → Bool
  | .text _ => true
  | .value _ _ => false

theorem items_text_append (s t : String) :
    (text (s ++ t) : Segment Value).items = (text s).items ++ (text t).items := by
  simp [items]

@[simp] theorem items_segment (i : Item) : i.segment.items = [i] := by
  cases i <;> simp [Item.segment, items]

end Segment

namespace Message

/-- The items of a message, in order. -/
def stream (m : Message) : List Item := m.segments.flatMap Segment.items

/-- The message that pushes items in order. -/
def ofStream (s : List Item) : Message := ofSegments (s.map Item.segment)

/-! ## merging keeps the stream -/

theorem flatMap_items_consMerged (x : Segment Value) (l : List (Segment Value)) :
    (consMerged x l).flatMap Segment.items = x.items ++ l.flatMap Segment.items := by
  cases x with
  | value v d => rfl
  | text s =>
    cases l with
    | nil => by_cases hs : s = "" <;> simp [consMerged, hs, Segment.items]
    | cons y rest =>
      cases y with
      | text t => simp [consMerged, Segment.items_text_append]
      | value v d => by_cases hs : s = "" <;> simp [consMerged, hs, Segment.items]

theorem flatMap_items_merged (l : List (Segment Value)) :
    (merged l).flatMap Segment.items = l.flatMap Segment.items := by
  induction l with
  | nil => rfl
  | cons x rest ih =>
    have hx : merged (x :: rest) = consMerged x (merged rest) := rfl
    rw [hx, flatMap_items_consMerged, ih, List.flatMap_cons]

/-- The stream of a message is the one that was pushed. -/
theorem stream_ofSegments (l : List (Segment Value)) :
    (ofSegments l).stream = l.flatMap Segment.items := by
  rw [stream, ofSegments_eq, flatMap_items_merged]

@[simp] theorem stream_ofStream (s : List Item) : (ofStream s).stream = s := by
  simp [ofStream, stream_ofSegments, List.flatMap_map]

/-! ## merging looks at the stream only -/

/-- Two texts in front of a row are in front of it as one. -/
theorem consMerged_text_append (s t : String) (l : List (Segment Value)) :
    consMerged (.text (s ++ t)) l = consMerged (.text s) (consMerged (.text t) l) := by
  cases l with
  | nil => by_cases ht : t = "" <;> simp [consMerged, ht]
  | cons y rest =>
    cases y with
    | text u => simp [consMerged, String.append_assoc]
    | value v d => by_cases ht : t = "" <;> simp [consMerged, ht]

/-- A segment is put in front of a row as its items are, one by one. -/
theorem foldr_consMerged_items (x : Segment Value) (l : List (Segment Value)) :
    (x.items.map Item.segment).foldr consMerged l = consMerged x l := by
  cases x with
  | value v d => rfl
  | text s =>
    obtain ⟨cs, rfl⟩ : ∃ cs, s = String.ofList cs := ⟨s.toList, String.ofList_toList.symm⟩
    induction cs with
    | nil => cases l with
      | nil => rfl
      | cons y rest => cases y <;> simp [Segment.items, consMerged]
    | cons c cs ih =>
      have hc : String.ofList (c :: cs) = String.singleton c ++ String.ofList cs := by
        simp
      rw [hc, consMerged_text_append, ← ih, Segment.items_text_append]
      simp [Segment.items, Item.segment]

/-- Pushing segments is pushing their items. -/
theorem ofStream_flatMap_items (l : List (Segment Value)) :
    ofStream (l.flatMap Segment.items) = ofSegments l := by
  have h : merged ((l.flatMap Segment.items).map Item.segment) = merged l := by
    induction l with
    | nil => rfl
    | cons x rest ih =>
      have hx : merged (x :: rest) = consMerged x (merged rest) := rfl
      rw [List.flatMap_cons, List.map_append, merged, List.foldr_append, ← merged, ih,
        foldr_consMerged_items, hx]
  rw [ofStream, ofSegments_eq, ofSegments_eq, h]

/-- Rows of segments are the same message exactly when they are the same stream. -/
theorem ofSegments_eq_iff (l l' : List (Segment Value)) :
    ofSegments l = ofSegments l' ↔ l.flatMap Segment.items = l'.flatMap Segment.items := by
  constructor
  · intro h
    rw [← stream_ofSegments, h, stream_ofSegments]
  · intro h
    rw [← ofStream_flatMap_items l, h, ofStream_flatMap_items]

/-- Pushing a segment extends the stream by its items. -/
theorem push_ofStream (s : List Item) (x : Segment Value) :
    (ofStream s).push x = ofStream (s ++ x.items) := by
  have h : (ofStream s).push x = ofSegments (s.map Item.segment ++ [x]) := by
    rw [ofStream, ofSegments, ofSegments, List.foldl_append]
    rfl
  rw [h, ← ofStream_flatMap_items]
  simp [List.flatMap_map]

/-! ## canonical form -/

/-- A message in canonical form: no text is empty, and no two texts stand side by side. -/
structure Canonical (m : Message) : Prop where
  ne_empty : ∀ s, .text s ∈ m.segments → s ≠ ""
  apart : m.segments.IsChain fun x y => ¬ (x.isText = true ∧ y.isText = true)

theorem canonical_empty : empty.Canonical := ⟨by simp [empty], .nil⟩

theorem Canonical.tail {x : Segment Value} {l : List (Segment Value)}
    (h : Canonical ⟨x :: l⟩) : Canonical ⟨l⟩ :=
  ⟨fun s hs => h.ne_empty s (List.mem_cons_of_mem x hs), h.apart.tail⟩

/-- The first of two rows that make up a message in canonical form is in canonical form. -/
theorem Canonical.left {l r : List (Segment Value)} (h : Canonical ⟨l ++ r⟩) : Canonical ⟨l⟩ :=
  ⟨fun s hs => h.ne_empty s (List.mem_append_left r hs), (List.isChain_append.1 h.apart).1⟩

theorem Canonical.consMerged {l : List (Segment Value)} (h : Canonical ⟨l⟩) (x : Segment Value) :
    Canonical ⟨consMerged x l⟩ := by
  obtain ⟨hne, hap⟩ := h
  dsimp only at hne hap
  cases x with
  | value v d =>
    refine ⟨by simpa [Message.consMerged] using hne, ?_⟩
    simpa [Message.consMerged, List.isChain_cons, Segment.isText] using hap
  | text s =>
    cases l with
    | nil => by_cases hs : s = "" <;> constructor <;> simp [Message.consMerged, hs]
    | cons y rest =>
      cases y with
      | text t =>
        -- the first text grows, and is no more empty than before
        have ht := hne t List.mem_cons_self
        refine ⟨?_, ?_⟩
        · intro u hu
          obtain hu | hu := List.mem_cons.1 hu
          · cases hu
            simp [ht]
          · exact hne u (List.mem_cons_of_mem _ hu)
        · simpa [Message.consMerged, List.isChain_cons, Segment.isText] using hap
      | value v d =>
        by_cases hs : s = ""
        · simpa [Message.consMerged, hs] using (⟨hne, hap⟩ : Canonical _)
        · refine ⟨?_, ?_⟩
          · simpa [Message.consMerged, hs] using hne
          · simpa [Message.consMerged, hs, List.isChain_cons, Segment.isText] using hap

/-- What is pushed together is in canonical form. -/
theorem canonical_ofSegments (l : List (Segment Value)) : (ofSegments l).Canonical := by
  rw [ofSegments_eq]
  induction l with
  | nil => exact canonical_empty
  | cons x rest ih => exact ih.consMerged x

theorem canonical_ofStream (s : List Item) : (ofStream s).Canonical := canonical_ofSegments _

/-- A row in canonical form has nothing to merge. -/
theorem Canonical.merged_eq {l : List (Segment Value)} (h : Canonical ⟨l⟩) : merged l = l := by
  induction l with
  | nil => rfl
  | cons x rest ih =>
    have hx : merged (x :: rest) = Message.consMerged x (merged rest) := rfl
    rw [hx, ih h.tail]
    cases x with
    | value v d => rfl
    | text s =>
      have hs := h.ne_empty s List.mem_cons_self
      cases rest with
      | nil => simp [Message.consMerged, hs]
      | cons y rest =>
        have hy := (List.isChain_cons.1 h.apart).1 y rfl
        cases y with
        | text t => simp [Segment.isText] at hy
        | value v d => simp [Message.consMerged, hs]

/-- The messages in canonical form are those that their own segments rebuild. -/
theorem canonical_iff (m : Message) : m.Canonical ↔ ofSegments m.segments = m := by
  constructor
  · intro h
    rw [ofSegments_eq, h.merged_eq]
  · intro h
    rw [← h]
    exact canonical_ofSegments _

/-- A message in canonical form is the one of its stream. -/
theorem Canonical.ofStream_stream {m : Message} (h : m.Canonical) : ofStream m.stream = m := by
  rw [stream, ofStream_flatMap_items, (canonical_iff m).1 h]

/-- A segment pushed onto a message in canonical form extends its stream. -/
theorem Canonical.push_eq {m : Message} (h : m.Canonical) (x : Segment Value) :
    m.push x = ofStream (m.stream ++ x.items) := by
  rw [← push_ofStream, h.ofStream_stream]

/-- Messages in canonical form are the same when their streams are. -/
theorem Canonical.eq_of_stream_eq {m m' : Message} (h : m.Canonical) (h' : m'.Canonical)
    (hs : m.stream = m'.stream) : m = m' := by
  rw [← h.ofStream_stream, hs, h'.ofStream_stream]

end Message

end Phrasebook
