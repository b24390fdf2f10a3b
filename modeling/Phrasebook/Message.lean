import Phrasebook.Number.Decimal
import Phrasebook.Text.Blank
import Phrasebook.Text.Split

/-!
# Phrasebook.Message

Values and the messages they are set into.

A message is a row of segments: text copied from a template, and values with the
directive of the placeholder that put them there.  A value can itself be a
message, so what was set into it stays apart from the text around it.

Messages are built by pushing.  Empty text leaves no segment and text after text
extends it, so a message is determined by the characters and values pushed:

* `pushText_append` — pushing two texts is pushing their concatenation;
* `display_pushText` — pushing a text appends it to what the message displays.
-/

namespace Phrasebook

open Phrasebook.Number (Double Decimal)

/-! ## segments and values -/

/-- A piece of a message over values of a type. -/
inductive Segment (ν : Type) where
  | text (s : String)
  | value (v : ν) (directive : Option String)
deriving DecidableEq

/-- A value that can be set into a message. -/
inductive Value where
  | integer (n : Int64)
  | float (x : Double)
  | text (s : String)
  | message (segments : List (Segment Value))

/-- A message: its segments in order. -/
structure Message where
  segments : List (Segment Value)

namespace Value

mutual

/-- The text of a value. -/
def display : Value → String
  | .integer n => Number.renderInt n.toInt
  | .float x => x.render
  | .text s => s
  | .message segments => displaySegments segments

/-- The text of a row of segments. -/
def displaySegments : List (Segment Value) → String
  | [] => ""
  | .text s :: rest => s ++ displaySegments rest
  | .value v _ :: rest => v.display ++ displaySegments rest

end

/-- The integer that a value holds. -/
def integer? : Value → Option Int64
  | .integer n => some n
  | _ => none

/-- A number as a float. -/
def float? : Value → Option Double
  | .integer n => some (Double.ofInt64 n)
  | .float x => some x
  | _ => none

/-- The text that a value holds. -/
def text? : Value → Option String
  | .text s => some s
  | _ => none

/-- The message that a value holds. -/
def message? : Value → Option Message
  | .message segments => some ⟨segments⟩
  | _ => none

/-- The quantity by which a value selects a plural form.  A float counts as its
text, so `1.5` has one fraction digit; a text counts as the decimal written in
it, blanks around it aside.  Other texts, messages and the special floats have
no quantity. -/
def quantity? : Value → Option Decimal
  | .integer n => some (Decimal.ofInt64 n)
  | .float x => if x.isFinite then Decimal.read? x.render.toList else none
  | .text s => Decimal.read? (Text.trimChars s.toList)
  | .message _ => none

/-- The integer by which a value selects an exact plural form. -/
def exactInteger? : Value → Option Int64
  | .integer n => some n
  | .float x => if x.isWhole then some x.toInt64Clamped else none
  | .text s => Number.readInt64? (Text.trimChars s.toList)
  | .message _ => none

end Value

/-! ## building messages -/

namespace Message

/-- The message without segments. -/
def empty : Message := ⟨[]⟩

/-- No segment is there. -/
def isEmpty (m : Message) : Bool := m.segments.isEmpty

/-- A row of segments with text at its end: it extends a last text. -/
def appendText (s : String) (l : List (Segment Value)) : List (Segment Value) :=
  match l.getLast? with
  | some (.text t) => l.dropLast ++ [.text (t ++ s)]
  | _ => l ++ [.text s]

/-- A message with text at its end. -/
def pushText (m : Message) (s : String) : Message :=
  if s = "" then m else ⟨appendText s m.segments⟩

/-- A message with a value at its end. -/
def pushValue (m : Message) (v : Value) (directive : Option String) : Message :=
  ⟨m.segments ++ [.value v directive]⟩

/-- A message with a segment at its end. -/
def push (m : Message) : Segment Value → Message
  | .text s => m.pushText s
  | .value v directive => m.pushValue v directive

/-- The message of a text. -/
def ofText (s : String) : Message := empty.pushText s

/-- The message that pushes segments in order. -/
def ofSegments (segments : List (Segment Value)) : Message := segments.foldl push empty

/-- The value that holds a message. -/
def toValue (m : Message) : Value := .message m.segments

/-- The text of a message. -/
def display (m : Message) : String := Value.displaySegments m.segments

/-! ## lines -/

/-- A message being cut into lines: the lines done, newest first, the line begun,
and whether a newline is the last thing seen. -/
structure Cut where
  done : List Message
  current : Message
  fresh : Bool

/-- Continues a cut with the pieces of a text after its first newline. -/
def Cut.newlines (c : Cut) (pieces : List (List Char)) : Cut :=
  pieces.foldl
    (fun c piece => ⟨c.current :: c.done, ofText (String.ofList piece), piece.isEmpty⟩) c

/-- Continues a cut with a segment. -/
def Cut.add (c : Cut) : Segment Value → Cut
  | .text s =>
    match Text.splitOn '\n' s.toList with
    | [] => c
    | first :: rest =>
      Cut.newlines ⟨c.done, c.current.pushText (String.ofList first), false⟩ rest
  | .value v directive => ⟨c.done, c.current.pushValue v directive, false⟩

/-- The lines of a finished cut; an empty line after a last newline is none. -/
def Cut.lines (c : Cut) : List Message :=
  (if c.fresh && c.current.isEmpty then c.done else c.current :: c.done).reverse

/-- The lines of a message: it is cut at the newlines of its text, never inside a
value. -/
def splitLines (m : Message) : List Message :=
  (m.segments.foldl Cut.add ⟨[], empty, false⟩).lines

/-! ## laws of pushing -/

@[simp] theorem pushText_empty (m : Message) : m.pushText "" = m := rfl

@[simp] theorem appendText_concat_text (s t : String) (l : List (Segment Value)) :
    appendText s (l ++ [.text t]) = l ++ [.text (t ++ s)] := by
  simp [appendText]

@[simp] theorem appendText_concat_value (s : String) (v : Value) (d : Option String)
    (l : List (Segment Value)) :
    appendText s (l ++ [.value v d]) = l ++ [.value v d, .text s] := by
  simp [appendText]

@[simp] theorem appendText_nil (s : String) : appendText s [] = [.text s] := rfl

theorem appendText_appendText (s t : String) (l : List (Segment Value)) :
    appendText t (appendText s l) = appendText (s ++ t) l := by
  rcases List.eq_nil_or_concat l with rfl | ⟨l, x, rfl⟩
  · exact appendText_concat_text t s []
  · rw [List.concat_eq_append]
    cases x with
    | text u => simp [String.append_assoc]
    | value v d =>
      rw [appendText_concat_value, appendText_concat_value]
      have h := appendText_concat_text t s (l ++ [.value v d])
      rwa [List.append_assoc, List.append_assoc] at h

theorem displaySegments_append (l l' : List (Segment Value)) :
    Value.displaySegments (l ++ l') = Value.displaySegments l ++ Value.displaySegments l' := by
  induction l with
  | nil => simp [Value.displaySegments]
  | cons x l ih => cases x <;> simp [Value.displaySegments, ih, String.append_assoc]

/-- Pushing two texts is pushing their concatenation. -/
theorem pushText_append (m : Message) (s t : String) :
    (m.pushText s).pushText t = m.pushText (s ++ t) := by
  by_cases hs : s = ""
  · simp [hs]
  · by_cases ht : t = ""
    · simp [ht]
    · simp [pushText, hs, ht, appendText_appendText]

/-- Pushing a text appends it to the text of the message. -/
theorem display_pushText (m : Message) (s : String) :
    (m.pushText s).display = m.display ++ s := by
  unfold pushText
  split
  · next h => subst h; simp
  · obtain ⟨l⟩ := m
    rcases List.eq_nil_or_concat l with rfl | ⟨l, x, rfl⟩
    · simp [display, Value.displaySegments]
    · rw [List.concat_eq_append]
      cases x <;>
        simp [display, displaySegments_append, Value.displaySegments, String.append_assoc]

end Message

end Phrasebook
