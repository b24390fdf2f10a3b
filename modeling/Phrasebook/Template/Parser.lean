import Phrasebook.Template.Grammar
import Std.Data.TreeSet

/-!
# Phrasebook.Template.Parser

The parser of message templates.

It follows `Phrasebook.Template.Grammar` and remembers the placeholders that did
not parse, by the length of the text after their brace and the level left to
them.  A placeholder that failed once is not tried again at the same place and
level, so unclosed braces cost polynomial time, where the grammar alone would
try them over and over.

Readers carry the length of their text along, and hand the failures on.
-/

namespace Phrasebook.Template.Parser

/-- The order of attempts: by the length of the text, then by the level. -/
def attemptOrder : Nat × Nat → Nat × Nat → Ordering :=
  compareLex (compareOn Prod.fst) (compareOn Prod.snd)

/-- The attempts that failed: lengths of text with levels. -/
abbrev Failures := Std.TreeSet (Nat × Nat) attemptOrder

/-- A reader of placeholders after their opening brace, given the length of the
text. -/
abbrev Inner := Nat → List Char → Failures → Option (Node Tree × Nat) × Failures

/-- Reads the next node of a sequence. -/
def item (inner : Inner) (p : Place) (size : Nat) (c : Char) (s : List Char) (f : Failures) :
    Option (Node Tree × Nat) × Failures :=
  if c = '{' then
    match inner (size - 1) s f with
    | (some (x, n), f) => (some (x, n + 1), f)
    | (none, f) => (readPlain? p c s, f)
  else (readPlain? p c s, f)

/-- Reads the nodes of a sequence after those of `done`, which stand newest first
and took `taken` characters. -/
def items (inner : Inner) (p : Place) (done : List (Node Tree)) (taken size : Nat)
    (s : List Char) (f : Failures) : List (Node Tree) × Nat × Failures :=
  match s with
  | [] => (done.reverse, taken, f)
  | c :: s =>
    match item inner p size c s f with
    | (none, f) => (done.reverse, taken, f)
    | (some (x, n), f) => items inner p (x :: done) (taken + n) (size - n) (s.drop (n - 1)) f
termination_by s.length
decreasing_by simp only [List.length_drop, List.length_cons]; omega

/-- Reads a branch with the blanks after it. -/
def branch (inner : Inner) (size : Nat) (s : List Char) (f : Failures) :
    Option (Branch Tree × Nat) × Failures :=
  match readSelector? s with
  | none => (none, f)
  | some (selector, a) =>
    let a := a + blanks (s.drop a)
    match s.drop a with
    | '{' :: t =>
      let (body, n, f) := items inner .branch [] 0 (size - a - 1) t f
      match t.drop n with
      | '}' :: t => (some (⟨selector, .merged body⟩, a + n + 2 + blanks t), f)
      | _ => (none, f)
    | _ => (none, f)

/-- Reads branches after those of `done`, which stand newest first and took
`taken` characters. -/
def branches (inner : Inner) (done : List (Branch Tree)) (taken size : Nat) (s : List Char)
    (f : Failures) : List (Branch Tree) × Nat × Failures :=
  match s with
  | [] => (done.reverse, taken, f)
  | c :: s =>
    match branch inner size (c :: s) f with
    | (none, f) => (done.reverse, taken, f)
    | (some (b, n), f) =>
      branches inner (b :: done) (taken + n) (size - n) (s.drop (n - 1)) f
termination_by s.length
decreasing_by simp only [List.length_drop, List.length_cons]; omega

/-- Reads the branches of a plural choice after its reference, up to its closing
brace. -/
def choice? (inner : Inner) (size : Nat) (s : List Char) (f : Failures) :
    Option (List (Branch Tree) × Nat) × Failures :=
  match readPluralMark? s with
  | none => (none, f)
  | some a =>
    let (bs, n, f) := branches inner [] 0 (size - a) (s.drop a) f
    if bs.isEmpty then (none, f)
    else
      match s.drop (a + n) with
      | '}' :: _ => (some (bs, a + n + 1), f)
      | _ => (none, f)

/-- Reads a placeholder that was not tried before, after its opening brace. -/
def attempt (inner : Inner) (size : Nat) (s : List Char) (f : Failures) :
    Option (Node Tree × Nat) × Failures :=
  match readHead? s with
  | none => (none, f)
  | some (argument, a) =>
    match s.drop a with
    | '}' :: _ => (some (.placeholder argument none (Grammar.sourceOf s (a + 1)), a + 1), f)
    | t =>
      match choice? inner (size - a) t f with
      | (some (bs, n), f) =>
        (some (.plural argument bs (Grammar.sourceOf s (a + n)), a + n), f)
      | (none, f) =>
        ((readDirective? t).map fun r =>
          (.placeholder argument r.1 (Grammar.sourceOf s (a + r.2)), a + r.2), f)

/-- Reads a placeholder after its opening brace, unless it failed before. -/
def placeholder (level : Nat) : Inner := fun size s f =>
  match level with
  | 0 => (none, f)
  | level + 1 =>
    if f.contains (size, level + 1) then (none, f)
    else
      match attempt (placeholder level) size s f with
      | (none, f) => (none, f.insert (size, level + 1))
      | (some r, f) => (some r, f)

/-- The tree of a template. -/
def tree (s : List Char) : Tree :=
  .merged (items (placeholder maxNesting) .top [] 0 s.length s ∅).1

end Phrasebook.Template.Parser
