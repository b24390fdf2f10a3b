import Phrasebook.Template.Node
import Phrasebook.Text.Letter

/-!
# Phrasebook.Template.Grammar

The grammar of message templates.

* Text is literal.  A backslash in front of a brace, `#` or a backslash stands for
  that character; any other backslash is literal.
* `{name}` and `{0}` are placeholders, `{name, directive}` one with a directive:
  the text up to the closing brace, without braces in it and blanks around it.
* `{n, plural, =0{..} one{..} other{..}}` is a plural choice of one or more
  branches.  In a branch `#` is the quantity, and the closing brace ends it.
* Placeholders nest at most 32 deep.
* Nothing is an error: a brace that opens no placeholder is literal, and so is a
  closing brace outside the branches.

Each reader says how many characters it takes; `placeholder level` starts after
the opening brace and may nest `level` deep.  These definitions fix what a
template means.  They may try a placeholder again and again; the parser of
`Phrasebook.Template.Parser` does not.
-/

namespace Phrasebook.Template

/-- How deep placeholders nest. -/
def maxNesting : Nat := 32

/-! ## tokens -/

/-- The number of blanks in front of a text. -/
def blanks (s : List Char) : Nat := (s.takeWhile Text.isBlank).length

/-- The characters that a backslash takes back to literal text. -/
def isSpecial (c : Char) : Bool := c == '{' || c == '}' || c == '#' || c == '\\'

/-- A character that can begin an argument name. -/
def isNameStart (c : Char) : Bool := Text.isLetter c || c == '_'

/-- A character that can continue an argument name. -/
def isNamePart (c : Char) : Bool := Text.isAlphanumeric c || c == '_' || c == '.' || c == '-'

/-- A character of a branch keyword. -/
def isWordPart (c : Char) : Bool := c.isAlphanum || c == '_'

/-- A character that is neither brace. -/
def isUnbraced (c : Char) : Bool := c != '{' && c != '}'

/-- Reads the position or name of an argument. -/
def readReference? (s : List Char) : Option (Reference × Nat) :=
  match s.takeWhile Char.isDigit with
  | [] =>
    match s with
    | [] => none
    | c :: s =>
      if isNameStart c then
        let name := c :: s.takeWhile isNamePart
        some (.name (String.ofList name), name.length)
      else none
  | ds => (Number.readUInt64? ds).map fun n => (.index n, ds.length)

/-- Reads the number of an exact condition after its `=`. -/
def readExact? (s : List Char) : Option (Selector × Nat) :=
  let numeral :=
    match s with
    | '-' :: s => '-' :: s.takeWhile Char.isDigit
    | s => s.takeWhile Char.isDigit
  (Number.readInt64? numeral).map fun n => (.exact n, numeral.length + 1)

/-- Reads the condition of a branch. -/
def readSelector? (s : List Char) : Option (Selector × Nat) :=
  match s with
  | '=' :: s => readExact? s
  | s =>
    let word := s.takeWhile isWordPart
    (Plural.Category.ofKeyword? (String.ofList word)).map fun c => (.category c, word.length)

/-- Reads the reference of a placeholder after its brace, with the blanks around
it. -/
def readHead? (s : List Char) : Option (Reference × Nat) :=
  let before := blanks s
  (readReference? (s.drop before)).map fun r =>
    let n := before + r.2
    (r.1, n + blanks (s.drop n))

/-- Reads a comma, the word `plural` and a comma, with blanks around the word and
after it. -/
def readPluralMark? (s : List Char) : Option Nat :=
  match s with
  | ',' :: s =>
    let before := blanks s
    let s := s.drop before
    if "plural".toList.isPrefixOf s then
      let s := s.drop 6
      let after := blanks s
      match s.drop after with
      | ',' :: s => some (1 + before + 6 + after + 1 + blanks s)
      | _ => none
    else none
  | _ => none

/-- Reads a comma, a directive and the closing brace. -/
def readDirective? (s : List Char) : Option (Option String × Nat) :=
  match s with
  | ',' :: s =>
    let raw := s.takeWhile isUnbraced
    match s.dropWhile isUnbraced with
    | '}' :: _ =>
      let text := Text.trimChars raw
      some (if text.isEmpty then none else some (String.ofList text), raw.length + 2)
    | _ => none
  | _ => none

/-! ## sequences -/

/-- Where a sequence stands. -/
inductive Place where
  | top
  | branch
deriving DecidableEq

/-- A character that runs on as literal text. -/
def Place.isText : Place → Char → Bool
  | .top, c => c != '{' && c != '}' && c != '\\'
  | .branch, c => c != '{' && c != '}' && c != '\\' && c != '#'

/-- A literal of one character. -/
def literalChar (c : Char) : Node Tree := .literal (String.singleton c)

/-- Reads a node that begins with `c` and goes on with `s`, unless it is a
placeholder. -/
def readPlain? (p : Place) (c : Char) (s : List Char) : Option (Node Tree × Nat) :=
  if c = '\\' then
    match s with
    | e :: _ => if isSpecial e then some (literalChar e, 2) else some (literalChar '\\', 1)
    | [] => some (literalChar '\\', 1)
  else if p.isText c then
    let run := c :: s.takeWhile p.isText
    some (.literal (String.ofList run), run.length)
  else if c = '{' then some (literalChar '{', 1)
  else
    match p with
    | .top => some (literalChar c, 1)
    | .branch => if c = '#' then some (.quantity, 1) else none

namespace Grammar

/-- A reader of placeholders, after their opening brace. -/
abbrev Inner := List Char → Option (Node Tree × Nat)

/-- Reads the next node of a sequence. -/
def item (inner : Inner) (p : Place) (c : Char) (s : List Char) : Option (Node Tree × Nat) :=
  if c = '{' then
    match inner s with
    | some (x, n) => some (x, n + 1)
    | none => readPlain? p c s
  else readPlain? p c s

/-- Reads the nodes of a sequence, as many as there are. -/
def items (inner : Inner) (p : Place) : List Char → List (Node Tree) × Nat
  | [] => ([], 0)
  | c :: s =>
    match item inner p c s with
    | none => ([], 0)
    | some (x, n) =>
      let r := items inner p (s.drop (n - 1))
      (x :: r.1, n + r.2)
termination_by s => s.length
decreasing_by simp only [List.length_drop, List.length_cons]; omega

/-- Reads a branch with the blanks after it. -/
def branch (inner : Inner) (s : List Char) : Option (Branch Tree × Nat) :=
  match readSelector? s with
  | none => none
  | some (selector, a) =>
    let a := a + blanks (s.drop a)
    match s.drop a with
    | '{' :: t =>
      let body := items inner .branch t
      match t.drop body.2 with
      | '}' :: t => some (⟨selector, .merged body.1⟩, a + body.2 + 2 + blanks t)
      | _ => none
    | _ => none

/-- Reads branches, as many as there are. -/
def branches (inner : Inner) : List Char → List (Branch Tree) × Nat
  | [] => ([], 0)
  | c :: s =>
    match branch inner (c :: s) with
    | none => ([], 0)
    | some (b, n) =>
      let r := branches inner (s.drop (n - 1))
      (b :: r.1, n + r.2)
termination_by s => s.length
decreasing_by simp only [List.length_drop, List.length_cons]; omega

/-- Reads the branches of a plural choice after its reference, up to its closing
brace. -/
def choice? (inner : Inner) (s : List Char) : Option (List (Branch Tree) × Nat) :=
  match readPluralMark? s with
  | none => none
  | some a =>
    let r := branches inner (s.drop a)
    if r.1.isEmpty then none
    else
      match s.drop (a + r.2) with
      | '}' :: _ => some (r.1, a + r.2 + 1)
      | _ => none

/-- The text of a placeholder, of which `s` is what follows the opening brace. -/
def sourceOf (s : List Char) (n : Nat) : String := String.ofList ('{' :: s.take n)

/-- Reads a placeholder after its opening brace. -/
def placeholder (level : Nat) (s : List Char) : Option (Node Tree × Nat) :=
  match level with
  | 0 => none
  | level + 1 =>
    match readHead? s with
    | none => none
    | some (argument, a) =>
      match s.drop a with
      | '}' :: _ => some (.placeholder argument none (sourceOf s (a + 1)), a + 1)
      | t =>
        match choice? (placeholder level) t with
        | some (bs, n) => some (.plural argument bs (sourceOf s (a + n)), a + n)
        | none =>
          (readDirective? t).map fun r =>
            (.placeholder argument r.1 (sourceOf s (a + r.2)), a + r.2)

/-- The tree of a template. -/
def tree (s : List Char) : Tree := .merged (items (placeholder maxNesting) .top s).1

end Grammar

end Phrasebook.Template
