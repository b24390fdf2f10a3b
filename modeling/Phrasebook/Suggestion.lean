import Phrasebook.Number.Double

/-!
# Phrasebook.Suggestion

Keys that resemble a key, by Jaro–Winkler similarity.

Two characters match when they are equal and not further apart than half the
longer text, less one; each character is matched once, the first possible
partner first.  The similarity is computed in binary64, operation by operation,
so that scores compare as computed, not as they would ideally be.
-/

namespace Phrasebook.Suggestion

open Phrasebook.Number (Double)

/-! ## similarity -/

/-- How far apart two characters may match. -/
def reach (a b : List Char) : Nat := max a.length b.length / 2 - 1

/-- Marks the first unmarked occurrence of a character from the place `low` on and
before `high`; `j` is the place of the first flag.  Nothing if there is none. -/
def markFirst? (c : Char) (low high j : Nat) : List (Char × Bool) → Option (List (Char × Bool))
  | [] => none
  | (d, marked) :: rest =>
    if high ≤ j then none
    else if low ≤ j && c == d && !marked then some ((d, true) :: rest)
    else (markFirst? c low high (j + 1) rest).map ((d, marked) :: ·)

/-- The characters of a text from the place `i` on that have a partner, in order,
and the other text with the partners marked. -/
def partners (reach i : Nat) : List Char → List (Char × Bool) → List Char × List (Char × Bool)
  | [], b => ([], b)
  | c :: a, b =>
    match markFirst? c (i - reach) (i + reach + 1) 0 b with
    | some b =>
      let r := partners reach (i + 1) a b
      (c :: r.1, r.2)
    | none => partners reach (i + 1) a b

/-- The Jaro similarity of two texts. -/
def jaro (a b : List Char) : Double :=
  if a.isEmpty && b.isEmpty then .ofNat 1
  else if a.isEmpty || b.isEmpty then .ofNat 0
  else
    let (left, marked) := partners (reach a b) 0 a (b.map fun c => (c, false))
    let right := (marked.filter Prod.snd).map Prod.fst
    let matched := left.length
    let transposed := ((left.zip right).countP fun p => p.1 != p.2) / 2
    if matched = 0 then .ofNat 0
    else
      let m := Double.ofNat matched
      (m / .ofNat a.length + m / .ofNat b.length + .ofNat (matched - transposed) / m) / .ofNat 3

/-- The length of the common beginning of two texts. -/
def commonStart : List Char → List Char → Nat
  | c :: a, d :: b => if c = d then commonStart a b + 1 else 0
  | _, _ => 0

/-- The Jaro–Winkler similarity: a score above 0.7 rises by a tenth of what it lacks
for each of at most four characters that begin both texts. -/
def similarity (a b : List Char) : Double :=
  let s := jaro a b
  if Double.lt (.ofRatio false 7 10) s then
    let start := commonStart (a.take 4) b
    s + .ofRatio false 1 10 * .ofNat start * (.ofNat 1 - s)
  else s

/-! ## suggestions -/

/-- The least score of a suggestion. -/
def threshold : Double := .ofRatio false 8 10

/-- How many suggestions are made. -/
def limit : Nat := 3

/-- Whether a scored candidate comes before another: the higher score first, of
equal scores the smaller text. -/
def precedes (x y : Double × String) : Bool :=
  if x.1.orderKey = y.1.orderKey then decide (x.2 ≤ y.2)
  else decide (y.1.orderKey < x.1.orderKey)

/-- The candidates other than the target that score high enough, best first, with
a score given for each. -/
def ranked (score : String → Double) (target : String) (candidates : List String) :
    List (Double × String) :=
  ((candidates.map fun c => (score c, c)).filter fun x =>
    Double.le threshold x.1 && x.2 != target).mergeSort precedes

/-- The candidates most similar to a text, best first. -/
def suggest (target : String) (candidates : List String) : List String :=
  let score (c : String) := similarity target.toList c.toList
  ((ranked score target candidates).take limit).map Prod.snd

end Phrasebook.Suggestion
