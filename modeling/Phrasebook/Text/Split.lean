/-!
# Phrasebook.Text.Split

Cutting a text into pieces and finding texts inside texts.

* `splitOn sep` cuts at every `sep`; joining the pieces gives the text back
  (`intercalate_splitOn`), as cutting does the pieces (`splitOn_intercalate`);
* `lines` are the pieces between newlines, a carriage return before the newline
  belonging to the line end, without an empty piece after the last newline;
* `replaceAll` substitutes every occurrence of a pattern, left to right and
  without overlap;
* offsets and sizes are counted in UTF-8 bytes.
-/

namespace Phrasebook.Text

/-! ## cutting -/

/-- The pieces of a text between the occurrences of a separator. -/
def splitOn (sep : Char) : List Char → List (List Char)
  | [] => [[]]
  | c :: s =>
    if c = sep then [] :: splitOn sep s
    else
      match splitOn sep s with
      | [] => [[c]]
      | p :: ps => (c :: p) :: ps

theorem splitOn_ne_nil (sep : Char) (s : List Char) : splitOn sep s ≠ [] := by
  cases s with
  | nil => simp [splitOn]
  | cons c s =>
    unfold splitOn
    split
    · simp
    · split <;> simp

/-- The pieces of a string between the occurrences of a separator. -/
def splitString (sep : Char) (s : String) : List String :=
  (splitOn sep s.toList).map String.ofList

/-- Joining the pieces with the separator undoes the cut. -/
theorem intercalate_splitOn (sep : Char) (s : List Char) :
    List.intercalate [sep] (splitOn sep s) = s := by
  induction s with
  | nil => rfl
  | cons c s ih =>
    unfold splitOn
    split
    · next h =>
      subst h
      cases hs : splitOn c s with
      | nil => exact absurd hs (splitOn_ne_nil c s)
      | cons p ps => rw [hs] at ih; simpa [List.intercalate] using ih
    · split
      · next hs => exact absurd hs (splitOn_ne_nil sep s)
      · next p ps hs =>
        rw [hs] at ih
        cases ps <;> simp_all [List.intercalate]

/-- A character of a text is the separator, or stands in a piece. -/
theorem eq_or_mem_flatten_splitOn (sep : Char) {c : Char} {s : List Char} (h : c ∈ s) :
    c = sep ∨ c ∈ (splitOn sep s).flatten := by
  induction s with
  | nil => cases h
  | cons d s ih =>
    rw [splitOn]
    cases hs : splitOn sep s with
    | nil => exact absurd hs (splitOn_ne_nil sep s)
    | cons q ps =>
      rw [hs] at ih
      rcases List.mem_cons.1 h with rfl | hc
      · by_cases hd : c = sep
        · exact .inl hd
        · simp [hd]
      · refine (ih hc).imp_right fun hm => ?_
        split
        · exact hm
        · exact List.mem_cons_of_mem d hm

/-- Without a separator there is one piece. -/
theorem splitOn_of_not_mem {sep : Char} {s : List Char} (h : sep ∉ s) : splitOn sep s = [s] := by
  induction s with
  | nil => rfl
  | cons c s ih =>
    obtain ⟨hc, hs⟩ := List.ne_and_not_mem_of_not_mem_cons h
    rw [splitOn, if_neg (Ne.symm hc), ih hs]

/-- A piece in front of its separator is cut off. -/
theorem splitOn_append_cons {sep : Char} {p : List Char} (h : sep ∉ p) (s : List Char) :
    splitOn sep (p ++ sep :: s) = p :: splitOn sep s := by
  induction p with
  | nil => rw [List.nil_append, splitOn, if_pos rfl]
  | cons c p ih =>
    obtain ⟨hc, hp⟩ := List.ne_and_not_mem_of_not_mem_cons h
    rw [List.cons_append, splitOn, if_neg (Ne.symm hc), ih hp]

/-- Cutting undoes joining pieces without separators in them. -/
theorem splitOn_intercalate {sep : Char} {ps : List (List Char)} (hn : ps ≠ [])
    (h : ∀ p ∈ ps, sep ∉ p) : splitOn sep (List.intercalate [sep] ps) = ps := by
  induction ps with
  | nil => exact absurd rfl hn
  | cons p ps ih =>
    have hp := h p List.mem_cons_self
    cases ps with
    | nil => simpa [List.intercalate] using splitOn_of_not_mem hp
    | cons q ps =>
      have ht := ih (by simp) fun x hx => h x (List.mem_cons_of_mem p hx)
      have hj : List.intercalate [sep] (p :: q :: ps) =
          p ++ sep :: List.intercalate [sep] (q :: ps) := by simp [List.intercalate]
      rw [hj, splitOn_append_cons hp, ht]

/-- A text that is cut at a separator is cut on both sides of it. -/
theorem splitOn_append (sep : Char) (s t : List Char) :
    splitOn sep (s ++ sep :: t) = splitOn sep s ++ splitOn sep t := by
  induction s with
  | nil => simp [splitOn]
  | cons c s ih =>
    rw [List.cons_append, splitOn, splitOn, ih]
    split
    · rfl
    · cases hs : splitOn sep s with
      | nil => exact absurd hs (splitOn_ne_nil sep s)
      | cons p ps => rfl

/-- No piece has the separator in it. -/
theorem not_mem_of_mem_splitOn {sep : Char} {s p : List Char} (h : p ∈ splitOn sep s) :
    sep ∉ p := by
  induction s generalizing p with
  | nil =>
    rw [splitOn, List.mem_singleton] at h
    simp [h]
  | cons c s ih =>
    rw [splitOn] at h
    cases hs : splitOn sep s with
    | nil => exact absurd hs (splitOn_ne_nil sep s)
    | cons q ps =>
      rw [hs] at h ih
      split at h
      · rcases List.mem_cons.1 h with rfl | h
        · exact List.not_mem_nil
        · exact ih h
      · next hc =>
        rcases List.mem_cons.1 h with rfl | h
        · exact List.not_mem_cons_of_ne_of_not_mem (Ne.symm hc) (ih List.mem_cons_self)
        · exact ih (List.mem_cons_of_mem q h)

/-- What is joined last is the last piece. -/
theorem getLast?_splitOn_intercalate {sep : Char} {q : List Char} (h : sep ∉ q)
    (ps : List (List Char)) :
    (splitOn sep (List.intercalate [sep] (ps ++ [q]))).getLast? = some q := by
  induction ps with
  | nil => simp [splitOn_of_not_mem h]
  | cons p ps ih =>
    rw [List.cons_append, List.intercalate_cons_of_ne_nil (by simp), List.append_assoc,
      List.singleton_append, splitOn_append, List.getLast?_append, ih, Option.some_or]

/-- Cutting looks at separators only. -/
theorem splitOn_map {f : Char → Char} {sep : Char} (hf : ∀ c, f c = sep ↔ c = sep)
    (s : List Char) : splitOn sep (s.map f) = (splitOn sep s).map (List.map f) := by
  induction s with
  | nil => rfl
  | cons c s ih =>
    rw [List.map_cons, splitOn, splitOn, ih]
    by_cases hc : c = sep
    · rw [if_pos hc, if_pos ((hf c).2 hc)]
      rfl
    · rw [if_neg hc, if_neg fun h => hc ((hf c).1 h)]
      cases splitOn sep s <;> rfl

/-- A line without the carriage return of a two-character line end; the line is
given newest character first. -/
def dropReturn : List Char → List Char
  | '\r' :: s => s
  | s => s

/-- The lines of a text, where `line` holds the current line so far, newest
character first. -/
def linesFrom (line : List Char) : List Char → List (List Char)
  | [] => if line.isEmpty then [] else [line.reverse]
  | c :: s =>
    if c = '\n' then (dropReturn line).reverse :: linesFrom [] s else linesFrom (c :: line) s

/-- The lines of a text without their line ends. -/
def lines (s : List Char) : List (List Char) := linesFrom [] s

/-! ## measuring -/

/-- The size of a text in bytes. -/
def byteLength (s : List Char) : Nat := s.foldr (fun c n => c.utf8Size + n) 0

@[simp] theorem byteLength_nil : byteLength [] = 0 := rfl

@[simp] theorem byteLength_cons (c : Char) (s : List Char) :
    byteLength (c :: s) = c.utf8Size + byteLength s := rfl

@[simp] theorem byteLength_append (s t : List Char) :
    byteLength (s ++ t) = byteLength s + byteLength t := by
  induction s with
  | nil => simp
  | cons c s ih => simp [ih, Nat.add_assoc]

/-! ## finding and replacing -/

/-- The offset of the first occurrence of `needle`, the text starting at `offset`. -/
def findFrom (needle : List Char) (offset : Nat) : List Char → Option Nat
  | [] => if needle.isEmpty then some offset else none
  | c :: s =>
    if needle.isPrefixOf (c :: s) then some offset
    else findFrom needle (offset + c.utf8Size) s

/-- The byte offset of the first occurrence of `needle` in `text`. -/
def find? (needle text : String) : Option Nat := findFrom needle.toList 0 text.toList

/-- Replaces the occurrences of `pattern`; the first `skip` characters belong to
an occurrence that was already replaced. -/
def replaceFrom (pattern replacement : List Char) (skip : Nat) : List Char → List Char
  | [] => []
  | c :: s =>
    match skip with
    | skip + 1 => replaceFrom pattern replacement skip s
    | 0 =>
      if pattern.isPrefixOf (c :: s) then
        replacement ++ replaceFrom pattern replacement (pattern.length - 1) s
      else c :: replaceFrom pattern replacement 0 s

/-- A text in which every occurrence of the non-empty `pattern` is replaced. -/
def replaceAll (pattern replacement text : String) : String :=
  String.ofList (replaceFrom pattern.toList replacement.toList 0 text.toList)

/-- A text in which one character is replaced by another. -/
def replaceChar (old new : Char) (s : String) : String :=
  String.ofList (s.toList.map fun c => if c = old then new else c)

end Phrasebook.Text
