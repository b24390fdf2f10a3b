/-!
# Phrasebook.Text.Blank

White space as Unicode's `White_Space` property has it: ten ranges, 25
characters.  Everything that trims or skips blanks in this library (template
placeholders, directives, locale tags, numbers given as text) means this set.

* `dropBlanks_cons_of_not_blank` — skipping stops at the first other character;
* `trimChars_trimChars` — a trimmed text has no blank left at either end;
* `trimChars_append` — blanks around a text make no difference to what is left.
-/

namespace Phrasebook.Text

/-- The code point ranges of the `White_Space` property, ascending. -/
def blankRanges : List (Nat × Nat) :=
  [(0x9, 0xD), (0x20, 0x20), (0x85, 0x85), (0xA0, 0xA0), (0x1680, 0x1680), (0x2000, 0x200A),
   (0x2028, 0x2029), (0x202F, 0x202F), (0x205F, 0x205F), (0x3000, 0x3000)]

/-- Whether a code point lies in one of the ranges, ends included. -/
def inRanges (ranges : List (Nat × Nat)) (n : Nat) : Bool :=
  ranges.any fun r => r.1 ≤ n && n ≤ r.2

/-- A white space character. -/
def isBlank (c : Char) : Bool := inRanges blankRanges c.toNat

/-- What is left of a text after its leading blanks. -/
def dropBlanks (s : List Char) : List Char := s.dropWhile isBlank

/-- A text without the blanks at either end. -/
def trimChars (s : List Char) : List Char := (dropBlanks (dropBlanks s).reverse).reverse

/-- A string without the blanks at either end. -/
def trim (s : String) : String := String.ofList (trimChars s.toList)

@[simp] theorem dropBlanks_nil : dropBlanks [] = [] := rfl

theorem dropBlanks_cons_of_not_blank {c : Char} {s : List Char} (h : isBlank c = false) :
    dropBlanks (c :: s) = c :: s := by
  simp [dropBlanks, h]

theorem dropBlanks_cons_of_blank {c : Char} {s : List Char} (h : isBlank c = true) :
    dropBlanks (c :: s) = dropBlanks s := by
  simp [dropBlanks, h]

theorem dropBlanks_eq_self {s : List Char} (h : ∀ c ∈ s.head?, isBlank c = false) :
    dropBlanks s = s := by
  cases s with
  | nil => rfl
  | cons c s => exact dropBlanks_cons_of_not_blank (h c rfl)

theorem isBlank_of_mem_head?_dropBlanks {s : List Char} {c : Char}
    (h : c ∈ (dropBlanks s).head?) : isBlank c = false := by
  have hd := List.head?_dropWhile_not isBlank s
  rw [Option.mem_def, dropBlanks] at h
  rw [h] at hd
  simpa using hd

/-- The characters of a trimmed text are those of the text. -/
theorem mem_of_mem_trimChars {s : List Char} {c : Char} (h : c ∈ trimChars s) : c ∈ s := by
  rw [trimChars, List.mem_reverse] at h
  have h := (List.dropWhile_sublist isBlank).mem h
  exact (List.dropWhile_sublist isBlank).mem (List.mem_reverse.1 h)

theorem mem_dropBlanks {s : List Char} {c : Char} (h : c ∈ s) (hc : isBlank c = false) :
    c ∈ dropBlanks s := by
  induction s with
  | nil => cases h
  | cons d s ih =>
    cases hd : isBlank d with
    | false => rwa [dropBlanks_cons_of_not_blank hd]
    | true =>
      rw [dropBlanks_cons_of_blank hd]
      rcases List.mem_cons.1 h with rfl | h
      · rw [hc] at hd
        cases hd
      · exact ih h

/-- Trimming takes blanks only. -/
theorem mem_trimChars {s : List Char} {c : Char} (h : c ∈ s) (hc : isBlank c = false) :
    c ∈ trimChars s :=
  List.mem_reverse.2 (mem_dropBlanks (List.mem_reverse.2 (mem_dropBlanks h hc)) hc)

/-- Trimming leaves a trimmed text as it is. -/
theorem trimChars_trimChars (s : List Char) : trimChars (trimChars s) = trimChars s := by
  have hl : dropBlanks (trimChars s) = trimChars s := by
    apply dropBlanks_eq_self
    intro c hc
    -- what is trimmed at the end leaves the first character alone
    have hp : trimChars s <+: dropBlanks s :=
      List.reverse_suffix.1 (by rw [trimChars, List.reverse_reverse]; exact List.dropWhile_suffix _)
    obtain ⟨t, ht⟩ := hp
    apply isBlank_of_mem_head?_dropBlanks (s := s)
    rw [← ht, Option.mem_def, List.head?_append, Option.mem_def.1 hc, Option.some_or]
  have hr : dropBlanks (trimChars s).reverse = (trimChars s).reverse := by
    apply dropBlanks_eq_self
    rw [trimChars, List.reverse_reverse]
    exact fun c hc => isBlank_of_mem_head?_dropBlanks hc
  rw [trimChars.eq_1 (trimChars s), hl, hr, List.reverse_reverse]

theorem dropBlanks_append_of_blank {s : List Char} (h : ∀ c ∈ s, isBlank c = true)
    (t : List Char) : dropBlanks (s ++ t) = dropBlanks t :=
  List.dropWhile_append_of_pos h

/-- Blanks around a text are trimmed with those that it has. -/
theorem trimChars_append {before after : List Char} (hb : ∀ c ∈ before, isBlank c = true)
    (ha : ∀ c ∈ after, isBlank c = true) (s : List Char) :
    trimChars (before ++ s ++ after) = trimChars s := by
  have hr : ∀ c ∈ after.reverse, isBlank c = true := fun c hc => ha c (List.mem_reverse.1 hc)
  rw [trimChars, List.append_assoc, dropBlanks_append_of_blank hb, ← trimChars]
  induction s with
  | nil =>
    have hn : dropBlanks after = [] := by simpa using dropBlanks_append_of_blank ha []
    rw [trimChars, List.nil_append, hn, trimChars, dropBlanks_nil]
  | cons c s ih =>
    rw [List.cons_append, trimChars, trimChars]
    cases hc : isBlank c with
    | true =>
      rw [dropBlanks_cons_of_blank hc, dropBlanks_cons_of_blank hc]
      exact ih
    | false =>
      rw [dropBlanks_cons_of_not_blank hc, dropBlanks_cons_of_not_blank hc, ← List.cons_append,
        List.reverse_append, dropBlanks_append_of_blank hr]

/-- A text without blanks is trimmed. -/
theorem trimChars_eq_self {s : List Char} (h : ∀ c ∈ s, isBlank c = false) : trimChars s = s := by
  have hr : dropBlanks s.reverse = s.reverse :=
    dropBlanks_eq_self fun c hc => h c (List.mem_reverse.1 (List.mem_of_mem_head? hc))
  rw [trimChars, dropBlanks_eq_self fun c hc => h c (List.mem_of_mem_head? hc), hr,
    List.reverse_reverse]

theorem dropBlanks_map {f : Char → Char} (hf : ∀ c, isBlank (f c) = isBlank c) (s : List Char) :
    dropBlanks (s.map f) = (dropBlanks s).map f := by
  rw [dropBlanks, List.dropWhile_map]
  congr 2
  exact funext hf

/-- Trimming looks at blanks only. -/
theorem trimChars_map {f : Char → Char} (hf : ∀ c, isBlank (f c) = isBlank c) (s : List Char) :
    trimChars (s.map f) = (trimChars s).map f := by
  rw [trimChars, trimChars, dropBlanks_map hf, ← List.map_reverse, dropBlanks_map hf,
    List.map_reverse]

/-- Tables of which all ranges lie apart have no code point in common. -/
theorem inRanges_eq_false_of_apart {as bs : List (Nat × Nat)} {n : Nat}
    (h : (as.all fun a => bs.all fun b => decide (a.2 < b.1) || decide (b.2 < a.1)) = true)
    (ha : inRanges as n = true) : inRanges bs n = false := by
  rw [inRanges, List.any_eq_true] at ha
  obtain ⟨a, ha, hn⟩ := ha
  rw [inRanges, List.any_eq_false]
  intro b hb
  have hab := List.all_eq_true.1 (List.all_eq_true.1 h a ha) b hb
  simp only [Bool.and_eq_true, Bool.or_eq_true, decide_eq_true_eq] at hn hab ⊢
  omega

end Phrasebook.Text
