import Mathlib.Data.List.Basic
import Phrasebook.Diagnostic
import Phrasebook.Json.Reader
import Phrasebook.Proofs.Text.Replacing

/-!
# Phrasebook.Proofs.Files.Offsets

Where in a text a line and column point to.

A line begins behind the newline of the line before (`Leads`).  The offset of a line and column is
counted off the lines as they are cut, one byte for each line end, so it falls short by one for
every line end of two characters in front (`lineColumnOffset_add`).  It is the place of
the line and column exactly if there is none.
-/

namespace Phrasebook

namespace Text

/-! ## lines -/

/-- The line end of two characters. -/
def returnNewline : List Char := ['\r', '\n']

/-- A text is all that stands in front of a line of another: it begins the other, and it ends
with the newline of the line before if there is one. -/
structure Leads (before : List Char) (line : Nat) (s : List Char) : Prop where
  begins : before <+: s
  count_eq : before.count '\n' + 1 = line
  ends : before = [] ∨ before.getLast? = some '\n'

instance (before : List Char) (line : Nat) (s : List Char) : Decidable (Leads before line s) :=
  decidable_of_iff
    (before <+: s ∧ before.count '\n' + 1 = line ∧ (before = [] ∨ before.getLast? = some '\n'))
    ⟨fun h => ⟨h.1, h.2.1, h.2.2⟩, fun h => ⟨h.begins, h.count_eq, h.ends⟩⟩

section
variable {u s before : List Char} {n : Nat}

/-- In front of the first line there is nothing. -/
theorem leads_one_iff : Leads before 1 s ↔ before = [] := by
  constructor
  · rintro ⟨-, hc, he⟩
    refine he.resolve_right fun hl => ?_
    have hm : 0 < before.count '\n' := List.count_pos_iff.2 (List.mem_of_getLast? hl)
    omega
  · rintro rfl
    exact ⟨List.nil_prefix, rfl, .inl rfl⟩

/-- In front of a later line there is the first line, and what is in front of the later one in
the text behind the first. -/
theorem leads_append_cons_iff (hu : '\n' ∉ u) :
    Leads (u ++ '\n' :: before) (n + 2) (u ++ '\n' :: s) ↔ Leads before (n + 1) s := by
  have hb : u ++ '\n' :: before <+: u ++ '\n' :: s ↔ before <+: s := by
    rw [List.prefix_append_right_inj, List.cons_prefix_cons]
    simp
  have hc : (u ++ '\n' :: before).count '\n' = before.count '\n' + 1 := by
    simp [List.count_eq_zero_of_not_mem hu]
  have he : (u ++ '\n' :: before = [] ∨ (u ++ '\n' :: before).getLast? = some '\n') ↔
      (before = [] ∨ before.getLast? = some '\n') := by
    cases before with
    | nil => simp
    | cons d rest => simp [List.getLast?_append, List.getLast?_cons_cons]
  constructor
  · rintro ⟨h₁, h₂, h₃⟩
    exact ⟨hb.1 h₁, by omega, he.1 h₃⟩
  · rintro ⟨h₁, h₂, h₃⟩
    exact ⟨hb.2 h₁, by omega, he.2 h₃⟩

/-- A later line has a first line in front. -/
theorem Leads.exists_first (h : Leads before (n + 2) s) :
    ∃ u before' s', '\n' ∉ u ∧ before = u ++ '\n' :: before' ∧ s = u ++ '\n' :: s' ∧
      Leads before' (n + 1) s' := by
  have hm : '\n' ∈ before := List.count_pos_iff.1 (by have := h.count_eq; omega)
  obtain ⟨u, before', rfl, hu⟩ := List.eq_append_cons_of_mem hm
  obtain ⟨t, rfl⟩ := h.begins
  rw [List.append_assoc, List.cons_append] at h ⊢
  exact ⟨u, before', before' ++ t, hu, rfl, rfl, (leads_append_cons_iff hu).1 h⟩

/-- Every line has something in front, up to the one behind the last newline. -/
theorem exists_leads (h : n ≤ s.count '\n') : ∃ before, Leads before (n + 1) s := by
  induction n generalizing s with
  | zero => exact ⟨[], leads_one_iff.2 rfl⟩
  | succ n ih =>
    have hm : '\n' ∈ s := List.count_pos_iff.1 (Nat.zero_lt_of_lt h)
    obtain ⟨u, s, rfl, hu⟩ := List.eq_append_cons_of_mem hm
    have hc : n ≤ s.count '\n' := by
      simpa [List.count_eq_zero_of_not_mem hu] using h
    obtain ⟨before, hb⟩ := ih hc
    exact ⟨u ++ '\n' :: before, (leads_append_cons_iff hu).2 hb⟩

/-! ## the lines in front -/

theorem linesFrom_append_cons (hu : '\n' ∉ u) (line s : List Char) :
    linesFrom line (u ++ '\n' :: s) = (dropReturn (u.reverse ++ line)).reverse :: lines s := by
  induction u generalizing line with
  | nil => simp [linesFrom, lines]
  | cons c u ih =>
    obtain ⟨hc, hu⟩ := List.ne_and_not_mem_of_not_mem_cons hu
    rw [List.cons_append, linesFrom, if_neg hc.symm, ih hu]
    simp

/-- A first line is cut off. -/
theorem lines_append_cons (hu : '\n' ∉ u) (s : List Char) :
    lines (u ++ '\n' :: s) = (dropReturn u.reverse).reverse :: lines s := by
  rw [lines, linesFrom_append_cons hu, List.append_nil]

/-- A first line has at most the one line end of two characters. -/
theorem occurrences_append_cons (hu : '\n' ∉ u) (s : List Char) :
    occurrences returnNewline (u ++ '\n' :: s) =
      (if u.getLast? = some '\r' then 1 else 0) + occurrences returnNewline s := by
  induction u with
  | nil => simp [occurrences, returnNewline]
  | cons c u ih =>
    obtain ⟨-, hu⟩ := List.ne_and_not_mem_of_not_mem_cons hu
    rw [List.cons_append, occurrences, ih hu]
    cases u with
    | nil => simp [returnNewline, eq_comm (a := c)]
    | cons d u =>
      -- a character that another one of the line follows is not in front of the newline
      have hd : d ≠ '\n' := (List.ne_and_not_mem_of_not_mem_cons hu).1.symm
      simp [returnNewline, hd.symm, List.getLast?_cons_cons]

/-- A line is cut off without its line end. -/
theorem byteLength_dropReturn (u : List Char) :
    byteLength u = byteLength (dropReturn u.reverse).reverse +
      (if u.getLast? = some '\r' then 1 else 0) := by
  rcases List.eq_nil_or_concat u with rfl | ⟨u, c, rfl⟩
  · rfl
  · rw [List.concat_eq_append, List.reverse_concat, List.getLast?_concat]
    by_cases hc : c = '\r'
    · subst hc
      simp [dropReturn]
      rfl
    · have hd : dropReturn (c :: u.reverse) = c :: u.reverse := by
        unfold dropReturn
        split
        · next h => exact absurd (List.cons.inj h).1 hc
        · rfl
      simp [hd, hc]

/-- The lines in front of a line, each with one byte for its end, are as long as all that
stands in front but for the second byte of the longer line ends. -/
theorem Leads.foldl_take (h : Leads before (n + 1) s) (m : Nat) :
    ((lines s).take n).foldl (fun n l => n + byteLength l + 1) m +
      occurrences returnNewline before = m + byteLength before := by
  induction n generalizing before s m with
  | zero => simp [leads_one_iff.1 h, occurrences]
  | succ n ih =>
    obtain ⟨u, before, s, hu, rfl, rfl, hn⟩ := h.exists_first
    rw [lines_append_cons hu, List.take_succ_cons, List.foldl_cons, occurrences_append_cons hu,
      byteLength_append, byteLength_cons]
    have hs := ih hn (m + byteLength (dropReturn u.reverse).reverse + 1)
    have hl := byteLength_dropReturn u
    have hz : ('\n').utf8Size = 1 := rfl
    omega

end

end Text

/-! ## faults of JSON text -/

/-- Counting on from a line stays in the lines of the text. -/
theorem Json.advance_bounds (line column offset : Nat) (s : List Char) :
    line ≤ (advance line column offset s).1 ∧
      (advance line column offset s).1 ≤ line + s.count '\n' := by
  induction s generalizing line column offset with
  | nil => simp [advance]
  | cons c s ih =>
    rw [advance]
    split
    · simp
    · split
      · next hc =>
        have h := ih (line + 1) 0 (offset - 1)
        simp only [hc, List.count_cons_self]
        omega
      · next hc =>
        split
        · simp
        · simpa [List.count_cons_of_ne hc] using ih line (column + c.utf8Size) (offset - c.utf8Size)

/-- The line of a fault is a line of the text. -/
theorem Json.line_bounds {content : String} {fault : Fault}
    (h : parse content = .error fault) :
    1 ≤ fault.line ∧ fault.line ≤ content.toList.count '\n' + 1 := by
  have hf : ∃ stop : Stop, fault = stop.fault content.toList := by
    unfold parse at h
    extract_lets s result at h
    cases hr : result with
    | error stop =>
      rw [hr] at h
      exact ⟨stop, (Except.error.inj h).symm⟩
    | ok v =>
      rw [hr] at h
      cases h
  obtain ⟨stop, rfl⟩ := hf
  have hb := advance_bounds 1 0
    (Text.byteLength content.toList - Text.byteLength stop.rest + stop.ahead) content.toList
  exact ⟨hb.1, Nat.add_comm 1 _ ▸ hb.2⟩

namespace Diagnostic

open Text (Leads occurrences returnNewline byteLength)

/-- The place of a column, counted from one, behind all that stands in front of its line. -/
def place (before : List Char) (column : Nat) : Nat := byteLength before + (column - 1)

section
variable {content : String} {before : List Char} {line column : Nat}

/-- An offset falls short by one byte for every line end of two characters in front. -/
theorem lineColumnOffset_add (h : Leads before line content.toList) :
    lineColumnOffset content line column + occurrences returnNewline before =
      place before column := by
  obtain ⟨n, rfl⟩ : ∃ n, line = n + 1 := ⟨_, h.count_eq.symm⟩
  have hs := h.foldl_take 0
  rw [lineColumnOffset, place, Nat.add_sub_cancel]
  omega

theorem lineColumnOffset_eq_iff (h : Leads before line content.toList) :
    lineColumnOffset content line column = place before column ↔
      occurrences returnNewline before = 0 := by
  have hs : _ = place before column := lineColumnOffset_add h
  omega

end

theorem eq_error_of_map {ε α β : Type} {x : Except ε α} {f : α → β} {e : ε}
    (h : x.map f = .error e) : x = .error e := by
  cases x with
  | error e => exact congrArg _ (Except.error.inj h)
  | ok a => cases h

/-- Every line of a text, and the end behind the last newline, has something in front, and the
offset of a line and column falls short of their place by one byte for every line end of two
characters there.  So it is the place exactly if there is none.  The diagnostic of JSON text
that cannot be read points at the offset of the line and column where reading stopped, or at
the end of the text. -/
theorem lineColumnOffset_of_leads (content : String) :
    (∀ line, 1 ≤ line → line ≤ content.toList.count '\n' + 1 →
      ∃ before, Leads before line content.toList) ∧
    (∀ before line column, Leads before line content.toList →
      lineColumnOffset content line column + occurrences returnNewline before =
        place before column ∧
      (lineColumnOffset content line column = place before column ↔
        occurrences returnNewline before = 0)) ∧
    ∀ path fault, Json.parse content = .error fault →
      (1 ≤ fault.line ∧ fault.line ≤ content.toList.count '\n' + 1) ∧
      ∀ before, Leads before fault.line content.toList →
        (ofLoadError content (.json path fault)).offset =
          min (place before fault.column - occurrences returnNewline before)
            (byteLength content.toList) := by
  refine ⟨fun line h₁ h₂ => ?_, fun before line column h => ?_, fun path fault hf => ?_⟩
  · obtain ⟨n, rfl⟩ := Nat.exists_eq_add_of_le' h₁
    exact Text.exists_leads (Nat.le_of_add_le_add_right h₂)
  · exact ⟨lineColumnOffset_add h, lineColumnOffset_eq_iff h⟩
  · refine ⟨Json.line_bounds hf, fun before h => ?_⟩
    show min (lineColumnOffset content fault.line fault.column) _ = _
    rw [← lineColumnOffset_add h, Nat.add_sub_cancel]

/-- A fault behind line ends of both kinds and a character of two bytes. -/
def mixedEnds : String := "\x7b\r\n\"é\":1,\n?"

theorem lineColumnOffset_of_leads_mixedEnds :
    Leads "\x7b\r\n\"é\":1,\n".toList 3 mixedEnds.toList ∧
      lineColumnOffset mixedEnds 3 1 + 1 = 11 ∧
      ∃ fault, Json.parse mixedEnds = .error fault ∧
        (ofLoadError mixedEnds (.json "en.json" fault)).offset = 10 := by
  obtain ⟨-, ho, hd⟩ := lineColumnOffset_of_leads mixedEnds
  have hl : Leads "\x7b\r\n\"é\":1,\n".toList 3 mixedEnds.toList := by decide +kernel
  have hf : (Json.parse mixedEnds).map (fun _ => ()) = .error ⟨.nameNotString, 3, 1⟩ := by
    decide +kernel
  have hf := eq_error_of_map hf
  exact ⟨hl, (ho _ 3 1 hl).1, _, hf, ((hd "en.json" _ hf).2 _ hl).trans (by decide +kernel)⟩

/-- An object that breaks off behind a line end of two characters. -/
def returnEnd : String := "\x7b\r\n?"

/-- Behind a line end of two characters the offset is not the place. -/
theorem lineColumnOffset_returnEnd :
    Leads "\x7b\r\n".toList 2 returnEnd.toList ∧ place "\x7b\r\n".toList 1 = 3 ∧
      lineColumnOffset returnEnd 2 1 = 2 ∧
      ∃ fault, Json.parse returnEnd = .error fault ∧ fault.line = 2 ∧ fault.column = 1 ∧
        (ofLoadError returnEnd (.json "en.json" fault)).offset = 2 := by
  have hf : (Json.parse returnEnd).map (fun _ => ()) = .error ⟨.nameNotString, 2, 1⟩ := by
    decide +kernel
  exact ⟨by decide +kernel, rfl, rfl, _, eq_error_of_map hf, rfl, rfl, by decide +kernel⟩

end Diagnostic

end Phrasebook
