import Phrasebook.Template.Printer
import Phrasebook.Proofs.Template.Canonical
import Phrasebook.Proofs.Template.Grammar

/-!
# Phrasebook.Proofs.Template.Tokens

Reading back the tokens of the printer: references, conditions, the words around
them and directives, each in front of an arbitrary text that cannot extend it.

A printed directive goes through the reader of plural choices first.  That reader
needs an opening brace before the next closing one, and a directive has neither
(`choice?_unbraced`); so even `plural, one` is read as a directive.
-/

namespace Phrasebook.Template

/-! ## blanks -/

theorem blanks_cons_of_not_blank {c : Char} {s : List Char} (h : Text.isBlank c = false) :
    blanks (c :: s) = 0 := by
  simp [blanks, h]

theorem blanks_space (s : List Char) : blanks (' ' :: s) = blanks s + 1 := by
  rw [blanks, List.takeWhile_cons_of_pos (by decide), List.length_cons, blanks]

/-! ## references -/

/-- A character after which a printed reference ends. -/
def isDelimiter (c : Char) : Bool := c == '}' || c == ','

theorem not_isNamePart_of_isDelimiter {c : Char} (h : isDelimiter c = true) :
    isNamePart c = false := by
  simp only [isDelimiter, Bool.or_eq_true, beq_iff_eq] at h
  rcases h with rfl | rfl <;> decide

theorem not_isDigit_of_isDelimiter {c : Char} (h : isDelimiter c = true) :
    c.isDigit = false := by
  simp only [isDelimiter, Bool.or_eq_true, beq_iff_eq] at h
  rcases h with rfl | rfl <;> decide

theorem not_isBlank_of_isDelimiter {c : Char} (h : isDelimiter c = true) :
    Text.isBlank c = false := by
  simp only [isDelimiter, Bool.or_eq_true, beq_iff_eq] at h
  rcases h with rfl | rfl <;> decide

theorem not_isBlank_of_isNameStart {c : Char} (h : isNameStart c = true) :
    Text.isBlank c = false := by
  simp only [isNameStart, Bool.or_eq_true, beq_iff_eq] at h
  rcases h with h | rfl
  · exact Text.isBlank_of_isLetter h
  · decide

theorem not_isDigit_of_isNameStart {c : Char} (h : isNameStart c = true) :
    c.isDigit = false := by
  simp only [isNameStart, Bool.or_eq_true, beq_iff_eq] at h
  rcases h with h | rfl
  · exact Text.isDigit_of_isLetter h
  · decide

/-- A row of characters of a class, in front of one that is not in it. -/
theorem takeWhile_append_cons {p : Char → Bool} {u : List Char} (hu : ∀ c ∈ u, p c = true)
    {c : Char} (hc : p c = false) (s : List Char) : (u ++ c :: s).takeWhile p = u := by
  rw [List.takeWhile_append_of_pos hu, List.takeWhile_cons_of_neg (by simp [hc]), List.append_nil]

theorem readReference?_render {r : Reference} (hr : isReference r = true) {c : Char}
    (hc : isDelimiter c = true) (s : List Char) :
    readReference? (r.render.toList ++ c :: s) = some (r, r.render.toList.length) := by
  cases r with
  | index i =>
    have hd : ∀ d ∈ Number.digits i.toNat, d.isDigit = true := fun _ h =>
      Number.isDigit_of_mem_digits h
    rw [Reference.render, Number.render, String.toList_ofList]
    unfold readReference?
    rw [takeWhile_append_cons hd (not_isDigit_of_isDelimiter hc)]
    split
    · next h => exact absurd h (Number.digits_ne_nil _)
    · rw [Number.readUInt64?_digits, Option.map_some]
  | name n =>
    rw [isReference] at hr
    rw [Reference.render]
    cases hn : n.toList with
    | nil => rw [hn] at hr; cases hr
    | cons d ds =>
      rw [hn, isName, Bool.and_eq_true] at hr
      have hd := List.all_eq_true.1 hr.2
      rw [List.cons_append, readReference?,
        List.takeWhile_cons_of_neg (by simp [not_isDigit_of_isNameStart hr.1])]
      simp only [hr.1, if_true, takeWhile_append_cons hd (not_isNamePart_of_isDelimiter hc),
        ← hn, String.ofList_toList]

theorem blanks_render {r : Reference} (hr : isReference r = true) (s : List Char) :
    blanks (r.render.toList ++ s) = 0 := by
  cases r with
  | index i =>
    rw [Reference.render, Number.render, String.toList_ofList]
    cases hi : Number.digits i.toNat with
    | nil => exact absurd hi (Number.digits_ne_nil _)
    | cons d ds =>
      have hd : d.isDigit = true :=
        Number.isDigit_of_mem_digits (by rw [hi]; exact List.mem_cons_self)
      exact blanks_cons_of_not_blank (Text.isBlank_of_isDigit hd)
  | name n =>
    rw [isReference] at hr
    rw [Reference.render]
    cases hn : n.toList with
    | nil => rw [hn] at hr; cases hr
    | cons d ds =>
      rw [hn, isName, Bool.and_eq_true] at hr
      exact blanks_cons_of_not_blank (not_isBlank_of_isNameStart hr.1)

/-- A printed reference in front of a delimiter. -/
theorem readHead?_render {r : Reference} (hr : isReference r = true) {c : Char}
    (hc : isDelimiter c = true) {s : List Char} (hs : s.head? = some c) :
    readHead? (r.render.toList ++ s) = some (r, r.render.toList.length) := by
  cases s with
  | nil => cases hs
  | cons d s =>
    cases hs
    rw [readHead?, blanks_render hr, List.drop_zero, readReference?_render hr hc]
    simp [blanks_cons_of_not_blank (not_isBlank_of_isDelimiter hc)]

/-! ## conditions -/

theorem readExact?_render (n : Int64) (s : List Char) :
    readExact? ((Number.renderInt n.toInt).toList ++ '{' :: s) =
      some (.exact n, (Number.renderInt n.toInt).toList.length + 1) := by
  have hd : ∀ d ∈ Number.digits n.toInt.natAbs, d.isDigit = true := fun _ h =>
    Number.isDigit_of_mem_digits h
  have hb : Char.isDigit '{' = false := by decide
  rcases Int.lt_or_le n.toInt 0 with hlt | hge
  · have hr := Number.toList_renderInt_of_neg hlt
    have hn := Number.readInt64?_renderInt n
    rw [hr] at hn ⊢
    simp only [readExact?, List.cons_append, takeWhile_append_cons hd hb, hn, Option.map_some]
  · have hr := Number.toList_renderInt_of_nonneg hge
    have hn := Number.readInt64?_renderInt n
    rw [hr] at hn ⊢
    unfold readExact?
    split
    · next t ht =>
      cases hds : Number.digits n.toInt.natAbs with
      | nil => exact absurd hds (Number.digits_ne_nil _)
      | cons d ds =>
        rw [hds, List.cons_append] at ht
        cases ht
        exact absurd hds (Number.digits_ne_cons rfl _)
    · simp only [takeWhile_append_cons hd hb, hn, Option.map_some]

/-- A printed condition in front of the body of its branch. -/
theorem readSelector?_render (x : Selector) (s : List Char) :
    readSelector? (x.render.toList ++ '{' :: s) = some (x, x.render.toList.length) := by
  cases x with
  | exact n =>
    have ht : (Selector.exact n).render.toList = '=' :: (Number.renderInt n.toInt).toList := by
      rw [Selector.render, String.toList_append]
      simp
    rw [ht, List.cons_append, readSelector?, readExact?_render, List.length_cons]
  | category c =>
    have hw : ∀ d ∈ c.keyword.toList, isWordPart d = true :=
      List.all_eq_true.1 (by cases c <;> decide)
    have he : ∀ t, c.keyword.toList ++ '{' :: s ≠ '=' :: t := by
      intro t h
      have hh := congrArg List.head? h
      cases c <;> simp [Plural.Category.keyword] at hh
    rw [Selector.render]
    unfold readSelector?
    split
    · next h => exact absurd h (he _)
    · rw [takeWhile_append_cons hw (by decide)]
      simp

theorem blanks_selector (x : Selector) (s : List Char) : blanks (x.render.toList ++ s) = 0 := by
  cases x with
  | exact n =>
    rw [Selector.render, String.toList_append]
    exact blanks_cons_of_not_blank (by decide)
  | category c =>
    rw [Selector.render]
    cases c <;> exact blanks_cons_of_not_blank (by decide)

/-! ## the opening of a choice -/

/-- The printed opening of a choice, after its reference. -/
theorem readPluralMark?_print (s : List Char) :
    readPluralMark? (", plural,".toList ++ s) =
      some (", plural,".toList.length + blanks s) := by
  have hp : blanks ('p' :: 'l' :: 'u' :: 'r' :: 'a' :: 'l' :: ',' :: s) = 0 :=
    blanks_cons_of_not_blank (by decide)
  have hc : blanks (',' :: s) = 0 := blanks_cons_of_not_blank (by decide)
  have ht : "plural".toList = ['p', 'l', 'u', 'r', 'a', 'l'] := by decide
  rw [show ", plural,".toList = [',', ' ', 'p', 'l', 'u', 'r', 'a', 'l', ','] by decide]
  simp [readPluralMark?, blanks_space, hp, hc, ht, List.isPrefixOf]

/-! ## directives -/

/-- The first `n` characters of a text hold no closing brace. -/
def Open (s : List Char) (n : Nat) : Prop := '}' ∉ s.take n

theorem Open.add {s : List Char} {m n : Nat} (h : Open s m) (h' : Open (s.drop m) n) :
    Open s (m + n) := by
  rw [Open, List.take_add, List.mem_append, not_or]
  exact ⟨h, h'⟩

theorem Open.cons {c : Char} {s : List Char} {n : Nat} (hc : c ≠ '}') (h : Open s n) :
    Open (c :: s) (n + 1) := by
  rw [Open, List.take_succ_cons, List.mem_cons, not_or]
  exact ⟨hc.symm, h⟩

theorem open_takeWhile {p : Char → Bool} (hp : p '}' = false) (s : List Char) :
    Open s (s.takeWhile p).length := by
  rw [Open, ← List.prefix_iff_eq_take.1 (List.takeWhile_prefix p)]
  intro h
  have ht := List.all_eq_true.1 List.all_takeWhile _ h
  rw [hp] at ht
  cases ht

theorem open_blanks (s : List Char) : Open s (blanks s) := open_takeWhile (by decide) s

theorem open_readExact? {s : List Char} {x : Selector} {n : Nat}
    (h : readExact? s = some (x, n)) : Open ('=' :: s) n := by
  obtain ⟨i, -, he⟩ := Option.map_eq_some_iff.1 h
  cases he
  apply Open.cons (by decide)
  split
  · exact Open.cons (by decide) (open_takeWhile (by decide) _)
  · exact open_takeWhile (by decide) s

theorem open_readSelector? {s : List Char} {x : Selector} {n : Nat}
    (h : readSelector? s = some (x, n)) : Open s n := by
  unfold readSelector? at h
  split at h
  · exact open_readExact? h
  · obtain ⟨c, -, he⟩ := Option.map_eq_some_iff.1 h
    cases he
    exact open_takeWhile (by decide) s

theorem open_readPluralMark? {s : List Char} {n : Nat} (h : readPluralMark? s = some n) :
    Open s n := by
  unfold readPluralMark? at h
  split at h
  · next s =>
    dsimp only at h
    split at h
    · next hp =>
      split at h
      · next t ht =>
        cases h
        have hw : Open (s.drop (blanks s)) 6 := by
          obtain ⟨v, hv⟩ := List.isPrefixOf_iff_prefix.1 hp
          rw [← hv, Open, List.take_left' (by decide)]
          decide
        have hc : Open (',' :: t) (blanks t + 1) := (open_blanks t).cons (by decide)
        have he : Open ((s.drop (blanks s)).drop 6)
            (blanks ((s.drop (blanks s)).drop 6) + (blanks t + 1)) :=
          (open_blanks _).add (by rw [ht]; exact hc)
        have hs := ((open_blanks s).add (hw.add he)).cons (c := ',') (by decide)
        rwa [show 1 + blanks s + 6 + blanks ((s.drop (blanks s)).drop 6) + 1 + blanks t =
          blanks s + (6 + (blanks ((s.drop (blanks s)).drop 6) + (blanks t + 1))) + 1 by omega]
      · cases h
    · cases h
  · cases h

/-- An opening brace right after characters of which none closes comes before the next
closing brace. -/
theorem not_open_of_unbraced {u s t : List Char} (hu : ∀ c ∈ u, isUnbraced c = true) {n : Nat}
    (h : (u ++ '}' :: s).drop n = '{' :: t) : ¬ Open (u ++ '}' :: s) n := by
  intro ho
  rcases Nat.lt_or_ge u.length n with hn | hn
  · apply ho
    rw [List.take_append, List.mem_append, show n - u.length = n - u.length - 1 + 1 by omega,
      List.take_succ_cons]
    exact .inr List.mem_cons_self
  · rw [List.drop_append_of_le_length hn] at h
    cases hd : u.drop n with
    | nil => rw [hd] at h; cases h
    | cons c v =>
      rw [hd] at h
      cases h
      have hb := hu '{' (List.mem_of_mem_drop (by rw [hd]; exact List.mem_cons_self))
      cases hb

/-- Where no opening brace comes before the next closing one there is no choice. -/
theorem choice?_unbraced (inner : Grammar.Inner) {u : List Char}
    (hu : ∀ c ∈ u, isUnbraced c = true) (s : List Char) :
    Grammar.choice? inner (u ++ '}' :: s) = none := by
  rw [← Option.not_isSome_iff_eq_none]
  intro hc
  obtain ⟨⟨bs, n⟩, hc⟩ := Option.isSome_iff_exists.1 hc
  obtain ⟨a, v, ha, hb, hne, -, -⟩ := Grammar.choice?_cases hc
  have ho := open_readPluralMark? ha
  cases ht : (u ++ '}' :: s).drop a with
  | nil =>
    rw [ht, Grammar.branches] at hb
    exact hne hb
  | cons c t =>
    rw [ht, Grammar.branches] at hb
    cases hr : Grammar.branch inner (c :: t) with
    | none =>
      rw [hr] at hb
      exact hne hb
    | some r =>
      obtain ⟨selector, k, w, _, hs, hw, -, -, -⟩ := Grammar.branch_cases hr
      rw [← ht] at hs hw
      rw [List.drop_drop] at hw
      exact not_open_of_unbraced hu hw
        (ho.add ((open_readSelector? hs).add (open_blanks _)))

/-- A printed directive with the closing brace of its placeholder. -/
theorem readDirective?_print {d : String} (hd : isDirective d = true) (s : List Char) :
    readDirective? (", ".toList ++ d.toList ++ '}' :: s) =
      some (some d, (", ".toList ++ d.toList).length + 1) := by
  simp only [isDirective, Bool.and_eq_true, beq_iff_eq] at hd
  obtain ⟨⟨hne, ht⟩, hu⟩ := hd
  have hu : ∀ c ∈ ' ' :: d.toList, isUnbraced c = true := by
    intro c hc
    rcases List.mem_cons.1 hc with rfl | hc
    · decide
    · exact List.all_eq_true.1 hu c hc
  have hs : Text.trimChars (' ' :: d.toList) = d.toList := by
    rw [Text.trimChars, Text.dropBlanks_cons_of_blank (by decide)]
    exact ht
  have hb : isUnbraced '}' = false := by decide
  rw [show ", ".toList = [',', ' '] by decide, List.append_assoc, List.cons_append,
    List.cons_append, List.nil_append, ← List.cons_append]
  have hdrop : (' ' :: d.toList ++ '}' :: s).dropWhile isUnbraced = '}' :: s := by
    rw [List.dropWhile_append_of_pos hu, List.dropWhile_cons_of_neg (by simp [hb])]
  simp only [readDirective?, takeWhile_append_cons hu hb, hdrop, hs, String.ofList_toList]
  simpa using hne

end Phrasebook.Template
