import Mathlib.Data.List.Duplicate
import Phrasebook.Command.Eval
import Phrasebook.Proofs.Catalog.Contents

/-!
# Phrasebook.Proofs.Command.Bindings

What bindings on the command line give as arguments.

A binding whose name is a number gives the argument of that position.  Sorting bindings out
keeps, of each position and of each other name, the value of the last binding
(`Sorted.addAll_cases`); it gives up at the first position that comes again.  The positions are
then read in ascending order and have to be those from zero on; the first place where
they are not tells the smallest that is not given (`consecutive_cases`).

So bindings are accepted in any order, when their positions are distinct and none is left
out (`argumentsOf_bindings`).
-/

namespace Phrasebook.Command

/-! ## positions -/

/-- The position that a name is, if it is one. -/
def position? (name : String) : Option Nat := (Number.readUInt64? name.toList).map UInt64.toNat

/-- The positions that bindings give, in the order given. -/
def positions (bindings : List (String × String)) : List Nat :=
  bindings.filterMap fun b => position? b.1

/-- Positions are those from zero on, each once. -/
def FromZero (is : List Nat) : Prop := is.Nodup ∧ ∀ i, i ∈ is ↔ i < is.length

/-- The smallest position that is not given, and the next one that is. -/
structure Gap (is : List Nat) (missing next : Nat) : Prop where
  missing_not_mem : missing ∉ is
  mem_of_lt : ∀ i < missing, i ∈ is
  next_mem : next ∈ is
  lt : missing < next
  le_of_mem : ∀ i ∈ is, missing < i → next ≤ i

/-- The value of the last binding with a name of a kind. -/
def lastValue? (p : String → Bool) (bindings : List (String × String)) : Option Value :=
  (bindings.filter fun b => p b.1).getLast?.map fun b => valueOf b.2

variable {bindings rest : List (String × String)} {name raw : String} {i : Nat}

theorem positions_cons_of_some (h : position? name = some i) :
    positions ((name, raw) :: rest) = i :: positions rest :=
  List.filterMap_cons_some h

theorem positions_cons_of_none (h : position? name = none) :
    positions ((name, raw) :: rest) = positions rest :=
  List.filterMap_cons_none h

theorem lastValue?_cons (p : String → Bool) (name raw : String) (rest : List (String × String)) :
    lastValue? p ((name, raw) :: rest) =
      (lastValue? p rest).or (if p name then some (valueOf raw) else none) := by
  unfold lastValue?
  rw [List.filter_cons]
  by_cases h : p name = true
  · rw [if_pos h, if_pos h, List.getLast?_cons]
    cases (rest.filter fun b => p b.1).getLast? <;> rfl
  · rw [if_neg h, if_neg h, Option.or_none]

/-- A position that is not given has no value. -/
theorem lastValue?_of_not_mem (h : i ∉ positions bindings) :
    lastValue? (fun name => position? name = some i) bindings = none := by
  have hf : (bindings.filter fun b => position? b.1 = some i) = [] := by
    refine List.filter_eq_nil_iff.2 fun b hb hi => h ?_
    exact List.mem_filterMap.2 ⟨b, hb, of_decide_eq_true hi⟩
  rw [lastValue?, hf]
  rfl

/-- A position that is given once has the value given for it. -/
theorem lastValue?_of_mem (hn : (positions bindings).Nodup) (hb : (name, raw) ∈ bindings)
    (hi : position? name = some i) :
    lastValue? (fun name => position? name = some i) bindings = some (valueOf raw) := by
  induction bindings with
  | nil => cases hb
  | cons b rest ih =>
    obtain ⟨name', raw'⟩ := b
    rw [lastValue?_cons]
    rcases List.mem_cons.1 hb with he | hr
    · cases he
      rw [positions_cons_of_some hi] at hn
      rw [lastValue?_of_not_mem (List.nodup_cons.1 hn).1, if_pos (decide_eq_true hi)]
      rfl
    · have hn' : (positions rest).Nodup := by
        cases hp : position? name' with
        | none => rwa [positions_cons_of_none hp] at hn
        | some j => exact (List.nodup_cons.1 (positions_cons_of_some hp ▸ hn)).2
      rw [ih hn' hr, Option.some_or]

/-! ## sorting out -/

/-- What sorting bindings out adds to what was there. -/
structure Sorted.Adds (s : Sorted) (bindings : List (String × String)) (s' : Sorted) : Prop where
  positional : ∀ i, s'.positional[i]? =
    (lastValue? (fun name => position? name = some i) bindings).or s.positional[i]?
  named : ∀ name, position? name = none →
    s'.named.named? name = (lastValue? (fun n => n = name) bindings).or (s.named.named? name)

theorem Sorted.adds_nil (s : Sorted) : s.Adds [] s where
  positional _ := rfl
  named _ _ := rfl

theorem Sorted.addAll_cons_of_none (s : Sorted) (h : position? name = none) :
    s.addAll ((name, raw) :: rest) =
      addAll { s with named := s.named.insert name (valueOf raw) } rest := by
  rw [position?, Option.map_eq_none_iff] at h
  rw [addAll, h]

theorem Sorted.addAll_cons_of_some (s : Sorted) (h : position? name = some i) :
    s.addAll ((name, raw) :: rest) =
      if i ∈ s.positional then .error (.repeatedPosition i)
      else addAll { s with positional := s.positional.insert i (valueOf raw) } rest := by
  obtain ⟨j, hj, rfl⟩ := Option.map_eq_some_iff.1 h
  rw [addAll, hj]
  simp only [Std.TreeMap.contains_iff_mem]

theorem Sorted.Adds.cons_of_none {s s' : Sorted} (h : position? name = none)
    (ha : Adds { s with named := s.named.insert name (valueOf raw) } rest s') :
    s.Adds ((name, raw) :: rest) s' where
  positional i := by
    rw [ha.positional, lastValue?_cons, h, if_neg (by simp), Option.or_none]
  named n hn := by
    have hi : (s.named.insert name (valueOf raw)).named? n =
        if name = n then some (valueOf raw) else s.named.named? n := by
      simp only [Arguments.insert, Arguments.named?, Std.TreeMap.getElem?_insert,
        Std.LawfulEqCmp.compare_eq_iff_eq]
    rw [ha.named n hn, lastValue?_cons, hi, Option.or_assoc]
    by_cases hnn : name = n <;> simp [hnn]

theorem Sorted.Adds.cons_of_some {s s' : Sorted} (h : position? name = some i)
    (ha : Adds { s with positional := s.positional.insert i (valueOf raw) } rest s') :
    s.Adds ((name, raw) :: rest) s' where
  positional j := by
    have hi : (s.positional.insert i (valueOf raw))[j]? =
        if i = j then some (valueOf raw) else s.positional[j]? := by
      simp only [Std.TreeMap.getElem?_insert, Std.LawfulEqCmp.compare_eq_iff_eq]
    rw [ha.positional, lastValue?_cons, hi, h, Option.or_assoc]
    by_cases hij : i = j <;> simp [hij]
  named n hn := by
    have hne : name ≠ n := by
      rintro rfl
      rw [h] at hn
      cases hn
    rw [ha.named n hn, lastValue?_cons, if_neg (by simpa using hne), Option.or_none]

/-- Bindings are sorted out, unless a position comes that is there already or comes twice. -/
theorem Sorted.addAll_cases (s : Sorted) (bindings : List (String × String)) :
    ((positions bindings).Nodup ∧ (∀ i ∈ positions bindings, i ∉ s.positional) ∧
        ∃ s', s.addAll bindings = .ok s' ∧ s.Adds bindings s') ∨
      ∃ i, (i ∈ positions bindings ∧ i ∈ s.positional ∨ (positions bindings).Duplicate i) ∧
        s.addAll bindings = .error (.repeatedPosition i) := by
  induction bindings generalizing s with
  | nil => exact .inl ⟨List.nodup_nil, by simp [positions], s, rfl, s.adds_nil⟩
  | cons b rest ih =>
    obtain ⟨name, raw⟩ := b
    cases hp : position? name with
    | none =>
      rw [positions_cons_of_none hp, s.addAll_cons_of_none hp]
      obtain ⟨hn, hs, s', hs', ha⟩ | herr :=
        ih { s with named := s.named.insert name (valueOf raw) }
      · exact .inl ⟨hn, hs, s', hs', ha.cons_of_none hp⟩
      · exact .inr herr
    | some i =>
      rw [positions_cons_of_some hp, s.addAll_cons_of_some hp]
      by_cases hi : i ∈ s.positional
      · rw [if_pos hi]
        exact .inr ⟨i, .inl ⟨List.mem_cons_self, hi⟩, rfl⟩
      rw [if_neg hi]
      have hm : ∀ j, j ∈ s.positional.insert i (valueOf raw) ↔ i = j ∨ j ∈ s.positional := by
        simp [Std.TreeMap.mem_insert]
      obtain ⟨hn, hs, s', hs', ha⟩ | ⟨j, hj, herr⟩ := ih { s with
        positional := s.positional.insert i (valueOf raw) }
      · have hni : i ∉ positions rest := fun h => hs i h ((hm i).2 (.inl rfl))
        refine .inl ⟨List.nodup_cons.2 ⟨hni, hn⟩, List.forall_mem_cons.2 ⟨hi, fun j hj => ?_⟩, s',
          hs', ha.cons_of_some hp⟩
        exact fun h => hs j hj ((hm j).2 (.inr h))
      · refine .inr ⟨j, ?_, herr⟩
        rcases hj with ⟨hr, hj⟩ | hd
        · rcases (hm j).1 hj with rfl | hj
          · exact .inr (.cons_mem hr)
          · exact .inl ⟨List.mem_cons_of_mem i hr, hj⟩
        · exact .inr (hd.cons_duplicate)

/-- After sorting out, what is at a position was given for it. -/
theorem Sorted.Adds.mem_positional_iff {s : Sorted} (ha : Sorted.Adds ⟨∅, .empty⟩ bindings s)
    (hn : (positions bindings).Nodup) (i : Nat) : i ∈ s.positional ↔ i ∈ positions bindings := by
  rw [Std.TreeMap.mem_iff_isSome_getElem?, ha.positional, Std.TreeMap.getElem?_emptyc,
    Option.or_none]
  by_cases hi : i ∈ positions bindings
  · obtain ⟨⟨name, raw⟩, hb, hp⟩ := List.mem_filterMap.1 hi
    rw [lastValue?_of_mem hn hb hp]
    exact iff_of_true rfl hi
  · rw [lastValue?_of_not_mem hi]
    exact iff_of_false Bool.false_ne_true hi

/-! ## positions in order -/

/-- Values are taken as long as their positions follow each other. -/
theorem consecutive_cases (start : Nat) (xs : List (Nat × Value)) :
    (xs.map Prod.fst = List.range' start xs.length ∧
        consecutive start xs = .ok (xs.map Prod.snd)) ∨
      ∃ before next v after, xs = before ++ (next, v) :: after ∧
        before.map Prod.fst = List.range' start before.length ∧ next ≠ start + before.length ∧
        consecutive start xs = .error (.missingPosition (start + before.length) next) := by
  induction xs generalizing start with
  | nil => exact .inl ⟨rfl, rfl⟩
  | cons x rest ih =>
    obtain ⟨i, v⟩ := x
    rw [consecutive]
    by_cases hi : i = start
    · rw [if_pos hi]
      subst hi
      obtain ⟨hr, hok⟩ | ⟨before, next, w, after, rfl, hb, hne, herr⟩ := ih (i + 1)
      · rw [hok, List.map_cons, hr]
        exact .inl ⟨rfl, rfl⟩
      · rw [herr]
        refine .inr ⟨(i, v) :: before, next, w, after, rfl, ?_, ?_, ?_⟩
        · rw [List.map_cons, hb]
          rfl
        · rw [List.length_cons]
          omega
        · rw [List.length_cons, Nat.add_right_comm, Nat.add_assoc]
          rfl
    · rw [if_neg hi]
      exact .inr ⟨[], i, v, rest, rfl, rfl, hi, rfl⟩

/-- Values whose positions are those from zero on are found at their positions. -/
theorem getElem?_map_snd_toList {m : Std.TreeMap Nat Value}
    (h : m.toList.map Prod.fst = List.range' 0 m.toList.length) (i : Nat) :
    (m.toList.map Prod.snd)[i]? = m[i]? := by
  have hi := congrArg (fun is => is[i]?) h
  simp only [List.getElem?_map] at hi ⊢
  cases hx : m.toList[i]? with
  | none =>
    have hn : i ∉ m.keys := by
      rw [← Std.TreeMap.map_fst_toList_eq_keys, h, List.mem_range'_1]
      have := List.getElem?_eq_none_iff.1 hx
      omega
    rw [Std.TreeMap.mem_keys, Std.TreeMap.mem_iff_isSome_getElem?,
      Option.not_isSome_iff_eq_none] at hn
    rw [hn]
    rfl
  | some x =>
    obtain ⟨j, v⟩ := x
    obtain ⟨hl, -⟩ := List.getElem?_eq_some_iff.1 hx
    rw [hx, List.getElem?_range' hl, Option.map_some, Option.some.injEq] at hi
    obtain rfl : j = i := by simpa using hi
    exact (Std.TreeMap.mem_toList_iff_getElem?_eq_some.1 (List.mem_of_getElem? hx)).symm

/-- Only what is in a list decides about its gap. -/
theorem Gap.congr {is js : List Nat} (h : ∀ i, i ∈ is ↔ i ∈ js) {m n : Nat} (hg : Gap is m n) :
    Gap js m n where
  missing_not_mem := fun hm => hg.missing_not_mem ((h m).2 hm)
  mem_of_lt i hi := (h i).1 (hg.mem_of_lt i hi)
  next_mem := (h n).1 hg.next_mem
  lt := hg.lt
  le_of_mem i hi := hg.le_of_mem i ((h i).2 hi)

/-- Where ascending positions leave those from zero on, there is a gap. -/
theorem gap_of_pairwise {before after : List Nat} {k next : Nat}
    (hp : (before ++ next :: after).Pairwise (· < ·)) (hb : before = List.range' 0 k)
    (hne : next ≠ k) : Gap (before ++ next :: after) k next := by
  have hmb : ∀ i, i ∈ before ↔ i < k := by
    intro i
    rw [hb, List.mem_range'_1]
    omega
  obtain ⟨-, hn, hlt⟩ := List.pairwise_append.1 hp
  have hafter := (List.pairwise_cons.1 hn).1
  have hk : k < next := by
    refine Nat.lt_of_le_of_ne (Nat.le_of_not_lt fun h => ?_) hne.symm
    exact Nat.lt_irrefl next (hlt next ((hmb next).2 h) next List.mem_cons_self)
  have hcases : ∀ i ∈ before ++ next :: after, i < k ∨ next ≤ i := by
    intro i hi
    rcases List.mem_append.1 hi with h | h
    · exact .inl ((hmb i).1 h)
    · rcases List.mem_cons.1 h with rfl | h
      · exact .inr (Nat.le_refl i)
      · exact .inr (Nat.le_of_lt (hafter i h))
  exact {
    missing_not_mem := fun hm => by
      have := hcases k hm
      omega
    mem_of_lt := fun i hi => List.mem_append_left _ ((hmb i).2 hi)
    next_mem := List.mem_append_right _ List.mem_cons_self
    lt := hk
    le_of_mem := fun i hi hlt => (hcases i hi).resolve_left (Nat.not_lt.2 (Nat.le_of_lt hlt)) }

/-! ## arguments -/

/-- What bindings give: arguments with the values sorted out, or the error of a position that is
repeated or left out. -/
theorem argumentsOf_cases (bindings : List (String × String)) :
    (FromZero (positions bindings) ∧ ∃ s a, Sorted.Adds ⟨∅, .empty⟩ bindings s ∧
        argumentsOf bindings = .ok a ∧ a.named = s.named.named ∧
        ∀ i : Nat, a.positional[i]? = s.positional[i]?) ∨
      (∃ i, (positions bindings).Duplicate i ∧
        argumentsOf bindings = .error (.repeatedPosition i)) ∨
      ∃ m n, (positions bindings).Nodup ∧ Gap (positions bindings) m n ∧
        argumentsOf bindings = .error (.missingPosition m n) := by
  rw [argumentsOf]
  obtain ⟨hn, -, s, hs, ha⟩ | ⟨i, hi, herr⟩ := Sorted.addAll_cases ⟨∅, .empty⟩ bindings
  · rw [hs]
    dsimp only
    have hkeys : ∀ i, i ∈ s.positional.toList.map Prod.fst ↔ i ∈ positions bindings := by
      intro i
      rw [Std.TreeMap.map_fst_toList_eq_keys, Std.TreeMap.mem_keys, ha.mem_positional_iff hn]
    obtain ⟨hr, hok⟩ | ⟨before, next, v, after, hx, hb, hne, herr⟩ :=
      consecutive_cases 0 s.positional.toList
    · have hp : (s.positional.toList.map Prod.fst).Perm (positions bindings) :=
        (List.perm_ext_iff_of_nodup (hr ▸ List.nodup_range') hn).2 hkeys
      refine .inl ⟨⟨hn, fun i => ?_⟩, s,
        ⟨s.named.named, s.positional.toList.map Prod.snd⟩, ha, ?_, rfl,
        getElem?_map_snd_toList hr⟩
      · rw [← hkeys, ← hp.length_eq, hr, List.mem_range'_1, List.length_range']
        omega
      · rw [hok]
        rfl
    · have hp : (s.positional.toList.map Prod.fst).Pairwise (· < ·) := by
        rw [Std.TreeMap.map_fst_toList_eq_keys]
        exact s.positional.ordered_keys.imp Nat.compare_eq_lt.1
      rw [Nat.zero_add] at hne herr
      have hg : Gap (s.positional.toList.map Prod.fst) before.length next := by
        rw [hx, List.map_append, List.map_cons] at hp ⊢
        exact gap_of_pairwise hp hb hne
      refine .inr (.inr ⟨_, next, hn, hg.congr hkeys, ?_⟩)
      rw [herr]
      rfl
  · rw [herr]
    refine .inr (.inl ⟨i, ?_, rfl⟩)
    exact hi.resolve_left fun h => Std.TreeMap.not_mem_emptyc h.2

/-- A gap is no position from zero on. -/
theorem Gap.not_fromZero {is : List Nat} {m n : Nat} (hg : Gap is m n) : ¬ FromZero is := by
  intro hz
  have hn := (hz.2 n).1 hg.next_mem
  exact hg.missing_not_mem ((hz.2 m).2 (Nat.lt_trans hg.lt hn))

/-- Bindings are accepted exactly if their positions are those from zero on, each once, in any
order.  A position then has the value given for it and there is no position more; any other name
has the value of the last binding of it, or none.  Of bindings that are not accepted a position
that is given twice is reported, and if there is none, the smallest that is left out. -/
theorem argumentsOf_bindings (bindings : List (String × String)) :
    ((∃ a, argumentsOf bindings = .ok a) ↔ FromZero (positions bindings)) ∧
      (∀ a, argumentsOf bindings = .ok a →
        (∀ name raw i, (name, raw) ∈ bindings → Number.readUInt64? name.toList = some i →
          i.toNat < (positions bindings).length ∧ a.get? (.index i) = some (valueOf raw)) ∧
        (∀ i : UInt64, (positions bindings).length ≤ i.toNat → a.get? (.index i) = none) ∧
        ∀ name, Number.readUInt64? name.toList = none →
          a.get? (.name name) =
            (bindings.filter fun b => b.1 = name).getLast?.map fun b => valueOf b.2) ∧
      (¬ (positions bindings).Nodup →
        ∃ i, (positions bindings).Duplicate i ∧
          argumentsOf bindings = .error (.repeatedPosition i)) ∧
      ((positions bindings).Nodup → ¬ FromZero (positions bindings) →
        ∃ m n, Gap (positions bindings) m n ∧
          argumentsOf bindings = .error (.missingPosition m n)) := by
  obtain ⟨hz, s, a, ha, hok, hnamed, hpos⟩ | ⟨i, hi, herr⟩ | ⟨m, n, hn, hg, herr⟩ :=
    argumentsOf_cases bindings
  · refine ⟨iff_of_true ⟨a, hok⟩ hz, fun a' ha' => ?_, fun hn => absurd hz.1 hn,
      fun _ h => absurd hz h⟩
    obtain rfl : a = a' := Except.ok.inj (hok.symm.trans ha')
    have hget : ∀ i : UInt64, a.get? (.index i) =
        lastValue? (fun name => position? name = some i.toNat) bindings := by
      intro i
      rw [Arguments.get?, hpos, ha.positional, Std.TreeMap.getElem?_emptyc, Option.or_none]
    refine ⟨fun name raw i hb hi => ?_, fun i hi => ?_, fun name hname => ?_⟩
    · have hp : position? name = some i.toNat := by rw [position?, hi, Option.map_some]
      exact ⟨(hz.2 _).1 (List.mem_filterMap.2 ⟨_, hb, hp⟩),
        (hget i).trans (lastValue?_of_mem hz.1 hb hp)⟩
    · rw [hget, lastValue?_of_not_mem fun hm => Nat.not_lt.2 hi ((hz.2 _).1 hm)]
    · have hp : position? name = none := by rw [position?, hname, Option.map_none]
      have h := ha.named name hp
      rw [Arguments.named?, ← hnamed] at h
      rw [Arguments.get?, Arguments.named?, h, Arguments.named?, Arguments.empty,
        Std.TreeMap.getElem?_emptyc, Option.or_none, lastValue?]
  · have hn : ¬ (positions bindings).Nodup := List.exists_duplicate_iff_not_nodup.1 ⟨i, hi⟩
    have hne : ∀ a, argumentsOf bindings ≠ .ok a := by simp [herr]
    exact ⟨iff_of_false (fun ⟨a, h⟩ => hne a h) fun h => hn h.1, fun a h => absurd h (hne a),
      fun _ => ⟨i, hi, herr⟩, fun h => absurd h hn⟩
  · have hne : ∀ a, argumentsOf bindings ≠ .ok a := by simp [herr]
    exact ⟨iff_of_false (fun ⟨a, h⟩ => hne a h) hg.not_fromZero, fun a h => absurd h (hne a),
      fun h => absurd hn h, fun _ _ => ⟨m, n, hg, herr⟩⟩

/-- Bindings in any order, of which a position is signed and a name comes twice. -/
def interleaved : List (String × String) :=
  [("1", "b"), ("name", "Ava"), ("+0", "2.5"), ("name", "Bo")]

theorem argumentsOf_bindings_interleaved :
    (∃ a, argumentsOf interleaved = .ok a ∧ a.get? (.index 0) = some (valueOf "2.5") ∧
        a.get? (.index 1) = some (valueOf "b") ∧ a.get? (.index 2) = none ∧
        a.get? (.name "name") = some (valueOf "Bo")) ∧
      (∃ i, argumentsOf [("0", "a"), ("00", "b")] = .error (.repeatedPosition i)) ∧
      ∃ m n, Gap [0, 2] m n ∧
        argumentsOf [("0", "a"), ("2", "c")] = .error (.missingPosition m n) := by
  refine ⟨?_, ?_, ?_⟩
  · obtain ⟨hiff, hok, -, -⟩ := argumentsOf_bindings interleaved
    have hp : positions interleaved = [1, 0] := by decide +kernel
    have hz : FromZero (positions interleaved) := by
      rw [hp]
      refine ⟨by decide, fun i => ?_⟩
      simp
      omega
    obtain ⟨a, ha⟩ := hiff.2 hz
    obtain ⟨hpos, hbeyond, hnamed⟩ := hok a ha
    refine ⟨a, ha, (hpos "+0" "2.5" 0 (by decide) (by decide +kernel)).2,
      (hpos "1" "b" 1 (by decide) (by decide +kernel)).2, hbeyond 2 ?_, ?_⟩
    · rw [hp]
      decide
    · rw [hnamed "name" (by decide +kernel)]
      rfl
  · obtain ⟨-, -, hrep, -⟩ := argumentsOf_bindings [("0", "a"), ("00", "b")]
    obtain ⟨i, -, hi⟩ := hrep (by decide +kernel)
    exact ⟨i, hi⟩
  · obtain ⟨-, -, -, hgap⟩ := argumentsOf_bindings [("0", "a"), ("2", "c")]
    have hp : positions [("0", "a"), ("2", "c")] = [0, 2] := by decide +kernel
    rw [hp] at hgap
    exact hgap (by decide) fun hz => absurd ((hz.2 2).1 (by decide)) (by decide)

end Phrasebook.Command
