import Phrasebook.Json.Reader

/-!
# Phrasebook.Proofs.Json.Members

Objects as they are read.

The members of an object that was read stand in ascending order of their names, each name
once, and so do those of every object among them (`Ascending`): members are inserted where
they belong, and a later one replaces an earlier one of its name.  Anything but an object is a
leaf here, lists included.
-/

namespace Phrasebook.Json

/-- A value that is no object. -/
def IsLeaf : Json → Prop
  | .object _ => False
  | _ => True

instance : DecidablePred IsLeaf
  | .object _ => isFalse id
  | .null | .bool _ | .integer _ | .float _ | .string _ | .array _ => isTrue trivial

/-- The names of an object ascend, and those of the objects among its members. -/
inductive Ascending : Json → Prop
  | object {members : List (String × Json)} (names : members.Pairwise fun x y => x.1 < y.1)
    (each : ∀ x ∈ members, Ascending x.2) : Ascending (.object members)
  | leaf {v : Json} (h : v.IsLeaf) : Ascending v

/-! ## members -/

section
variable {name : String} {v : Json} {members : List (String × Json)} {x : String × Json}

theorem mem_of_mem_insertMember (h : x ∈ insertMember name v members) :
    x = (name, v) ∨ x ∈ members := by
  induction members with
  | nil => exact .inl (List.mem_singleton.1 h)
  | cons y rest ih =>
    obtain ⟨n, w⟩ := y
    rw [insertMember] at h
    split at h
    · exact List.mem_cons.1 h
    · split at h
      · exact (List.mem_cons.1 h).imp_right (List.mem_cons_of_mem _)
      · rcases List.mem_cons.1 h with rfl | h
        · exact .inr List.mem_cons_self
        · exact (ih h).imp_right (List.mem_cons_of_mem _)

theorem pairwise_insertMember (name : String) (v : Json)
    (h : members.Pairwise fun x y => x.1 < y.1) :
    (insertMember name v members).Pairwise fun x y => x.1 < y.1 := by
  induction members with
  | nil => exact List.pairwise_singleton _ _
  | cons y rest ih =>
    obtain ⟨n, w⟩ := y
    obtain ⟨hn, hrest⟩ := List.pairwise_cons.1 h
    rw [insertMember]
    split
    · next hlt =>
      refine List.pairwise_cons.2 ⟨List.forall_mem_cons.2 ⟨hlt, fun x hx => ?_⟩, h⟩
      exact String.lt_trans hlt (hn x hx)
    · next hle =>
      split
      · next heq =>
        subst heq
        exact List.pairwise_cons.2 ⟨hn, hrest⟩
      · next hne =>
        refine List.pairwise_cons.2 ⟨fun x hx => ?_, ih hrest⟩
        rcases mem_of_mem_insertMember hx with rfl | hx
        · exact Decidable.byContradiction fun hnlt =>
            hne (String.le_antisymm (String.not_lt.1 hnlt) (String.not_lt.1 hle))
        · exact hn x hx

theorem ascending_insertMember (hm : (object members).Ascending) (hv : v.Ascending)
    (name : String) : (object (insertMember name v members)).Ascending := by
  cases hm with
  | leaf h => exact h.elim
  | object names each =>
    refine .object (pairwise_insertMember name v names) fun x hx => ?_
    rcases mem_of_mem_insertMember hx with rfl | hx
    · exact hv
    · exact each x hx

end

/-! ## numbers -/

/-- What is read, if anything is, is no object. -/
def Read.Leaf (r : Read Json) : Prop := ∀ v s, r = .ok (v, s) → v.IsLeaf

theorem Read.leaf_error (e : Stop) : Read.Leaf (.error e) := fun _ _ h => nomatch h

theorem Read.leaf_ok {v : Json} (h : v.IsLeaf) (s : List Char) : Read.Leaf (.ok (v, s)) := by
  intro v' s' he
  obtain ⟨rfl, -⟩ := Prod.mk.inj (Except.ok.inj he)
  exact h

theorem Read.leaf_map {α : Type} {f : α → Json × List Char} (h : ∀ x, (f x).1.IsLeaf)
    (r : Except Stop α) : Read.Leaf (r.map f) := by
  cases r with
  | error e => exact Read.leaf_error e
  | ok x => exact Read.leaf_ok (h x) (f x).2

theorem Read.Leaf.ascending {r : Read Json} (hr : r.Leaf) {v : Json} {s : List Char}
    (h : r = .ok (v, s)) : v.Ascending :=
  .leaf (hr v s h)

section
variable (negative : Bool) (significand : Nat) (exponent : Int) (s : List Char)

theorem leaf_floatOf : Read.Leaf (floatOf negative significand exponent s) := by
  unfold floatOf
  split
  · exact Read.leaf_error _
  · exact Read.leaf_ok (by exact trivial) _

theorem leaf_readExponent : Read.Leaf (readExponent negative significand exponent s) := by
  unfold readExponent
  dsimp only
  repeat' split
  all_goals first | exact leaf_floatOf _ _ _ _ | exact Read.leaf_error _

theorem leaf_readScale : Read.Leaf (readScale negative significand exponent s) := by
  unfold readScale
  split
  · exact leaf_readExponent _ _ _ _
  · exact leaf_readExponent _ _ _ _
  · exact leaf_floatOf _ _ _ _

theorem leaf_readFraction : Read.Leaf (readFraction negative significand exponent s) := by
  unfold readFraction
  dsimp only
  split
  · exact Read.leaf_error _
  · exact leaf_readScale _ _ _ _

theorem leaf_readNumber : Read.Leaf (readNumber negative s) := by
  unfold readNumber
  dsimp only
  repeat' split
  all_goals first
    | exact Read.leaf_error _
    | exact Read.leaf_ok (by exact trivial) _
    | exact leaf_readFraction _ _ _ _
    | exact leaf_readScale _ _ _ _

end

/-! ## values -/

/-- What is read ascends; members as far as those before them do. -/
theorem ascending_read (fuel : Nat) :
    (∀ depth s v rest, readValue fuel depth s = .ok (v, rest) → v.Ascending) ∧
      ∀ depth first done s members rest,
        readMembers fuel depth first done s = .ok (members, rest) →
          (object done).Ascending → (object members).Ascending := by
  induction fuel with
  | zero =>
    constructor
    · intro depth s v rest h
      cases h
    · intro depth first done s members rest h
      cases h
  | succ fuel ih =>
    obtain ⟨ihv, ihm⟩ := ih
    constructor
    · intro depth s v rest h
      rw [readValue] at h
      split at h
      · cases h
      -- names of values and strings, then numbers, lists and objects
      · exact (Read.leaf_map (fun _ => by exact trivial) _).ascending h
      · exact (Read.leaf_map (fun _ => by exact trivial) _).ascending h
      · exact (Read.leaf_map (fun _ => by exact trivial) _).ascending h
      · exact (Read.leaf_map (fun _ => by exact trivial) _).ascending h
      · exact (leaf_readNumber true _).ascending h
      · split at h
        · cases h
        · exact (Read.leaf_map (fun _ => by exact trivial) _).ascending h
      · split at h
        · cases h
        · cases hm : readMembers fuel (depth - 1) true [] _ with
          | error e =>
            rw [hm] at h
            cases h
          | ok r =>
            rw [hm] at h
            cases h
            exact ihm _ _ _ _ _ _ hm (.object .nil nofun)
      · split at h
        · exact (leaf_readNumber false _).ascending h
        · cases h
    · intro depth first done s members rest h hd
      rw [readMembers] at h
      split at h
      · cases h
      · cases h
        exact hd
      · split at h
        · cases h
        · split at h
          · cases h
          · next hv => exact ihm _ _ _ _ _ _ h (ascending_insertMember hd (ihv _ _ _ _ hv) _)

/-- A document ascends. -/
theorem ascending_of_parse {text : String} {v : Json} (h : parse text = .ok v) : v.Ascending := by
  rw [parse] at h
  dsimp only at h
  cases hv : readValue (fuelFor text.toList) maxDepth text.toList with
  | error e =>
    rw [hv] at h
    cases h
  | ok r =>
    obtain ⟨w, rest⟩ := r
    rw [hv] at h
    change Except.mapError _ ((readEnd rest).map fun _ => w) = _ at h
    cases he : readEnd rest with
    | error e =>
      rw [he] at h
      cases h
    | ok _ =>
      rw [he] at h
      cases h
      exact (ascending_read _).1 _ _ _ _ hv

end Phrasebook.Json
