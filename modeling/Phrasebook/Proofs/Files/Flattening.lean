import Mathlib.Data.Set.Card
import Phrasebook.Files.Bundle
import Phrasebook.Proofs.Catalog.Texts
import Phrasebook.Proofs.Json.Members

/-!
# Phrasebook.Proofs.Files.Flattening

What the bundle of a JSON text has.

The leaves of an object are the values that are no objects, at paths of names through nested
objects.  They are inserted one after the other, in the order of their paths, each under the
names of its path with dots between them (`Json.entriesOf_eq_ofList`).  So a key that several
leaves have ends up with the one of the greatest path, and there are as many entries as
keys (`Json.Flattens`).

Leaves share a key only where names have dots in them, as `a.b` does beside a `b` in `a`: names
without dots are read off the key again (`Json.joined_injective`).
-/

namespace Phrasebook

/-! ## entries of which the later wins -/

namespace Entries

theorem getElem?_ofList_concat (es : List (String × String)) (e : String × String) (key : String) :
    (ofList (es ++ [e]))[key]? = if e.1 = key then some e.2 else (ofList es)[key]? := by
  rw [ofList, List.foldl_append]
  simp only [List.foldl_cons, List.foldl_nil, Std.TreeMap.getElem?_insert,
    Std.LawfulEqCmp.compare_eq_iff_eq]
  rfl

theorem mem_ofList_iff (es : List (String × String)) (key : String) :
    key ∈ ofList es ↔ ∃ e ∈ es, e.1 = key := by
  induction es using List.reverseRecOn with
  | nil => simp [ofList]
  | append_singleton es e ih =>
    rw [Std.TreeMap.mem_iff_isSome_getElem?, getElem?_ofList_concat]
    simp only [List.mem_append, List.mem_singleton, or_and_right, exists_or, exists_eq_left, ← ih,
      Std.TreeMap.mem_iff_isSome_getElem?]
    by_cases hk : e.1 = key <;> simp [hk]

end Entries

namespace Json

/-! ## leaves -/

/-- The value at the end of a path of names through nested objects. -/
def at? : Json → List String → Option Json
  | v, [] => some v
  | .object members, name :: path => (members.lookup name).bind fun v => v.at? path
  | _, _ :: _ => none

/-- There is a value at the end of a path that is no object. -/
def LeafAt (v : Json) (path : List String) (w : Json) : Prop := v.at? path = some w ∧ w.IsLeaf

mutual

/-- The leaves of a value with their paths, in the order of the members. -/
def leaves : Json → List (List String × Json)
  | .object members => leavesOf members
  | v => [([], v)]

/-- The leaves of the members of an object. -/
def leavesOf : List (String × Json) → List (List String × Json)
  | [] => []
  | (name, v) :: rest => (v.leaves.map fun x => (name :: x.1, x.2)) ++ leavesOf rest

end

theorem leavesOf_eq_flatMap (members : List (String × Json)) :
    leavesOf members =
      members.flatMap fun m => m.2.leaves.map fun x => (m.1 :: x.1, x.2) := by
  induction members with
  | nil => rfl
  | cons m rest ih => rw [leavesOf, ih, List.flatMap_cons]

theorem leaves_of_isLeaf {v : Json} (h : v.IsLeaf) : v.leaves = [([], v)] := by
  cases v with
  | object members => exact h.elim
  | _ => rfl

theorem leafAt_of_isLeaf {v : Json} (h : v.IsLeaf) (path : List String) (w : Json) :
    v.LeafAt path w ↔ path = [] ∧ w = v := by
  cases path with
  | nil =>
    rw [LeafAt, at?, Option.some.injEq]
    constructor
    · rintro ⟨rfl, -⟩
      exact ⟨rfl, rfl⟩
    · rintro ⟨-, rfl⟩
      exact ⟨rfl, h⟩
  | cons name path =>
    refine iff_of_false (fun hl => ?_) (fun hl => nomatch hl.1)
    cases v with
    | object members => exact h
    | _ => cases hl.1

/-- Members of different names are found by their names. -/
theorem lookup_eq_some_iff {members : List (String × Json)}
    (h : members.Pairwise fun x y => x.1 < y.1) (name : String) (v : Json) :
    members.lookup name = some v ↔ (name, v) ∈ members := by
  induction members with
  | nil => simp
  | cons m rest ih =>
    obtain ⟨n, w⟩ := m
    obtain ⟨hn, hrest⟩ := List.pairwise_cons.1 h
    rw [List.lookup_cons, List.mem_cons, Prod.mk.injEq]
    by_cases hname : name = n
    · subst hname
      have hm : (name, v) ∉ rest := fun hm => String.lt_irrefl name (hn _ hm)
      simp [hm, eq_comm]
    · rw [beq_false_of_ne hname, ih hrest]
      simp [hname]

theorem leafAt_object_cons {members : List (String × Json)}
    (h : members.Pairwise fun x y => x.1 < y.1) (name : String) (path : List String) (w : Json) :
    (object members).LeafAt (name :: path) w ↔ ∃ v, (name, v) ∈ members ∧ v.LeafAt path w := by
  simp only [LeafAt, at?, Option.bind_eq_some_iff, lookup_eq_some_iff h, ← exists_and_right,
    and_assoc]

/-- The leaves are the values that are found at paths and are no objects. -/
theorem mem_leaves_iff {v : Json} (h : v.Ascending) (path : List String) (w : Json) :
    (path, w) ∈ v.leaves ↔ v.LeafAt path w := by
  induction h generalizing path w with
  | leaf hv =>
    rw [leaves_of_isLeaf hv, leafAt_of_isLeaf hv, List.mem_singleton, Prod.mk.injEq]
  | @object members names each ih =>
    rw [leaves, leavesOf_eq_flatMap, List.mem_flatMap]
    cases path with
    | nil =>
      refine iff_of_false ?_ ?_
      · rintro ⟨m, -, hm⟩
        obtain ⟨_, -, hx⟩ := List.mem_map.1 hm
        cases hx
      · rintro ⟨⟨⟩, hw⟩
        exact hw
    | cons name path =>
      rw [leafAt_object_cons names]
      constructor
      · rintro ⟨⟨n, u⟩, hm, hx⟩
        obtain ⟨⟨q, w'⟩, hq, hx⟩ := List.mem_map.1 hx
        cases hx
        exact ⟨u, hm, (ih _ hm _ _).1 hq⟩
      · rintro ⟨u, hm, hl⟩
        exact ⟨(name, u), hm, List.mem_map.2 ⟨(path, w), (ih _ hm _ _).2 hl, rfl⟩⟩

/-- The order of paths: that of the first names in which they differ. -/
def Precedes (path path' : List String) : Prop := List.Lex (· < ·) path path'

theorem Precedes.asymm {path path' : List String} (h : Precedes path path') :
    ¬ Precedes path' path := by
  induction h with
  | nil => exact nofun
  | cons _ ih =>
    intro h
    cases h with
    | rel hlt => exact String.lt_irrefl _ hlt
    | cons h => exact ih h
  | rel hlt =>
    intro h
    cases h with
    | rel hgt => exact String.lt_asymm hlt hgt
    | cons _ => exact String.lt_irrefl _ hlt

/-- The paths of the leaves ascend. -/
theorem pairwise_leaves {v : Json} (h : v.Ascending) :
    v.leaves.Pairwise fun x y => Precedes x.1 y.1 := by
  induction h with
  | leaf hv =>
    rw [leaves_of_isLeaf hv]
    exact List.pairwise_singleton _ _
  | @object members names each ih =>
    rw [leaves, leavesOf_eq_flatMap, List.pairwise_flatMap]
    constructor
    · intro m hm
      exact List.pairwise_map.2 ((ih m hm).imp fun hlt => List.Lex.cons hlt)
    · refine names.imp fun hlt x hx y hy => ?_
      obtain ⟨_, -, rfl⟩ := List.mem_map.1 hx
      obtain ⟨_, -, rfl⟩ := List.mem_map.1 hy
      exact List.Lex.rel hlt

/-! ## keys -/

/-- The names of a path with dots between them. -/
def joined (path : List String) : String := ".".intercalate path

theorem joined_under (outer name : String) (path : List String) :
    joined ((outer ++ "." ++ name) :: path) = joined (outer :: name :: path) := rfl

/-- The entry of a leaf. -/
def entryOf (x : List String × Json) : String × String := (joined x.1, x.2.entryText)

theorem flattenMembers_eq_foldl (outer : String) (entries : Entries)
    (members : List (String × Json)) :
    flattenMembers outer entries members =
      members.foldl (fun es m => m.2.flatten (keyUnder outer m.1) es) entries := by
  induction members generalizing entries with
  | nil => rfl
  | cons m rest ih => rw [flattenMembers, ih, List.foldl_cons]

theorem flatten_of_isLeaf {v : Json} (h : v.IsLeaf) (key : String) (entries : Entries) :
    v.flatten key entries = entries.insert key v.entryText := by
  cases v with
  | object members => exact h.elim
  | _ => rfl

/-- Flattening members one by one inserts all their leaves. -/
theorem flattenMembers_eq_of_step {outer : String} {members : List (String × Json)}
    (names : List String) (entries : Entries)
    (hstep : ∀ es, ∀ m ∈ members, m.2.flatten (keyUnder outer m.1) es =
      (m.2.leaves.map fun x => entryOf (names ++ m.1 :: x.1, x.2)).foldl
        (fun es e => es.insert e.1 e.2) es) :
    flattenMembers outer entries members =
      ((object members).leaves.map fun x => entryOf (names ++ x.1, x.2)).foldl
        (fun es e => es.insert e.1 e.2) entries := by
  rw [flattenMembers_eq_foldl, leaves, leavesOf_eq_flatMap, List.map_flatMap, List.foldl_flatMap,
    List.foldl_ext _ _ _ hstep]
  simp only [List.map_map, Function.comp_def]

/-- Flattening a value of a key inserts its leaves one after the other, under the key and the
names of their paths. -/
theorem flatten_eq_foldl {v : Json} (h : v.Ascending) {key : String} (hk : key ≠ "")
    (entries : Entries) :
    v.flatten key entries =
      (v.leaves.map fun x => entryOf (key :: x.1, x.2)).foldl (fun es e => es.insert e.1 e.2)
        entries := by
  induction h generalizing key entries with
  | leaf hv =>
    rw [flatten_of_isLeaf hv, leaves_of_isLeaf hv]
    rfl
  | @object members names each ih =>
    refine flattenMembers_eq_of_step [key] entries fun es m hm => ?_
    have hne : key ++ "." ++ m.1 ≠ "" := by simp
    rw [keyUnder, if_neg hk, ih m hm hne]
    simp only [entryOf, joined_under, List.singleton_append]

/-- The objects among the members of an object have names that are not empty. -/
def Named : Json → Prop
  | .object members => ∀ m ∈ members, m.1 = "" → m.2.IsLeaf
  | _ => True

instance : DecidablePred Named
  | .object members => inferInstanceAs (Decidable (∀ m ∈ members, m.1 = "" → m.2.IsLeaf))
  | .null | .bool _ | .integer _ | .float _ | .string _ | .array _ => isTrue trivial

/-- The entries of an object are those of its leaves. -/
theorem entriesOf_eq_ofList {members : List (String × Json)} (h : (object members).Ascending)
    (hn : (object members).Named) :
    entriesOf members = .ofList ((object members).leaves.map entryOf) := by
  refine flattenMembers_eq_of_step [] ∅ ?_
  rintro es ⟨name, v⟩ hm
  have hv : v.Ascending := by
    cases h with
    | object _ each => exact each _ hm
    | leaf h => exact h.elim
  by_cases hname : name = ""
  · -- the member is a leaf and keeps the empty key
    subst hname
    have hl : v.IsLeaf := hn _ hm rfl
    rw [flatten_of_isLeaf hl, leaves_of_isLeaf hl]
    rfl
  · exact flatten_eq_foldl hv hname es

/-! ## leaves that share their key -/

/-- Of the leaves with one key, the one of the greatest path stays. -/
theorem getElem?_ofList_map_entryOf {xs : List (List String × Json)}
    (h : xs.Pairwise fun x y => Precedes x.1 y.1) (key text : String) :
    (Entries.ofList (xs.map entryOf))[key]? = some text ↔
      ∃ x ∈ xs, joined x.1 = key ∧ x.2.entryText = text ∧
        ∀ y ∈ xs, joined y.1 = key → y.1 = x.1 ∨ Precedes y.1 x.1 := by
  induction xs using List.reverseRecOn with
  | nil => simp [Entries.ofList]
  | append_singleton xs x ih =>
    obtain ⟨hxs, -, hlast⟩ := List.pairwise_append.1 h
    rw [List.map_append, List.map_singleton, Entries.getElem?_ofList_concat, entryOf]
    by_cases hk : joined x.1 = key
    · rw [if_pos hk, Option.some.injEq]
      constructor
      · intro ht
        refine ⟨x, by simp, hk, ht, fun y hy _ => ?_⟩
        rcases List.mem_append.1 hy with hy | hy
        · exact .inr (hlast y hy x (by simp))
        · exact .inl (congrArg Prod.fst (List.mem_singleton.1 hy))
      · rintro ⟨y, hy, -, ht, hmax⟩
        rcases List.mem_append.1 hy with hy | hy
        · have hyx := hlast y hy x (by simp)
          rcases hmax x (by simp) hk with he | hxy
          · exact absurd (he ▸ hyx) (he ▸ hyx).asymm
          · exact absurd hxy hyx.asymm
        · obtain rfl := List.mem_singleton.1 hy
          exact ht
    · rw [if_neg hk, ih hxs]
      constructor
      · rintro ⟨y, hy, hyk, ht, hmax⟩
        refine ⟨y, List.mem_append_left _ hy, hyk, ht, fun z hz hzk => ?_⟩
        rcases List.mem_append.1 hz with hz | hz
        · exact hmax z hz hzk
        · obtain rfl := List.mem_singleton.1 hz
          exact absurd hzk hk
      · rintro ⟨y, hy, hyk, ht, hmax⟩
        rcases List.mem_append.1 hy with hy | hy
        · exact ⟨y, hy, hyk, ht, fun z hz => hmax z (List.mem_append_left _ hz)⟩
        · obtain rfl := List.mem_singleton.1 hy
          exact absurd hyk hk

/-- The paths at which a value has leaves. -/
def leafPaths (v : Json) : Set (List String) := {path | ∃ w, v.LeafAt path w}

theorem coe_toFinset_leaves {v : Json} (h : v.Ascending) :
    ((v.leaves.map Prod.fst).toFinset : Set (List String)) = v.leafPaths := by
  ext path
  rw [List.coe_toFinset, Set.mem_ofPred_eq, List.mem_map]
  constructor
  · rintro ⟨⟨_, w⟩, hx, rfl⟩
    exact ⟨w, (mem_leaves_iff h _ _).1 hx⟩
  · rintro ⟨w, hl⟩
    exact ⟨(path, w), (mem_leaves_iff h _ _).2 hl, rfl⟩

/-- There are as many entries as keys of leaves. -/
theorem size_ofList_map_entryOf (xs : List (List String × Json)) :
    (Entries.ofList (xs.map entryOf)).size = ((xs.map Prod.fst).toFinset.image joined).card := by
  have hk : (Entries.ofList (xs.map entryOf)).keys.toFinset =
      (xs.map Prod.fst).toFinset.image joined := by
    ext key
    simp [Std.TreeMap.mem_keys, Entries.mem_ofList_iff, entryOf]
  rw [← hk, List.toFinset_card_of_nodup Std.TreeMap.nodup_keys, Std.TreeMap.length_keys]

/-- Names without dots are read off the key. -/
theorem splitOn_joined {path : List String} (hp : path ≠ [])
    (h : ∀ name ∈ path, '.' ∉ name.toList) :
    Text.splitOn '.' (joined path).toList = path.map String.toList := by
  have hd : ".".toList = ['.'] := by decide
  rw [joined, String.toList_intercalate, hd]
  refine Text.splitOn_intercalate (by simpa using hp) fun p hm => ?_
  obtain ⟨name, hname, rfl⟩ := List.mem_map.1 hm
  exact h name hname

theorem joined_injective {path path' : List String} (hp : path ≠ []) (hp' : path' ≠ [])
    (h : ∀ name ∈ path, '.' ∉ name.toList) (h' : ∀ name ∈ path', '.' ∉ name.toList)
    (he : joined path = joined path') : path = path' := by
  have hm : path.map String.toList = path'.map String.toList := by
    rw [← splitOn_joined hp h, he, splitOn_joined hp' h']
  exact List.map_injective_iff.2 (fun _ _ h => String.toList_injective h) hm

/-! ## bundles -/

/-- Entries are those of the leaves of a value. -/
structure Flattens (v : Json) (x : Entries) : Prop where
  /-- An entry is that of a leaf; of leaves with one key, that of the greatest path. -/
  getElem?_iff (key text : String) : x[key]? = some text ↔
    ∃ path w, v.LeafAt path w ∧ joined path = key ∧ w.entryText = text ∧
      ∀ path' ∈ v.leafPaths, joined path' = key → path' = path ∨ Precedes path' path
  /-- Every leaf has its key, and there is no other. -/
  mem_iff (key : String) : key ∈ x ↔ key ∈ joined '' v.leafPaths
  getElem?_of_unique {path : List String} {w : Json} (hl : v.LeafAt path w)
    (hu : ∀ path' ∈ v.leafPaths, joined path' = joined path → path' = path) :
    x[joined path]? = some w.entryText
  finite : v.leafPaths.Finite
  size_eq : x.size = (joined '' v.leafPaths).ncard
  /-- There is one entry for each leaf exactly if no two leaves have one key. -/
  size_eq_iff : x.size = v.leafPaths.ncard ↔ Set.InjOn joined v.leafPaths
  injOn_of_no_dot (h : ∀ path ∈ v.leafPaths, ∀ name ∈ path, '.' ∉ name.toList) :
    Set.InjOn joined v.leafPaths

/-- The entries of an object are those of its leaves. -/
theorem flattens_entriesOf {members : List (String × Json)} (h : (object members).Ascending)
    (hn : (object members).Named) : (object members).Flattens (entriesOf members) := by
  have hx := entriesOf_eq_ofList h hn
  have hfin : (object members).leafPaths.Finite := by
    rw [← coe_toFinset_leaves h]
    exact Finset.finite_toSet _
  have hiff : ∀ key text, (entriesOf members)[key]? = some text ↔
      ∃ path w, (object members).LeafAt path w ∧ joined path = key ∧ w.entryText = text ∧
        ∀ path' ∈ (object members).leafPaths, joined path' = key →
          path' = path ∨ Precedes path' path := by
    intro key text
    rw [hx, getElem?_ofList_map_entryOf (pairwise_leaves h)]
    simp only [Prod.exists, Prod.forall, mem_leaves_iff h, leafPaths, Set.mem_ofPred_eq,
      forall_exists_index]
  have hsize : (entriesOf members).size = (joined '' (object members).leafPaths).ncard := by
    rw [hx, size_ofList_map_entryOf, ← coe_toFinset_leaves h, ← Finset.coe_image,
      Set.ncard_coe_finset]
  constructor
  case getElem?_iff => exact hiff
  case mem_iff =>
    intro key
    rw [hx, Entries.mem_ofList_iff, ← coe_toFinset_leaves h]
    simp [entryOf]
  case getElem?_of_unique =>
    intro path w hl hu
    exact (hiff _ _).2 ⟨path, w, hl, rfl, rfl, fun path' hp' he => .inl (hu path' hp' he)⟩
  case finite => exact hfin
  case size_eq => exact hsize
  case size_eq_iff => rw [hsize, Set.ncard_image_iff hfin]
  case injOn_of_no_dot =>
    have hne : ∀ path ∈ (object members).leafPaths, path ≠ [] := by
      rintro _ ⟨w, hl⟩ rfl
      obtain ⟨rfl⟩ := hl.1
      exact hl.2
    exact fun hdot path hp path' hp' he =>
      joined_injective (hne _ hp) (hne _ hp') (hdot _ hp) (hdot _ hp') he

end Json

namespace BundleSource

/-- The bundle of a JSON text has the leaves of its object.  The key of a leaf is made of the
names on its path, with dots between them; of leaves with one key, the one of the greatest path
stays.  No leaf is lost exactly if no two have one key, as is the case if there are no dots
in the names. -/
theorem flattens_of_decode {l : Locale} {path text : String} {b : BundleSource} {v : Json}
    (h : decode l path text = .ok b) (hv : Json.parse text = .ok v) (hn : v.Named) :
    b.locale = l ∧ v.Flattens b.entries := by
  rw [decode, hv] at h
  cases v with
  | object members =>
    cases h
    exact ⟨rfl, Json.flattens_entriesOf (Json.ascending_of_parse hv) hn⟩
  | _ => cases h

theorem exists_eq_ok_of_map_toOption {ε α β : Type} {x : Except ε α} {f : α → β} {y : β}
    (h : x.toOption.map f = some y) : ∃ a, x = .ok a ∧ f a = y := by
  cases x with
  | error e => cases h
  | ok a => exact ⟨a, rfl, Option.some.inj h⟩

/-- Names in names, a list and null. -/
def nestedNames : String :=
  "\x7b\"menu\":\x7b\"open\":\"Open\",\"recent\":[\"One\",\"Two\"]\x7d,\"title\":null\x7d"

theorem flattens_of_decode_nestedNames :
    ∃ b v, decode .english "en.json" nestedNames = .ok b ∧ Json.parse nestedNames = .ok v ∧
      v.Named ∧ b.entries.size = v.leafPaths.ncard := by
  have hd : (decode .english "en.json" nestedNames).toOption.map (fun b => b.entries.size) =
      some 3 := by
    decide +kernel
  have hp : (Json.parse nestedNames).toOption.map
      (fun v => (decide v.Named, v.leaves.map Prod.fst)) =
        some (true, [["menu", "open"], ["menu", "recent"], ["title"]]) := by
    decide +kernel
  obtain ⟨b, hb, -⟩ := exists_eq_ok_of_map_toOption hd
  obtain ⟨v, hv, hvl⟩ := exists_eq_ok_of_map_toOption hp
  obtain ⟨hn, hl⟩ := Prod.mk.inj hvl
  obtain ⟨-, hf⟩ := flattens_of_decode hb hv (of_decide_eq_true hn)
  refine ⟨b, v, hb, hv, of_decide_eq_true hn, hf.size_eq_iff.2 (hf.injOn_of_no_dot ?_)⟩
  rw [← Json.coe_toFinset_leaves (Json.ascending_of_parse hv), hl]
  simp

/-- A name with a dot in it, and names that are joined to it. -/
def dottedName : String := "\x7b\"a\":\x7b\"b\":\"y\"\x7d,\"a.b\":\"x\"\x7d"

/-- A leaf is lost where another has its key. -/
theorem decode_dottedName :
    ∃ b v w, decode .english "en.json" dottedName = .ok b ∧ Json.parse dottedName = .ok v ∧
      v.LeafAt ["a", "b"] w ∧ w.entryText = "y" ∧
      b.entries[Json.joined ["a", "b"]]? = some "x" ∧
      b.entries.size = 1 ∧ v.leafPaths.ncard = 2 := by
  have hd : (decode .english "en.json" dottedName).toOption.map
      (fun b => (b.entries[Json.joined ["a", "b"]]?, b.entries.size)) = some (some "x", 1) := by
    decide +kernel
  have hp : (Json.parse dottedName).toOption.map
      (fun v => v.leaves.map fun x => (x.1, x.2.entryText)) =
        some [(["a", "b"], "y"), (["a.b"], "x")] := by
    decide +kernel
  obtain ⟨b, hb, hbx⟩ := exists_eq_ok_of_map_toOption hd
  obtain ⟨v, hv, hl⟩ := exists_eq_ok_of_map_toOption hp
  obtain ⟨hx, hs⟩ := Prod.mk.inj hbx
  have ha := Json.ascending_of_parse hv
  have hm : (["a", "b"], "y") ∈ v.leaves.map fun x => (x.1, x.2.entryText) := by
    simp [hl]
  obtain ⟨⟨_, w⟩, hm, he⟩ := List.mem_map.1 hm
  obtain ⟨rfl, hw⟩ := Prod.mk.inj he
  have hpaths : v.leaves.map Prod.fst = [["a", "b"], ["a.b"]] := by
    simpa [Function.comp_def] using congrArg (List.map Prod.fst) hl
  refine ⟨b, v, w, hb, hv, (Json.mem_leaves_iff ha _ _).1 hm, hw, hx, hs, ?_⟩
  rw [← Json.coe_toFinset_leaves ha, hpaths, Set.ncard_coe_finset]
  decide

end BundleSource

end Phrasebook
