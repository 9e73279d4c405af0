import Mathlib.Data.Finset.Card
import Mathlib.Data.Finset.Dedup
import Mathlib.Data.List.Basic
import Mathlib.Data.List.Forall2
import Mathlib.Data.List.Pairwise
import TestTriage.FailureIndex

/-!
# Grouping by a key

A table of groups that is filled element by element: `slots` holds a
group for every key, in the order the keys came in, and `positions`
says where the group of a key is. The failure index and the merge of
resolved slots are both filled so. What they hold in the end is said
here without the table: a group for each of the `firsts`, made from
all the elements with the key of that first one (`Grouped`).

An element may have no key. It is alike to no element, not even to
itself, and makes a slot of its own.
-/

namespace TestTriage

namespace Grouping

variable {α β κ : Type} [BEq κ] (key : α → Option κ)

/-! ## First elements of their kind -/

/-- Do two elements have the same key? -/
def alike (x y : α) : Bool := (key x).isSome && key x == key y

/-- The elements that are not alike to an earlier one. -/
def firsts : List α → List α
  | [] => []
  | x :: xs => x :: (firsts xs).filter (!alike key x ·)

variable {key}

theorem alike_of_key {x y : α} {k : κ} (hy : key y = some k) :
    alike key x y = (key x == some k) := by
  cases hx : key x with
  | none => simp [alike, hx]
  | some k' => simp [alike, hx, hy]

theorem mem_of_mem_firsts {x : α} {xs : List α} (h : x ∈ firsts key xs) : x ∈ xs := by
  induction xs with
  | nil => exact h
  | cons y ys ih =>
      rcases List.mem_cons.mp h with rfl | h
      · exact List.mem_cons_self ..
      · exact List.mem_cons_of_mem _ (ih (List.mem_filter.mp h).1)

theorem firsts_pairwise (xs : List α) :
    (firsts key xs).Pairwise fun x y => alike key x y = false := by
  induction xs with
  | nil => exact .nil
  | cons x xs ih =>
      refine List.pairwise_cons.mpr ⟨fun y hy => ?_, ih.sublist List.filter_sublist⟩
      simpa using (List.mem_filter.mp hy).2

theorem firsts_eq_nil {xs : List α} : firsts key xs = [] ↔ xs = [] := by
  cases xs <;> simp [firsts]

theorem firsts_append_singleton (xs : List α) (y : α) :
    firsts key (xs ++ [y])
      = firsts key xs ++ if xs.any (alike key · y) then [] else [y] := by
  induction xs with
  | nil => simp [firsts]
  | cons x xs ih =>
      rw [List.cons_append, firsts, ih, List.filter_append, firsts, List.any_cons]
      by_cases hx : alike key x y
      · simp only [hx, Bool.true_or, if_true, List.append_nil]
        split <;> simp [hx]
      · simp only [hx, Bool.false_or]
        split <;> simp [hx]

/-- First elements may be picked out before or after the later ones are
dropped, if elements of one key are picked out together. -/
theorem filter_firsts {p : α → Bool} (hp : ∀ x y, alike key x y = true → p x = p y)
    (xs : List α) : (firsts key xs).filter p = firsts key (xs.filter p) := by
  induction xs with
  | nil => rfl
  | cons x xs ih =>
      rw [firsts, List.filter_cons, List.filter_cons, List.filter_filter]
      by_cases hx : p x
      · rw [if_pos hx, if_pos hx, firsts, ← ih, List.filter_filter]
        simp only [Bool.and_comm]
      · rw [if_neg hx, if_neg hx, ← ih]
        refine List.filter_congr fun y _ => ?_
        by_cases hy : alike key x y
        · simp [← hp x y hy, hx]
        · simp [hy]

theorem firsts_of_pairwise {xs : List α} (h : xs.Pairwise fun x y => alike key x y = false) :
    firsts key xs = xs := by
  induction xs with
  | nil => rfl
  | cons x xs ih =>
      obtain ⟨hx, hxs⟩ := List.pairwise_cons.mp h
      rw [firsts, ih hxs, List.filter_eq_self.mpr fun y hy => by rw [hx y hy]; rfl]

/-! ## Keys as an equivalence -/

section Lawful

variable [LawfulBEq κ]

theorem alike_iff {x y : α} :
    alike key x y = true ↔ ∃ k, key x = some k ∧ key y = some k := by
  cases hx : key x with
  | none => simp [alike, hx]
  | some k => simpa [alike, hx] using eq_comm

theorem alike_of_keyless {x y : α} (hy : key y = none) : alike key x y = false := by
  cases hx : key x <;> simp [alike, hx, hy]

theorem alike_comm (x y : α) : alike key x y = alike key y x := by
  rw [Bool.eq_iff_iff, alike_iff, alike_iff]
  exact exists_congr fun k => and_comm

/-- Elements of one key are alike to the same elements. -/
theorem alike_congr {x y : α} (h : alike key x y = true) (z : α) :
    alike key x z = alike key y z := by
  obtain ⟨k, hx, hy⟩ := alike_iff.mp h
  rw [alike, alike, hx, hy]

/-- Whether a key occurs can be asked of the first elements alone. -/
theorem any_firsts (k : κ) (xs : List α) :
    (firsts key xs).any (key · == some k) = xs.any (key · == some k) := by
  induction xs with
  | nil => rfl
  | cons x xs ih =>
      rw [firsts, List.any_cons, List.any_cons, List.any_filter, ← ih]
      by_cases hx : key x = some k
      · simp [hx]
      · congr 2
        funext y
        by_cases hy : key y = some k
        · simp [alike_of_key hy, hx]
        · simp [hy]

/-- There is one first element of a key. -/
theorem eq_of_alike_firsts {x y : α} {xs : List α} (hx : x ∈ firsts key xs)
    (hy : y ∈ firsts key xs) (h : alike key x y = true) : x = y := by
  have : Std.Symm fun x y => alike key x y = false :=
    ⟨fun x y hxy => (alike_comm y x).trans hxy⟩
  by_contra hne
  exact Bool.noConfusion (h.symm.trans ((firsts_pairwise xs).forall hx hy hne))

theorem mem_firsts_of_keyless {x : α} (hk : key x = none) {xs : List α} (h : x ∈ xs) :
    x ∈ firsts key xs := by
  induction xs with
  | nil => exact h
  | cons y ys ih =>
      rcases List.mem_cons.mp h with rfl | h
      · exact List.mem_cons_self ..
      · exact List.mem_cons_of_mem _
          (List.mem_filter.mpr ⟨ih h, by simp [alike_of_keyless hk]⟩)

/-- The first element of a key is the one that a search for the key finds. -/
theorem find?_of_mem_firsts {x : α} {k : κ} (hk : key x = some k) {xs : List α}
    (h : x ∈ firsts key xs) : xs.find? (key · == some k) = some x := by
  induction xs with
  | nil => cases h
  | cons y ys ih =>
      rcases List.mem_cons.mp h with rfl | h
      · rw [List.find?_cons_of_pos (by simp [hk])]
      · obtain ⟨h, hdiffer⟩ := List.mem_filter.mp h
        rw [Bool.not_eq_true', alike_of_key hk] at hdiffer
        rw [List.find?_cons_of_neg (by simp [hdiffer]), ih h]

/-- Where all keys differ, each group is one element. -/
theorem filter_alike_of_pairwise {x : α} {k : κ} (hk : key x = some k) {xs : List α}
    (h : xs.Pairwise fun x y => alike key x y = false) (hx : x ∈ xs) :
    xs.filter (alike key x) = [x] := by
  induction xs with
  | nil => cases hx
  | cons y ys ih =>
      obtain ⟨hy, hys⟩ := List.pairwise_cons.mp h
      rcases List.mem_cons.mp hx with rfl | hx
      · have hself : alike key x x = true := alike_iff.mpr ⟨k, hk, hk⟩
        rw [List.filter_cons_of_pos hself, List.filter_eq_nil_iff.mpr fun z hz => by simp [hy z hz]]
      · have hxy : alike key x y = false := (alike_comm x y).trans (hy x hx)
        rw [List.filter_cons_of_neg (by simp [hxy]), ih hys hx]

theorem firsts_cons (x : α) (xs : List α) :
    firsts key (x :: xs) = x :: firsts key (xs.filter (!alike key x ·)) := by
  rw [firsts, filter_firsts]
  intro y z hyz
  rw [alike_comm x y, alike_comm x z, alike_congr hyz]

/-! ## Nothing is lost or doubled -/

/-- The group of a later kind does not change when the first kind leaves. -/
theorem filter_alike_of_not_alike {x y : α} (hxy : alike key x y = false) (xs : List α) :
    (x :: xs).filter (alike key y) = (xs.filter (!alike key x ·)).filter (alike key y) := by
  have hyx : alike key y x = false := (alike_comm y x).trans hxy
  rw [List.filter_cons_of_neg (by simp [hyx]), List.filter_filter]
  refine List.filter_congr fun z _ => ?_
  cases hyz : alike key y z with
  | false => rfl
  | true => rw [alike_comm x z, ← alike_congr hyz, hyx]; rfl

variable (key) in
/-- The groups hold the elements that have keys, each of them once. -/
theorem flatMap_firsts_perm (xs : List α) :
    ((firsts key xs).flatMap fun x => xs.filter (alike key x)).Perm
      (xs.filter fun x => (key x).isSome) := by
  -- the elements alike to the first one leave the list before the induction goes on
  induction hn : xs.length using Nat.strongRecOn generalizing xs with
  | ind n ih =>
      cases xs with
      | nil => exact .nil
      | cons x xs =>
          have hless : (xs.filter (!alike key x ·)).length < n := by
            have hle := List.length_filter_le (!alike key x ·) xs
            rw [List.length_cons] at hn
            exact Nat.lt_of_le_of_lt hle (by omega)
          have hothers : ∀ y ∈ firsts key (xs.filter (!alike key x ·)),
              (x :: xs).filter (alike key y)
                = (xs.filter (!alike key x ·)).filter (alike key y) := fun y hy =>
            filter_alike_of_not_alike
              (by simpa using (List.mem_filter.mp (mem_of_mem_firsts hy)).2) xs
          have hkeyed : ((x :: xs).filter fun y => (key y).isSome).filter (!alike key x ·)
              = (xs.filter (!alike key x ·)).filter fun y => (key y).isSome := by
            cases hx : key x <;> simp [alike, hx, List.filter_filter, Bool.and_comm]
          have hgroup : ((x :: xs).filter fun y => (key y).isSome).filter (alike key x)
              = (x :: xs).filter (alike key x) := by
            rw [List.filter_filter]
            refine List.filter_congr fun y _ => ?_
            cases hxy : alike key x y with
            | false => rfl
            | true => obtain ⟨k, -, hy⟩ := alike_iff.mp hxy; simp [hy]
          rw [firsts_cons, List.flatMap_cons, List.flatMap_congr hothers]
          refine ((ih _ hless _ rfl).append_left _).trans ?_
          rw [← hkeyed, ← hgroup]
          exact List.filter_append_perm _ _

variable (key) in
/-- So do the groups of some of the keys. -/
theorem flatMap_filter_firsts_perm {p : α → Bool}
    (hp : ∀ x y, alike key x y = true → p x = p y) (xs : List α) :
    (((firsts key xs).filter p).flatMap fun x => xs.filter (alike key x)).Perm
      (xs.filter fun x => (key x).isSome && p x) := by
  have hgroup : ∀ x ∈ firsts key (xs.filter p),
      xs.filter (alike key x) = (xs.filter p).filter (alike key x) := by
    intro x hx
    have hpx : p x = true := (List.mem_filter.mp (mem_of_mem_firsts hx)).2
    rw [List.filter_filter]
    refine List.filter_congr fun y _ => ?_
    cases hxy : alike key x y with
    | false => rfl
    | true => rw [← hp x y hxy, hpx]; rfl
  rw [filter_firsts hp, List.flatMap_congr hgroup, ← List.filter_filter]
  exact flatMap_firsts_perm key _

/-! ## Where the first elements stand -/

variable (key) in
/-- The places of the elements that are not alike to an earlier one. -/
def firstPlaces (xs : List α) : List Nat :=
  (List.range xs.length).filter fun i => xs[i]?.any fun x => !(xs.take i).any (alike key · x)

omit [LawfulBEq κ] in
theorem pairwise_firstPlaces (xs : List α) : (firstPlaces key xs).Pairwise (· < ·) :=
  List.pairwise_lt_range.sublist List.filter_sublist

omit [LawfulBEq κ] in
theorem mem_firstPlaces {xs : List α} {i : Nat} :
    i ∈ firstPlaces key xs
      ↔ ∃ x, xs[i]? = some x ∧ ∀ j < i, ∀ y, xs[j]? = some y → alike key y x = false := by
  rw [firstPlaces, List.mem_filter, List.mem_range, Option.any_eq_true]
  constructor
  · rintro ⟨-, x, hx, hnone⟩
    refine ⟨x, hx, fun j hj y hy => ?_⟩
    have hmem : y ∈ xs.take i :=
      List.mem_of_getElem? ((List.getElem?_take_of_lt hj).trans hy)
    simpa using List.any_eq_false.mp (by simpa using hnone) y hmem
  · rintro ⟨x, hx, hnone⟩
    refine ⟨(List.getElem?_eq_some_iff.mp hx).1, x, hx, ?_⟩
    rw [Bool.not_eq_true', List.any_eq_false]
    intro y hy
    obtain ⟨j, hj⟩ := List.mem_iff_getElem?.mp hy
    rw [List.getElem?_take, Option.ite_none_right_eq_some] at hj
    simp [hnone j hj.1 y hj.2]

omit [LawfulBEq κ] in
theorem firstPlaces_append_singleton (xs : List α) (y : α) :
    firstPlaces key (xs ++ [y])
      = firstPlaces key xs ++ if xs.any (alike key · y) then [] else [xs.length] := by
  have hold : ∀ i ∈ List.range xs.length,
      ((xs ++ [y])[i]?.any fun x => !((xs ++ [y]).take i).any (alike key · x))
        = xs[i]?.any fun x => !(xs.take i).any (alike key · x) := by
    intro i hi
    have hlt : i < xs.length := List.mem_range.mp hi
    rw [List.getElem?_append_left hlt, List.take_append_of_le_length hlt.le]
  rw [firstPlaces, List.length_append, List.length_singleton, List.range_succ,
    List.filter_append, List.filter_congr hold, firstPlaces]
  by_cases hy : xs.any (alike key · y) <;> simp [hy]

omit [LawfulBEq κ] in
/-- The first elements stand at the first places. -/
theorem forall₂_firstPlaces (xs : List α) :
    List.Forall₂ (fun x i => xs[i]? = some x) (firsts key xs) (firstPlaces key xs) := by
  induction xs using List.reverseRecOn with
  | nil => exact .nil
  | append_singleton xs y ih =>
      have hold : List.Forall₂ (fun x i => (xs ++ [y])[i]? = some x) (firsts key xs)
          (firstPlaces key xs) :=
        ih.imp fun x i hx => by
          rw [List.getElem?_append_left (List.getElem?_eq_some_iff.mp hx).1, hx]
      rw [firsts_append_singleton, firstPlaces_append_singleton]
      refine List.rel_append hold ?_
      split
      · exact .nil
      · exact .cons (by simp) .nil

/-- There are as many first elements as there are keys and elements without one. -/
theorem length_firsts [DecidableEq κ] (xs : List α) :
    (firsts key xs).length
      = (xs.filterMap key).toFinset.card + xs.countP fun x => (key x).isNone := by
  induction xs using List.reverseRecOn with
  | nil => rfl
  | append_singleton xs y ih =>
      rw [firsts_append_singleton, List.length_append, ih, List.filterMap_append,
        List.toFinset_append, List.countP_append]
      cases hy : key y with
      | none =>
          have hnew : xs.any (alike key · y) = false := by simp [alike_of_keyless hy]
          simp [hy, hnew, Nat.add_assoc]
      | some k =>
          have hany : xs.any (alike key · y) = decide (k ∈ xs.filterMap key) := by
            rw [Bool.eq_iff_iff, List.any_eq_true, decide_eq_true_iff, List.mem_filterMap]
            exact exists_congr fun x => and_congr_right fun _ => by simp [alike_of_key hy]
          by_cases hk : k ∈ xs.filterMap key
          · simp [hy, hany, hk]
          · simp [hy, hany, hk, Nat.add_right_comm]

/-! ## Tables of groups -/

/-- `slots` and `positions` are the table of some elements: a slot that `make`
builds from every first element and all the elements with its key, and for
every key the place of its slot. -/
structure Grouped (key : α → Option κ) (make : α → List α → β) (xs : List α)
    (slots : List β) (positions : List (κ × Nat)) : Prop where
  slots_eq : slots = (firsts key xs).map fun x => make x (xs.filter (alike key x))
  lookup_eq : ∀ k, positions.lookup k = (firsts key xs).findIdx? (key · == some k)

namespace Grouped

variable {make : α → List α → β} {xs : List α} {slots : List β}
  {positions : List (κ × Nat)}

omit [LawfulBEq κ] in
theorem nil : Grouped key make [] [] [] := ⟨rfl, fun _ => rfl⟩

/-- Only one slot is changed if only one element fits. -/
theorem modify_map_of_findIdx? {ys : List α} {p : α → Bool}
    (hp : ys.Pairwise fun x y => ¬(p x ∧ p y)) {i : Nat} (hi : ys.findIdx? p = some i)
    (g : α → β) (h : β → β) :
    (ys.map g).modify i h = ys.map fun x => if p x then h (g x) else g x := by
  induction ys generalizing i with
  | nil => simp at hi
  | cons y ys ih =>
      obtain ⟨hy, hys⟩ := List.pairwise_cons.mp hp
      rw [List.findIdx?_cons] at hi
      by_cases hpy : p y
      · rw [if_pos hpy] at hi
        obtain rfl := Option.some.inj hi
        have hrest : ∀ x ∈ ys, (if p x then h (g x) else g x) = g x := fun x hx =>
          if_neg fun hpx => hy x hx ⟨hpy, hpx⟩
        rw [List.map_cons, List.modify_zero_cons, List.map_cons, if_pos hpy,
          List.map_congr_left hrest]
      · rw [if_neg hpy] at hi
        obtain ⟨j, hj, rfl⟩ := Option.map_eq_some_iff.mp hi
        rw [List.map_cons, List.modify_succ_cons, List.map_cons, if_neg hpy, ih hys hj]

/-- A key has a place once an element with that key has come in. -/
theorem isSome_lookup (t : Grouped key make xs slots positions) {y : α} {k : κ}
    (hk : key y = some k) : (positions.lookup k).isSome = xs.any (alike key · y) := by
  rw [t.lookup_eq, List.findIdx?_isSome, any_firsts]
  simp only [alike_of_key hk]

/-- An element whose key is known goes to the slot of its key. -/
theorem extend (t : Grouped key make xs slots positions) {y : α} {k : κ}
    (hk : key y = some k) {i : Nat} (hi : positions.lookup k = some i) {f : β → β}
    (hf : ∀ x g, alike key x y = true → f (make x g) = make x (g ++ [y])) :
    Grouped key make (xs ++ [y]) (slots.modify i f) positions := by
  have hany : xs.any (alike key · y) = true := by rw [← t.isSome_lookup hk, hi]; rfl
  have hfirsts : firsts key (xs ++ [y]) = firsts key xs := by
    rw [firsts_append_singleton, if_pos hany, List.append_nil]
  have hone : (firsts key xs).Pairwise fun x z => ¬((key x == some k) ∧ (key z == some k)) := by
    refine (firsts_pairwise xs).imp fun {x z} hxz ⟨hx, hz⟩ => ?_
    rw [← alike_of_key hk] at hx hz
    rw [alike_congr hx, alike_comm, hz] at hxz
    exact Bool.noConfusion hxz
  refine ⟨?_, fun k => by rw [hfirsts, t.lookup_eq]⟩
  rw [t.lookup_eq] at hi
  rw [hfirsts, t.slots_eq, modify_map_of_findIdx? hone hi]
  refine List.map_congr_left fun x _ => ?_
  rw [List.filter_append, ← alike_of_key hk]
  by_cases hxy : alike key x y
  · simp [hxy, hf x _ hxy]
  · simp [hxy]

/-- The first element with its key, or one without, makes a slot of its own. -/
theorem slots_append (t : Grouped key make xs slots positions) {y : α}
    (hnew : xs.any (alike key · y) = false) :
    slots ++ [make y ([y].filter (alike key y))]
      = (firsts key (xs ++ [y])).map fun x => make x ((xs ++ [y]).filter (alike key x)) := by
  have hno : ∀ x ∈ xs, alike key x y = false := by simpa using hnew
  have hold : ∀ x ∈ firsts key xs,
      make x ((xs ++ [y]).filter (alike key x)) = make x (xs.filter (alike key x)) := fun x hx => by
    rw [List.filter_append, List.filter_cons_of_neg (by simp [hno x (mem_of_mem_firsts hx)])]
    simp
  have hself : xs.filter (alike key y) = [] := by
    simpa [alike_comm y] using hno
  rw [firsts_append_singleton, hnew, t.slots_eq, List.map_append, List.map_congr_left hold]
  simp [hself]

theorem append (t : Grouped key make xs slots positions) {y : α} {k : κ}
    (hk : key y = some k) (hi : positions.lookup k = none) :
    Grouped key make (xs ++ [y]) (slots ++ [make y [y]]) ((k, slots.length) :: positions) := by
  have hnew : xs.any (alike key · y) = false := by rw [← t.isSome_lookup hk, hi]; rfl
  refine ⟨?_, fun k' => ?_⟩
  · rw [← t.slots_append hnew, List.filter_cons_of_pos (alike_iff.mpr ⟨k, hk, hk⟩)]
    rfl
  · have hlen : slots.length = (firsts key xs).length := by rw [t.slots_eq, List.length_map]
    rw [firsts_append_singleton, hnew, List.findIdx?_append, ← t.lookup_eq]
    by_cases hkk : k' = k
    · subst hkk
      simp [hi, hk, hlen]
    · have hb : (k' == k) = false := beq_false_of_ne hkk
      simp [List.lookup_cons, hb, hk, Ne.symm hkk]

/-- A key's place is that of the slot of an element with this key. -/
theorem exists_of_lookup (t : Grouped key make xs slots positions) {k : κ} {i : Nat}
    (hi : positions.lookup k = some i) :
    ∃ x, key x = some k ∧ slots[i]? = some (make x (xs.filter (alike key x))) := by
  rw [t.lookup_eq, List.findIdx?_eq_some_iff_getElem] at hi
  obtain ⟨hlt, hk, -⟩ := hi
  refine ⟨(firsts key xs)[i], by simpa using hk, ?_⟩
  rw [t.slots_eq, List.getElem?_map, List.getElem?_eq_getElem hlt, Option.map_some]

/-- An element without a key makes a slot that is not found again. -/
theorem appendKeyless (t : Grouped key make xs slots positions) {y : α} (hk : key y = none) :
    Grouped key make (xs ++ [y]) (slots ++ [make y []]) positions := by
  have hnew : xs.any (alike key · y) = false := by simp [alike_of_keyless hk]
  refine ⟨?_, fun k => ?_⟩
  · rw [← t.slots_append hnew, List.filter_cons_of_neg (by simp [alike_of_keyless hk])]
    rfl
  · rw [firsts_append_singleton, hnew, List.findIdx?_append, ← t.lookup_eq]
    simp [hk]

end Grouped

end Lawful

end Grouping

/-! ## The failure index as a table -/

namespace FailureIndex

open Grouping

/-- Failing tests are kept by the parts of their files' paths. -/
def fileKey (x : Path × FailingTest) : Option (List Path.Part) := some x.1.parts

/-- The slot of a file: the path it came with first, and its tests in order. -/
def slotOf (x : Path × FailingTest) (group : List (Path × FailingTest)) : FileFailures :=
  ⟨x.1, group.map (·.2)⟩

/-- The index is the table of the tests that were put into it. -/
abbrev Holds (index : FailureIndex) (tests : List (Path × FailingTest)) : Prop :=
  Grouped fileKey slotOf tests index.slots index.positions

theorem alike_fileKey (x : Path × FailingTest) :
    alike fileKey x = fun y => x.1.same y.1 := by
  funext y
  simp [alike, fileKey, Path.same]

theorem holds_push {index : FailureIndex} {tests : List (Path × FailingTest)}
    (h : index.Holds tests) (p : Path) (test : FailingTest) :
    (index.push p test).Holds (tests ++ [(p, test)]) := by
  rw [push, position?]
  cases hi : index.positions.lookup p.parts with
  | some i =>
      exact h.extend (y := (p, test)) rfl hi fun x g _ => by simp [slotOf]
  | none => exact h.append (y := (p, test)) rfl hi

theorem holds_pushAll {index : FailureIndex} {before : List (Path × FailingTest)}
    (h : index.Holds before) (tests : List (Path × FailingTest)) :
    (index.pushAll tests).Holds (before ++ tests) := by
  induction tests generalizing index before with
  | nil => simpa [pushAll] using h
  | cons x xs ih =>
      have := ih (holds_push h x.1 x.2)
      rwa [List.append_assoc] at this

/-- An index that was filled from nothing is the table of what was put in. -/
theorem holds_pushAll_empty (tests : List (Path × FailingTest)) :
    (pushAll ∅ tests).Holds tests :=
  holds_pushAll (show Holds ∅ [] from .nil) tests

end FailureIndex

end TestTriage
