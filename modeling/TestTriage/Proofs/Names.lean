import Mathlib.Data.Finset.Card
import Mathlib.Data.Finset.Dedup
import TestTriage.NameSet

/-!
# Adding names to a set

What a set holds after names were added, and how large it is. The order
of the names plays no part here: a name is put somewhere, and only if it
is not there yet. So a set is as large as before just if all names that
were added were there.
-/

namespace TestTriage.NameSet

theorem contains_iff {s : NameSet} {n : String} : s.contains n = true ↔ n ∈ s.names := by
  rw [contains, List.contains_iff_mem]

theorem place_perm (n : String) (ns : List String) : (place n ns).Perm (n :: ns) := by
  induction ns with
  | nil => exact .refl _
  | cons m ms ih =>
      rw [place]
      split
      · exact .refl _
      · exact (ih.cons m).trans (.swap n m ms)

/-! ## One name -/

theorem insert_of_contains {s : NameSet} {n : String} (h : s.contains n = true) :
    s.insert n = s := by
  rw [insert, if_pos h]

theorem names_insert_perm {s : NameSet} {n : String} (h : ¬s.contains n = true) :
    (s.insert n).names.Perm (n :: s.names) := by
  rw [insert, if_neg h]
  exact place_perm n s.names

@[simp] theorem contains_insert {s : NameSet} {n m : String} :
    (s.insert n).contains m = true ↔ s.contains m = true ∨ m = n := by
  by_cases h : s.contains n = true
  · rw [insert_of_contains h]
    exact ⟨.inl, fun hm => hm.elim id (· ▸ h)⟩
  · rw [contains_iff, (names_insert_perm h).mem_iff, List.mem_cons, contains_iff, or_comm]

theorem size_insert (s : NameSet) (n : String) :
    (s.insert n).size = if s.contains n then s.size else s.size + 1 := by
  by_cases h : s.contains n = true
  · rw [insert_of_contains h, if_pos h]
  · rw [if_neg h]
    exact (names_insert_perm h).length_eq

theorem size_le_insert (s : NameSet) (n : String) : s.size ≤ (s.insert n).size := by
  rw [size_insert]
  split <;> omega

theorem contains_of_size_insert {s : NameSet} {n : String} (h : (s.insert n).size ≤ s.size) :
    s.contains n = true := by
  by_contra hn
  rw [size_insert, if_neg hn] at h
  omega

theorem nodup_insert {s : NameSet} (h : s.names.Nodup) (n : String) :
    (s.insert n).names.Nodup := by
  by_cases hn : s.contains n = true
  · rwa [insert_of_contains hn]
  · exact (names_insert_perm hn).nodup_iff.mpr
      (List.nodup_cons.mpr ⟨fun hmem => hn (contains_iff.mpr hmem), h⟩)

/-! ## Many names -/

@[simp] theorem contains_insertAll {s : NameSet} {ns : List String} {m : String} :
    (s.insertAll ns).contains m = true ↔ s.contains m = true ∨ m ∈ ns := by
  induction ns generalizing s with
  | nil => simp [insertAll]
  | cons n ns ih =>
      rw [insertAll, List.foldl_cons, ← insertAll, ih, contains_insert, List.mem_cons, or_assoc]

theorem insertAll_of_contains {s : NameSet} {ns : List String}
    (h : ∀ n ∈ ns, s.contains n = true) : s.insertAll ns = s := by
  induction ns with
  | nil => rfl
  | cons n ns ih =>
      rw [insertAll, List.foldl_cons, insert_of_contains (h n List.mem_cons_self)]
      exact ih fun m hm => h m (List.mem_cons_of_mem n hm)

theorem size_le_insertAll (s : NameSet) (ns : List String) : s.size ≤ (s.insertAll ns).size := by
  induction ns generalizing s with
  | nil => exact Nat.le_refl _
  | cons n ns ih => exact (size_le_insert s n).trans (ih (s.insert n))

/-- A set that did not grow has had all the names. -/
theorem contains_of_size_insertAll {s : NameSet} {ns : List String}
    (h : (s.insertAll ns).size = s.size) {n : String} (hn : n ∈ ns) :
    s.contains n = true := by
  induction ns generalizing s with
  | nil => exact absurd hn List.not_mem_nil
  | cons m ms ih =>
      have hlater : (s.insert m).size ≤ ((s.insert m).insertAll ms).size :=
        size_le_insertAll _ ms
      have hfirst := size_le_insert s m
      rw [insertAll, List.foldl_cons, ← insertAll] at h
      have hm : s.contains m = true := contains_of_size_insert (h ▸ hlater)
      rcases List.mem_cons.mp hn with rfl | hn
      · exact hm
      · rw [insert_of_contains hm] at h
        exact ih h hn

theorem nodup_insertAll {s : NameSet} (h : s.names.Nodup) (ns : List String) :
    (s.insertAll ns).names.Nodup := by
  induction ns generalizing s with
  | nil => exact h
  | cons n ns ih => exact ih (nodup_insert h n)

/-! ## Sets of lists, unions -/

@[simp] theorem contains_ofList {ns : List String} {m : String} :
    (ofList ns).contains m = true ↔ m ∈ ns := by
  rw [ofList, contains_insertAll]
  simp [contains, empty]

@[simp] theorem contains_union {s t : NameSet} {m : String} :
    (s.union t).contains m = true ↔ s.contains m = true ∨ t.contains m = true := by
  rw [union, contains_insertAll, contains_iff (s := t)]

/-- The set of a list has as many names as differ in the list. -/
theorem size_ofList (ns : List String) : (ofList ns).size = ns.toFinset.card := by
  have hnodup : (ofList ns).names.Nodup := nodup_insertAll List.nodup_nil ns
  rw [size, ← List.toFinset_card_of_nodup hnodup]
  congr 1
  ext m
  rw [List.mem_toFinset, List.mem_toFinset, ← contains_iff, contains_ofList]

end TestTriage.NameSet
