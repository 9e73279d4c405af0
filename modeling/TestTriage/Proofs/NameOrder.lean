import Mathlib.Data.List.Sort
import TestTriage.Go.SourceFile
import TestTriage.Proofs.Names

/-!
# What a set of names remembers

A set of names is made by operations: names are put into it, other sets are
joined to it, and now and then it is built anew, from a list of names one by
one or from all of them at once. Whatever was done (`History`), the names
stand in increasing order of their bytes, for each operation keeps them so
(`ordered_insert`, `ordered_gather`). Two lists in increasing order with the
same members are the same list, so a set is known by its members alone
(`Ordered.ext`), and it has as members the names put in since it was built
(`contains_set`).

All laws of the union come down to laws of "or" by that. So do the sets of
names that declarations call: it does not matter in which order the
declarations stand, nor how often.
-/

namespace TestTriage

open Text (utf8)

namespace NameSet

variable {s t : NameSet}

/-! ## Names in order -/

/-- The names stand in increasing order of their bytes, each of them once. -/
def Ordered (s : NameSet) : Prop := s.names.Pairwise fun n m => utf8 n < utf8 m

theorem ordered_empty : (∅ : NameSet).Ordered := List.Pairwise.nil

theorem pairwise_place {n : String} {ns : List String}
    (h : ns.Pairwise fun n m => utf8 n < utf8 m) (hn : n ∉ ns) :
    (place n ns).Pairwise fun n m => utf8 n < utf8 m := by
  induction ns with
  | nil => exact List.pairwise_singleton _ n
  | cons m ms ih =>
      obtain ⟨hm, hms⟩ := List.pairwise_cons.mp h
      obtain ⟨hne, hn⟩ := List.ne_and_not_mem_of_not_mem_cons hn
      rw [place]
      split
      · next hlt =>
          refine List.pairwise_cons.mpr ⟨fun m' hm' => ?_, h⟩
          rcases List.mem_cons.mp hm' with rfl | hm'
          · exact hlt
          · exact List.lt_trans hlt (hm m' hm')
      · next hlt =>
          refine List.pairwise_cons.mpr ⟨fun m' hm' => ?_, ih hms hn⟩
          rcases List.mem_cons.mp ((place_perm n ms).mem_iff.mp hm') with rfl | hm'
          · exact Text.utf8_lt_of_ne_of_not_lt hne hlt
          · exact hm m' hm'

theorem ordered_insert (h : s.Ordered) (n : String) : (s.insert n).Ordered := by
  by_cases hn : s.contains n = true
  · rwa [insert_of_contains hn]
  · rw [insert, if_neg hn]
    exact pairwise_place h fun hmem => hn (contains_iff.mpr hmem)

theorem ordered_insertAll (h : s.Ordered) (ns : List String) : (s.insertAll ns).Ordered := by
  induction ns generalizing s with
  | nil => exact h
  | cons n ns ih => exact ih (ordered_insert h n)

theorem ordered_ofList (ns : List String) : (ofList ns).Ordered :=
  ordered_insertAll ordered_empty ns

theorem ordered_union (h : s.Ordered) (t : NameSet) : (s.union t).Ordered :=
  ordered_insertAll h t.names

/-- Sets in order are the same if they have the same names. -/
theorem Ordered.ext (hs : s.Ordered) (ht : t.Ordered)
    (h : ∀ n, s.contains n = true ↔ t.contains n = true) : s = t := by
  have hirrefl : Std.Irrefl fun n m : String => utf8 n < utf8 m := ⟨fun _ => List.lt_irrefl _⟩
  have hasymm : Std.Antisymm fun n m : String => utf8 n < utf8 m :=
    ⟨fun _ _ hlt hgt => absurd hgt (List.lt_asymm hlt)⟩
  have hnames : s.names = t.names :=
    List.Pairwise.eq_of_mem_iff hs ht fun n => by rw [← contains_iff, ← contains_iff, h n]
  cases s
  cases t
  exact congrArg mk hnames

/-! ## All names at once -/

theorem mem_dropRepeats {n : String} {ns : List String} : n ∈ dropRepeats ns ↔ n ∈ ns := by
  induction ns with
  | nil => exact Iff.rfl
  | cons m ms ih =>
      rw [dropRepeats]
      split
      · next hhead =>
          rw [ih, List.mem_cons, iff_or_self]
          rintro rfl
          exact List.mem_of_mem_head? hhead
      · rw [List.mem_cons, List.mem_cons, ih]

theorem pairwise_dropRepeats {ns : List String} (h : ns.Pairwise fun n m => utf8 n ≤ utf8 m) :
    (dropRepeats ns).Pairwise fun n m => utf8 n < utf8 m := by
  induction ns with
  | nil => exact List.Pairwise.nil
  | cons n ns ih =>
      obtain ⟨hn, hns⟩ := List.pairwise_cons.mp h
      rw [dropRepeats]
      split
      · exact ih hns
      · next hhead =>
          refine List.pairwise_cons.mpr ⟨fun m hm => ?_, ih hns⟩
          have hm := mem_dropRepeats.mp hm
          -- a repetition further on would stand between equal names, so the next name is one too
          have hne : m ≠ n := by
            rintro rfl
            obtain ⟨next, rest, rfl⟩ := List.exists_cons_of_ne_nil (List.ne_nil_of_mem hm)
            refine hhead (congrArg some (Text.utf8_inj.mp ?_))
            rcases List.mem_cons.mp hm with rfl | hm
            · rfl
            · exact List.le_antisymm ((List.pairwise_cons.mp hns).1 m hm)
                (hn next List.mem_cons_self)
          exact Text.utf8_lt_of_ne_of_not_lt hne (List.not_lt.mpr (hn m hm))

theorem ordered_gather (ns : List String) : (gather ns).Ordered := by
  refine pairwise_dropRepeats ?_
  have htrans : ∀ a b c : String, decide (utf8 a ≤ utf8 b) = true →
      decide (utf8 b ≤ utf8 c) = true → decide (utf8 a ≤ utf8 c) = true := fun _ _ _ hab hbc =>
    decide_eq_true (List.le_trans (of_decide_eq_true hab) (of_decide_eq_true hbc))
  have htotal : ∀ a b : String,
      (decide (utf8 a ≤ utf8 b) || decide (utf8 b ≤ utf8 a)) = true := fun a b => by
    simpa using List.le_total (utf8 a) (utf8 b)
  exact (List.pairwise_mergeSort htrans htotal ns).imp of_decide_eq_true

@[simp] theorem contains_gather {ns : List String} {n : String} :
    (gather ns).contains n = true ↔ n ∈ ns := by
  rw [contains_iff, gather, mem_dropRepeats, List.mem_mergeSort]

/-- Both ways of building a set from a list come to the same. -/
theorem gather_eq_ofList (ns : List String) : gather ns = ofList ns :=
  (ordered_gather ns).ext (ordered_ofList ns) fun n => by rw [contains_gather, contains_ofList]

/-! ## Unions -/

theorem union_comm (hs : s.Ordered) (ht : t.Ordered) : s.union t = t.union s :=
  (ordered_union hs t).ext (ordered_union ht s) fun n => by
    rw [contains_union, contains_union, or_comm]

theorem union_assoc (hs : s.Ordered) (t u : NameSet) :
    (s.union t).union u = s.union (t.union u) :=
  (ordered_union (ordered_union hs t) u).ext (ordered_union hs _) fun n => by
    rw [contains_union, contains_union, contains_union, contains_union, or_assoc]

theorem union_self (s : NameSet) : s.union s = s :=
  insertAll_of_contains fun _ hn => contains_iff.mpr hn

/-- A union that is no larger adds nothing. -/
theorem union_eq_self_iff : s.union t = s ↔ (s.union t).size = s.size :=
  ⟨congrArg size, fun h =>
    insertAll_of_contains fun _ hn => contains_of_size_insertAll h hn⟩

end NameSet

/-! ## Histories -/

/-- What was done to a set of names, up to now. -/
inductive History where
  | new
  | insert (before : History) (name : String)
  /-- Another set, with a history of its own, is joined to the set. -/
  | union (before other : History)
  /-- The set is built anew from a list, name by name. -/
  | list (before : History) (names : List String)
  /-- The set is built anew from a list, all names at once. -/
  | gather (before : History) (names : List String)

namespace History

/-- The set at the end. -/
def set : History → NameSet
  | new => ∅
  | insert before name => before.set.insert name
  | union before other => before.set.union other.set
  | list _ names => .ofList names
  | gather _ names => .gather names

/-- The names that were put in since the set was last built. -/
def added : History → List String
  | new => []
  | insert before name => before.added ++ [name]
  | union before other => before.added ++ other.added
  | list _ names => names
  | gather _ names => names

theorem ordered_set (h : History) : h.set.Ordered := by
  induction h with
  | new => exact NameSet.ordered_empty
  | insert before name ih => exact NameSet.ordered_insert ih name
  | union before other ih _ => exact NameSet.ordered_union ih other.set
  | list before names => exact NameSet.ordered_ofList names
  | gather before names => exact NameSet.ordered_gather names

theorem contains_set {h : History} {n : String} : h.set.contains n = true ↔ n ∈ h.added := by
  induction h with
  | new => simp [set, added, NameSet.contains, EmptyCollection.emptyCollection, NameSet.empty]
  | insert before name ih => simp [set, added, ih]
  | union before other ih ih' => simp [set, added, ih, ih']
  | list before names => simp [set, added]
  | gather before names => simp [set, added]

/-- What is seen of a set is what its history says. -/
structure Shows (h : History) (s : NameSet) : Prop where
  increasing : s.toList.Pairwise fun n m => utf8 n < utf8 m
  contains_iff : ∀ n, s.contains n = true ↔ n ∈ h.added
  /-- A name is new just if it was not put in before. -/
  new_iff : ∀ n, (s.insertNew n).1 = true ↔ n ∉ h.added
  /-- A new name makes the set larger by one. -/
  size_insert : ∀ n, (s.insertNew n).2.size = if (s.insertNew n).1 then s.size + 1 else s.size

theorem shows_set (h : History) : h.Shows h.set where
  increasing := h.ordered_set
  contains_iff _ := contains_set
  new_iff n := by rw [NameSet.insertNew, Bool.not_eq_true', ← contains_set, Bool.not_eq_true]
  size_insert n := by
    rw [NameSet.insertNew, NameSet.size_insert]
    cases h.set.contains n <;> rfl

end History

/-! ## What declarations call -/

namespace Go

theorem contains_dependencies {ds : List Declaration} {n : String} :
    (dependencies ds).contains n = true ↔ ∃ d ∈ ds, n ∈ d.callTargets := by
  rw [dependencies, NameSet.contains_ofList, List.mem_flatMap]

theorem ordered_dependencies (ds : List Declaration) : (dependencies ds).Ordered :=
  NameSet.ordered_ofList _

/-- Neither the order of declarations nor their repetition matters. -/
theorem dependencies_congr {ds ds' : List Declaration} (h : ∀ d, d ∈ ds ↔ d ∈ ds') :
    dependencies ds = dependencies ds' :=
  (ordered_dependencies ds).ext (ordered_dependencies ds') fun n => by
    simp only [contains_dependencies, h]

theorem dependencies_append (ds ds' : List Declaration) :
    dependencies (ds ++ ds') = (dependencies ds).union (dependencies ds') :=
  (ordered_dependencies _).ext (NameSet.ordered_union (ordered_dependencies ds) _) fun n => by
    simp only [NameSet.contains_union, contains_dependencies, List.mem_append, or_and_right,
      exists_or]

end Go

/-- **A set of names is the set of what was put into it, in order.** So much holds
behind every history: the two ways of building agree, unions obey the laws of
"or", a union that makes the set no larger changes nothing, and what declarations
call depends on which declarations there are, and is the union of what their parts
call. -/
theorem History.set_lawful (h h' h'' : History) (names : List String)
    (ds ds' : List Go.Declaration) :
    h.Shows h.set
      ∧ NameSet.gather names = .ofList names
      ∧ h.set.union h'.set = h'.set.union h.set
      ∧ (h.set.union h'.set).union h''.set = h.set.union (h'.set.union h''.set)
      ∧ h.set.union h.set = h.set
      ∧ (h.set.union h'.set = h.set ↔ (h.set.union h'.set).size = h.set.size)
      ∧ ((∀ d, d ∈ ds ↔ d ∈ ds') → Go.dependencies ds = Go.dependencies ds')
      ∧ Go.dependencies (ds ++ ds') = (Go.dependencies ds).union (Go.dependencies ds') :=
  ⟨h.shows_set, NameSet.gather_eq_ofList names,
    NameSet.union_comm h.ordered_set h'.ordered_set, NameSet.union_assoc h.ordered_set _ _,
    NameSet.union_self _, NameSet.union_eq_self_iff, Go.dependencies_congr,
    Go.dependencies_append ds ds'⟩

/-- The declarations of a file in which one function calls two names and another one
of them. -/
def twoCallers : List Go.Declaration :=
  match Go.SourceFile.read ⟨"a.go"⟩ "func a() \x7b g(f()) \x7d\nfunc b() \x7b f() \x7d\n" with
  | .ok file => file.declarations
  | .error _ => []

/-- Declarations in the other order, and then all of them again. -/
theorem History.set_lawful_turned :
    let h : History := ((History.new.gather ["b", "a", "b"]).insert "é").union
      (.list (.insert .new "x") ["c", "a", "Z"])
    h.set.toList = ["Z", "a", "b", "c", "é"]
      ∧ (∀ d, d ∈ twoCallers ↔ d ∈ twoCallers.reverse ++ twoCallers)
      ∧ (Go.dependencies twoCallers).toList = ["f", "g"]
      ∧ Go.dependencies twoCallers = Go.dependencies (twoCallers.reverse ++ twoCallers) := by
  intro h
  have hmem : ∀ d, d ∈ twoCallers ↔ d ∈ twoCallers.reverse ++ twoCallers := by simp
  obtain ⟨-, -, -, -, -, -, hcalls, -⟩ := History.set_lawful h h h [] twoCallers
    (twoCallers.reverse ++ twoCallers)
  have hset : h.set = ((NameSet.ofList ["b", "a", "b"]).insert "é").union
      (.ofList ["c", "a", "Z"]) := by
    rw [← NameSet.gather_eq_ofList]
    rfl
  refine ⟨?_, hmem, by decide +kernel, hcalls hmem⟩
  rw [hset]
  decide +kernel

end TestTriage
