import TestTriage.Proofs.Paths
import TestTriage.Proofs.Rescan
import TestTriage.Resolution

/-!
# What an index records

An index keeps its slots in a list and their places in a table, and
nothing but `push` keeps the two in step. Two facts about `push` carry
all that the readers of an index rely on: the slots are the table of what
was pushed (`FailureIndex.Holds`), and the table of places lists the files
backwards, each with its number (`InStep`). `records_pushAll` reads off
from them what every operation on an index yields.

Files are told apart by the parts of their paths (`Path.same_iff`).
-/

namespace TestTriage

namespace FailureIndex

open Grouping

/-! ## Slots and places in step -/

/-- The table of places lists the files backwards, each with its number. -/
def InStep (index : FailureIndex) : Prop :=
  index.positions = ((index.files.map Path.parts).zipIdx).reverse

theorem files_modify (slots : List FileFailures) (i : Nat) (test : FailingTest) :
    (slots.modify i fun s => { s with tests := s.tests ++ [test] }).map (·.path)
      = slots.map (·.path) := by
  refine List.ext_getElem? fun j => ?_
  rw [List.getElem?_map, List.getElem?_modify, List.getElem?_map]
  cases slots[j]? with
  | none => rfl
  | some s => by_cases hij : i = j <;> simp [hij]

theorem inStep_push {index : FailureIndex} (h : index.InStep) (p : Path) (test : FailingTest) :
    (index.push p test).InStep := by
  rw [push]
  cases hi : index.position? p with
  | some i =>
      simp only [InStep, files, files_modify]
      exact h
  | none =>
      simp only [InStep, files] at h ⊢
      rw [List.map_append, List.map_append, List.zipIdx_append, List.reverse_append, ← h]
      simp

theorem inStep_pushAll {index : FailureIndex} (h : index.InStep)
    (pushes : List (Path × FailingTest)) : (index.pushAll pushes).InStep := by
  induction pushes generalizing index with
  | nil => exact h
  | cons x xs ih => exact ih (inStep_push h x.1 x.2)

/-! ## Reading an index -/

variable {index : FailureIndex} {pushes : List (Path × FailingTest)}

theorem slots_eq_map (h : index.Holds pushes) :
    index.slots = (firsts fileKey pushes).map fun x =>
      ⟨x.1, (pushes.filter (x.1.same ·.1)).map (·.2)⟩ := by
  rw [h.slots_eq]
  simp only [slotOf, alike_fileKey]

theorem files_eq_map (h : index.Holds pushes) :
    index.files = (firsts fileKey pushes).map (·.1) := by
  rw [files, slots_eq_map h, List.map_map]
  rfl

theorem any_files (h : index.Holds pushes) (p : Path) :
    index.files.any (·.same p) = pushes.any (·.1.same p) := by
  rw [files_eq_map h, List.any_map]
  exact any_firsts p.parts pushes

theorem position?_eq (h : index.Holds pushes) (p : Path) :
    index.position? p = index.slots.findIdx? (·.path.same p) := by
  rw [position?, h.lookup_eq, slots_eq_map h, List.findIdx?_map]
  rfl

theorem pairwise_slots (h : index.Holds pushes) :
    index.slots.Pairwise fun s s' => s.path.same s'.path = false := by
  rw [slots_eq_map h, List.pairwise_map]
  refine (firsts_pairwise pushes).imp fun {x y} hxy => ?_
  rwa [alike_fileKey] at hxy

theorem position?_path (h : index.Holds pushes) {i : Nat} {slot : FileFailures}
    (hi : index.slots[i]? = some slot) : index.position? slot.path = some i := by
  obtain ⟨hlt, hslot⟩ := List.getElem?_eq_some_iff.mp hi
  rw [position?_eq h, List.findIdx?_eq_some_iff_getElem]
  refine ⟨hlt, by rw [hslot]; exact Path.same_iff.mpr rfl, fun j hj => ?_⟩
  have hdiffer := List.pairwise_iff_getElem.mp (pairwise_slots h) j i (hj.trans hlt) hlt hj
  rw [hslot] at hdiffer
  simpa using hdiffer

theorem isSome_position? (h : index.Holds pushes) (p : Path) :
    (index.position? p).isSome = pushes.any (·.1.same p) := by
  have hlookup := h.isSome_lookup (y := (p, ⟨"", ""⟩)) (k := p.parts) rfl
  simp only [alike_fileKey] at hlookup
  exact hlookup

theorem get?_eq (h : index.Holds pushes) (p : Path) :
    index.get? p = if pushes.any (·.1.same p)
      then some ((pushes.filter (·.1.same p)).map (·.2)) else none := by
  rw [← isSome_position? h, get?]
  cases hi : index.position? p with
  | none => rfl
  | some i =>
      obtain ⟨x, hx, hslot⟩ := h.exists_of_lookup hi
      have hparts : x.1.parts = p.parts := Option.some.inj hx
      have hgroup : alike fileKey x = fun y => y.1.same p := by
        rw [alike_fileKey]
        funext y
        rw [Path.same_comm, Path.same, Path.same, hparts]
      rw [hgroup] at hslot
      simp [hslot, slotOf]

/-- Of each file the index shows the first of its paths. -/
theorem firsts_eq_eraseDupsBy (xs : List (Path × FailingTest)) :
    (firsts fileKey xs).map (·.1) = (xs.map (·.1)).eraseDupsBy Path.same := by
  induction hn : xs.length using Nat.strongRecOn generalizing xs with
  | ind n ih =>
      cases xs with
      | nil => rfl
      | cons x xs =>
          have hothers : (xs.map (·.1)).filter (fun p => decide (p.same x.1 = false))
              = (xs.filter (!alike fileKey x ·)).map (·.1) := by
            rw [List.filter_map]
            refine congrArg _ (List.filter_congr fun y _ => ?_)
            rw [alike_fileKey, Function.comp_apply, Path.same_comm]
            simp
          have hless : (xs.filter (!alike fileKey x ·)).length < n := by
            have hle := List.length_filter_le (!alike fileKey x ·) xs
            rw [List.length_cons] at hn
            omega
          rw [firsts_cons, List.map_cons, List.map_cons, List.eraseDupsBy_cons, hothers,
            ih _ hless _ rfl]

theorem testCount_eq (index : FailureIndex) :
    index.testCount = (index.slots.flatMap (·.tests)).length := by
  rw [testCount]
  induction index.slots with
  | nil => rfl
  | cons s ss ih => rw [List.foldr_cons, ih, List.flatMap_cons, List.length_append]

theorem testCount_of_holds (h : index.Holds pushes) : index.testCount = pushes.length := by
  have hgroups := (flatMap_firsts_perm fileKey pushes).length_eq
  rw [testCount_eq, h.slots_eq, List.flatMap_map]
  simpa [slotOf, fileKey, List.length_flatMap] using hgroups

/-! ## The record -/

/-- What an index tells of the tests that were pushed into it, each under a path. -/
structure Records (index : FailureIndex) (pushes : List (Path × FailingTest)) : Prop where
  /-- There is one key for every slot. -/
  keys : (index.positions.map (·.1)).Perm (index.files.map Path.parts)
  place : ∀ i slot, index.slots[i]? = some slot → index.position? slot.path = some i
  distinct : index.files.Pairwise fun p q => p.same q = false
  filled : ∀ slot ∈ index.slots, slot.tests ≠ []
  /-- A slot shows the path that its file was pushed under first. -/
  spelled : ∀ slot ∈ index.slots,
    (pushes.find? (·.1.same slot.path)).map (·.1) = some slot.path
  get : ∀ p, index.get? p = if pushes.any (·.1.same p)
    then some ((pushes.filter (·.1.same p)).map (·.2)) else none
  files : index.files = (pushes.map (·.1)).eraseDupsBy Path.same
  fileCount : index.fileCount = (pushes.map (·.1.parts)).toFinset.card
  testCount : index.testCount = pushes.length
  isEmpty : index.isEmpty = true ↔ pushes = []

theorem records_of_holds (h : index.Holds pushes) (hstep : index.InStep) :
    index.Records pushes where
  keys := by
    have hkeys : index.positions.map (·.1) = (index.files.map Path.parts).reverse := by
      rw [hstep, List.map_reverse, List.zipIdx_map_fst]
    rw [hkeys]
    exact List.reverse_perm _
  place := fun _ _ hi => position?_path h hi
  distinct := List.pairwise_map.mpr (pairwise_slots h)
  filled := by
    intro slot hslot
    rw [slots_eq_map h] at hslot
    obtain ⟨x, hx, rfl⟩ := List.mem_map.mp hslot
    have hself : x ∈ pushes.filter (x.1.same ·.1) :=
      List.mem_filter.mpr ⟨mem_of_mem_firsts hx, Path.same_iff.mpr rfl⟩
    exact List.ne_nil_of_mem (List.mem_map_of_mem hself)
  spelled := by
    intro slot hslot
    rw [slots_eq_map h] at hslot
    obtain ⟨x, hx, rfl⟩ := List.mem_map.mp hslot
    have hfind : pushes.find? (·.1.same x.1) = some x :=
      find?_of_mem_firsts (show fileKey x = some x.1.parts from rfl) hx
    rw [hfind]
    rfl
  get := get?_eq h
  files := by rw [files_eq_map h, firsts_eq_eraseDupsBy]
  fileCount := by
    have hkeys : pushes.filterMap fileKey = pushes.map (·.1.parts) :=
      List.filterMap_eq_map_iff_forall_eq_some.mpr fun _ _ => rfl
    rw [FailureIndex.fileCount, h.slots_eq, List.length_map, length_firsts, hkeys]
    simp [fileKey]
  testCount := testCount_of_holds h
  isEmpty := by
    rw [FailureIndex.isEmpty, List.isEmpty_iff, h.slots_eq, List.map_eq_nil_iff, firsts_eq_nil]

theorem records_pushAll (pushes : List (Path × FailingTest)) :
    (pushAll ∅ pushes).Records pushes :=
  records_of_holds (holds_pushAll_empty pushes)
    (inStep_pushAll (show InStep ∅ from rfl) pushes)

end FailureIndex

namespace Correlator

theorem holds_correlate (c : Correlator) (events : List Event) :
    (c.correlate events).Holds (c.rescan events) := by
  rw [correlate_eq_pushAll]
  exact FailureIndex.holds_pushAll_empty _

theorem records_correlate (c : Correlator) (events : List Event) :
    (c.correlate events).Records (c.rescan events) := by
  rw [correlate_eq_pushAll]
  exact FailureIndex.records_pushAll _

end Correlator

namespace FailureIndex

/-- **An index records what was pushed.** So does one that events are correlated to, of
the failures they tell of, and one that was resolved, of the located tests. Files are the
same whose paths differ in nothing but segments that add no part; a leading `.` is one. -/
theorem indices_record :
    (∀ pushes, (pushAll ∅ pushes).Records pushes)
      ∧ (∀ (c : Correlator) events, (c.correlate events).Records (c.rescan events))
      ∧ (∀ (index resolved : FailureIndex) locate, index.resolve locate = .ok resolved →
          ∃ pushes, locatedTests (index.resolveEach locate) = .ok pushes
            ∧ resolved.Records pushes)
      ∧ (∀ d r : String, (⟨d ++ "//" ++ r⟩ : Path).same ⟨d ++ "/" ++ r⟩ = true
          ∧ (⟨d ++ "/./" ++ r⟩ : Path).same ⟨d ++ "/" ++ r⟩ = true)
      ∧ ∀ r : String, (⟨r⟩ : Path).parts.head? ≠ some .here →
          (⟨"./" ++ r⟩ : Path).same ⟨r⟩ = false := by
  refine ⟨records_pushAll, Correlator.records_correlate, fun index resolved locate h => ?_,
    fun d r => ⟨?_, ?_⟩, fun r hr => ?_⟩
  · rw [resolve] at h
    cases htests : locatedTests (index.resolveEach locate) with
    | error problem => rw [htests] at h; cases h
    | ok pushes =>
        rw [htests] at h
        obtain rfl := Except.ok.inj h
        exact ⟨pushes, rfl, records_pushAll pushes⟩
  · exact Path.same_iff.mpr (Path.parts_idle (s := "") rfl List.not_mem_nil d r)
  · exact Path.same_iff.mpr (Path.parts_idle (s := ".") rfl (by decide) d r)
  · rw [← Bool.not_eq_true, Path.same_iff]
    intro hparts
    exact hr (hparts ▸ Path.head?_parts_here r)

end FailureIndex

end TestTriage
