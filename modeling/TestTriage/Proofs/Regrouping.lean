import TestTriage.Proofs.Resolving

/-!
# Resolving at once and slot by slot

`resolveEach` looks up every slot of an index and leaves it to the caller
what to do about a file that is not found. `resolve` gives up at the first
such file, or else takes the tests out of the slots and pushes them one by
one into a new index. `resolve_agrees` says that the new index has the
slots that were found, as they are.

Three facts about these carry it. Their files differ, so no two of them
are joined (`pairwise_found`). Every slot of an index has tests, so none
of them is empty and gets lost (`tests_ne_nil_of_found`). And together
they have the tests of the index, each as often (`tests_found_perm`).
-/

namespace TestTriage

/-- The problem with a resolved slot whose file was not found. -/
def ResolvedSlot.Unlocated (r : ResolvedSlot) (problem : Problem) : Prop :=
  r.located = .error problem

/-- The problem with a slot whose file is not found. -/
def FileFailures.Unlocated (locate : Path → Except Problem Path) (s : FileFailures)
    (problem : Problem) : Prop :=
  locate s.path = .error problem

namespace FailureIndex

open Grouping Merge

variable {locate : Path → Except Problem Path} {index : FailureIndex} {found : List FileFailures}

/-! ## The slots that were found -/

theorem located_mergedSlot_eq_ok {s : FileFailures} {group : List FileFailures}
    {f : FileFailures} :
    (mergedSlot locate s group).located = .ok f
      ↔ locate s.path = .ok f.path ∧ f.tests = group.flatMap (·.tests) := by
  rw [mergedSlot, map_eq_ok]
  constructor
  · rintro ⟨p, hp, rfl⟩
    exact ⟨hp, rfl⟩
  · rintro ⟨hp, htests⟩
    exact ⟨f.path, hp, by rw [← htests]⟩

/-- The slots that were found are those of the first slots of their files, with the tests of
all slots of these files. -/
theorem forall₂_found (h : (index.resolveEach locate).map (·.located) = found.map .ok) :
    List.Forall₂ (fun s f => locate s.path = .ok f.path
        ∧ f.tests = (index.slots.filter (alike (locatedKey locate) s)).flatMap (·.tests))
      (firsts (locatedKey locate) index.slots) found := by
  rw [resolveEach_eq, List.map_map, ← List.forall₂_eq_eq_eq, List.forall₂_map_left_iff,
    List.forall₂_map_right_iff] at h
  exact h.imp fun s f hf => located_mergedSlot_eq_ok.mp hf

/-- If all files were found, every slot of the index has one. -/
theorem isSome_locatedKey_of_found
    (h : (index.resolveEach locate).map (·.located) = found.map .ok) {s : FileFailures}
    (hs : s ∈ index.slots) : (locatedKey locate s).isSome = true := by
  rw [Option.isSome_iff_ne_none]
  intro hkey
  -- a slot without a file has a resolved slot of its own
  have hfirst : (mergedSlot locate s (index.slots.filter (alike (locatedKey locate) s))).located
      ∈ (index.resolveEach locate).map (·.located) := by
    rw [resolveEach_eq]
    exact List.mem_map_of_mem (List.mem_map_of_mem (mem_firsts_of_keyless hkey hs))
  rw [h] at hfirst
  obtain ⟨f, -, hf⟩ := List.mem_map.mp hfirst
  rw [locatedKey_ok (located_mergedSlot_eq_ok.mp hf.symm).1] at hkey
  cases hkey

/-- Together the found slots have the tests of the index. -/
theorem tests_found_perm (h : (index.resolveEach locate).map (·.located) = found.map .ok) :
    (found.flatMap (·.tests)).Perm (index.slots.flatMap (·.tests)) := by
  have htests : (firsts (locatedKey locate) index.slots).map (fun s =>
        (index.slots.filter (alike (locatedKey locate) s)).flatMap (·.tests))
      = found.map (·.tests) := by
    rw [← List.forall₂_eq_eq_eq, List.forall₂_map_left_iff, List.forall₂_map_right_iff]
    exact (forall₂_found h).imp fun s f hf => hf.2.symm
  have hkeyed : (index.slots.filter fun s => (locatedKey locate s).isSome) = index.slots :=
    List.filter_eq_self.mpr fun s hs => isSome_locatedKey_of_found h hs
  have hgroups := flatMap_firsts_perm (locatedKey locate) index.slots
  rw [hkeyed] at hgroups
  rw [List.flatMap_def, ← htests, ← List.flatMap_def, ← List.flatMap_assoc]
  exact hgroups.flatMap_right _

theorem tests_ne_nil_of_found (hfilled : ∀ s ∈ index.slots, s.tests ≠ [])
    (h : (index.resolveEach locate).map (·.located) = found.map .ok) {f : FileFailures}
    (hf : f ∈ found) : f.tests ≠ [] := by
  have hmem : Except.ok f ∈ (index.resolveEach locate).map (·.located) :=
    h ▸ List.mem_map_of_mem hf
  rw [resolveEach_eq, List.map_map] at hmem
  obtain ⟨s, hs, hsf⟩ := List.mem_map.mp hmem
  obtain ⟨hlocated, htests⟩ := located_mergedSlot_eq_ok.mp hsf
  have hs : s ∈ index.slots := mem_of_mem_firsts hs
  have hself : alike (locatedKey locate) s s = true :=
    alike_iff.mpr ⟨_, locatedKey_ok hlocated, locatedKey_ok hlocated⟩
  obtain ⟨test, htest⟩ := List.exists_mem_of_ne_nil _ (hfilled s hs)
  rw [htests]
  exact List.ne_nil_of_mem
    (List.mem_flatMap.mpr ⟨s, List.mem_filter.mpr ⟨hs, hself⟩, htest⟩)

/-! ## The first slot that is not found -/

theorem locatedTests_eq_error {slots : List ResolvedSlot} {problem : Problem} :
    locatedTests slots = .error problem ↔ FirstFault ResolvedSlot.Unlocated slots problem := by
  induction slots with
  | nil =>
      refine iff_of_false (fun h => ?_) not_firstFault_nil
      cases h
  | cons r rs ih =>
      rw [locatedTests]
      cases hr : r.located with
      | error problem' =>
          rw [firstFault_cons_of_fault (show r.Unlocated problem' from hr),
            ResolvedSlot.Unlocated, hr]
          simp [bind, Except.bind]
      | ok f =>
          have hnone : ∀ problem', ¬r.Unlocated problem' := by
            intro problem' h
            cases hr.symm.trans h
          rw [firstFault_cons_of_none hnone, ← ih]
          cases locatedTests rs <;> simp [bind, Except.bind, pure, Except.pure]

theorem resolve_eq_error {problem : Problem} :
    index.resolve locate = .error problem
      ↔ FirstFault ResolvedSlot.Unlocated (index.resolveEach locate) problem := by
  rw [← locatedTests_eq_error, resolve]
  cases locatedTests (index.resolveEach locate) <;> simp [bind, Except.bind, pure, Except.pure]

/-- The slots that are left out for an earlier one are found at its file. -/
theorem firstFault_firsts {slots : List FileFailures} {problem : Problem} :
    FirstFault (FileFailures.Unlocated locate) (firsts (locatedKey locate) slots) problem
      ↔ FirstFault (FileFailures.Unlocated locate) slots problem := by
  induction slots with
  | nil => rfl
  | cons s ss ih =>
      have hleftOut : ∀ s', (!alike (locatedKey locate) s s') = false →
          ∀ problem', ¬s'.Unlocated locate problem' := by
        intro s' halike problem' hfault
        rw [alike_of_keyless (locatedKey_error hfault)] at halike
        exact Bool.noConfusion halike
      rw [firsts]
      cases hs : locate s.path with
      | error problem' =>
          have hfault : s.Unlocated locate problem' := hs
          rw [firstFault_cons_of_fault hfault, firstFault_cons_of_fault hfault]
      | ok p =>
          have hnone : ∀ problem', ¬s.Unlocated locate problem' := by
            intro problem' h
            cases hs.symm.trans h
          rw [firstFault_cons_of_none hnone, firstFault_cons_of_none hnone,
            firstFault_filter hleftOut, ih]

theorem firstFault_resolveEach {problem : Problem} :
    FirstFault ResolvedSlot.Unlocated (index.resolveEach locate) problem
      ↔ FirstFault (FileFailures.Unlocated locate) index.slots problem := by
  have hfault : (fun s => (mergedSlot locate s
      (index.slots.filter (alike (locatedKey locate) s))).Unlocated)
        = FileFailures.Unlocated locate := by
    funext s problem
    rw [ResolvedSlot.Unlocated, mergedSlot, map_eq_error, FileFailures.Unlocated]
  rw [resolveEach_eq, firstFault_map, hfault, firstFault_firsts]

/-! ## Both ways -/

/-- **Resolving at once and slot by slot agree.** An index is resolved just if all its
slots are found. Then it has the slots that were found, with their tests in their order,
and as many tests as before. Otherwise the problem is that of the first slot that is not
found, of the resolved slots as well as of the index. -/
theorem resolve_agrees (pushes : List (Path × FailingTest))
    (locate : Path → Except Problem Path) :
    let index := pushAll ∅ pushes
    ((∃ resolved, index.resolve locate = .ok resolved)
        ↔ ∀ r ∈ index.resolveEach locate, ∃ f, r.located = .ok f)
      ∧ (∀ resolved, index.resolve locate = .ok resolved →
          (index.resolveEach locate).map (·.located) = resolved.slots.map .ok
            ∧ resolved.testCount = index.testCount)
      ∧ ∀ problem,
          (index.resolve locate = .error problem
            ↔ FirstFault ResolvedSlot.Unlocated (index.resolveEach locate) problem)
          ∧ (index.resolve locate = .error problem
            ↔ FirstFault (FileFailures.Unlocated locate) index.slots problem) := by
  intro index
  refine ⟨⟨?_, fun hall => ?_⟩, fun resolved h => ?_, fun problem => ⟨resolve_eq_error, ?_⟩⟩
  · rintro ⟨resolved, h⟩ r hr
    obtain ⟨found, hfound, -⟩ := resolve_eq_ok.mp h
    have hmem : r.located ∈ found.map Except.ok := hfound ▸ List.mem_map_of_mem hr
    obtain ⟨f, -, hf⟩ := List.mem_map.mp hmem
    exact ⟨f, hf.symm⟩
  · cases hresolve : index.resolve locate with
    | ok resolved => exact ⟨resolved, rfl⟩
    | error problem =>
        obtain ⟨r, hr, hfault⟩ := (resolve_eq_error.mp hresolve).exists_mem
        obtain ⟨f, hf⟩ := hall r hr
        cases hf.symm.trans hfault
  · obtain ⟨found, hfound, rfl⟩ := resolve_eq_ok.mp h
    have hfilled : ∀ f ∈ found, (!f.tests.isEmpty) = true := by
      intro f hf
      have := tests_ne_nil_of_found (records_pushAll pushes).filled hfound hf
      simpa using this
    have hslots : (pushAll ∅ (found.flatMap (·.listed))).slots = found := by
      rw [slots_pushAll_listed (pairwise_found hfound), List.filter_eq_self.mpr hfilled]
    rw [testCount_eq, testCount_eq, hslots]
    exact ⟨hfound, (tests_found_perm hfound).length_eq⟩
  · rw [resolve_eq_error, firstFault_resolveEach]

end FailureIndex

end TestTriage
