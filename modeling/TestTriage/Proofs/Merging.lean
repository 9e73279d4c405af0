import TestTriage.Proofs.Grouping
import TestTriage.Resolution

/-!
# Merging reported files

`Merge.add` fills a table of resolved slots, keyed by the parts of the
path that a file is found at. So what `resolveEach` returns is read off
the slots of the index alone (`resolveEach_eq`): the first slot for
every real file takes the tests of all slots found at that file, and a
slot whose file is not found, having no key, stays as it is.

`resolveEach_merges` says the same by the places of the slots in the
index, and of every step of the merge that the position recorded for a
file is that of the slot which the file was found for.
-/

namespace TestTriage

open Grouping

namespace Merge

variable (locate : Path → Except Problem Path)

/-- The parts of the path that a slot's file is found at. -/
def locatedKey (s : FileFailures) : Option (List Path.Part) :=
  (locate s.path).toOption.map Path.parts

/-- The resolved slot of a slot and of all that are found at the same file. -/
def mergedSlot (s : FileFailures) (group : List FileFailures) : ResolvedSlot :=
  ⟨s.path, (locate s.path).map fun p => ⟨p, group.flatMap (·.tests)⟩⟩

/-- Are two slots found at the same file? -/
def SameFile (s s' : FileFailures) : Prop :=
  ∃ p p', locate s.path = .ok p ∧ locate s'.path = .ok p' ∧ p.same p' = true

/-- The tests of the slots that are found at a file, in their order. -/
def testsAt (slots : List FileFailures) (p : Path) : List FailingTest :=
  (slots.filter fun s => (locate s.path).toOption.any p.same).flatMap (·.tests)

/-- A resolved slot stands for the slot at a place: it has the same reported file, and
the file found with the tests of all slots found there, or else the problem. -/
def StandsFor (slots : List FileFailures) (r : ResolvedSlot) (i : Nat) : Prop :=
  ∃ s, slots[i]? = some s ∧ r.reported = s.path
    ∧ r.located = (locate s.path).map fun p => ⟨p, testsAt locate slots p⟩

/-- The merge is the table of the slots that were put into it. -/
abbrev Holds (m : Merge) (slots : List FileFailures) : Prop :=
  Grouped (locatedKey locate) (mergedSlot locate) slots m.slots m.positions

variable {locate}

/-! ## Slots found at the same file -/

theorem locatedKey_ok {s : FileFailures} {p : Path} (h : locate s.path = .ok p) :
    locatedKey locate s = some p.parts := by
  rw [locatedKey, h]; rfl

theorem locatedKey_error {s : FileFailures} {problem : Problem}
    (h : locate s.path = .error problem) : locatedKey locate s = none := by
  rw [locatedKey, h]; rfl

theorem locatedKey_eq_some {s : FileFailures} {k : List Path.Part} :
    locatedKey locate s = some k ↔ ∃ p, locate s.path = .ok p ∧ p.parts = k := by
  cases h : locate s.path with
  | error problem => simp [locatedKey_error h]
  | ok p => simp [locatedKey_ok h]

theorem isNone_locatedKey (s : FileFailures) :
    (locatedKey locate s).isNone = !(locate s.path).isOk := by
  cases h : locate s.path with
  | error problem => rw [locatedKey_error h]; rfl
  | ok p => rw [locatedKey_ok h]; rfl

theorem alike_locatedKey_iff {s s' : FileFailures} :
    alike (locatedKey locate) s s' = true ↔ SameFile locate s s' := by
  rw [alike_iff]
  constructor
  · rintro ⟨k, hs, hs'⟩
    obtain ⟨p, hp, rfl⟩ := locatedKey_eq_some.mp hs
    obtain ⟨p', hp', hparts⟩ := locatedKey_eq_some.mp hs'
    exact ⟨p, p', hp, hp', by simp [Path.same, hparts]⟩
  · rintro ⟨p, p', hp, hp', hsame⟩
    refine ⟨p.parts, locatedKey_ok hp, ?_⟩
    rw [locatedKey_ok hp', eq_of_beq hsame]

theorem alike_locatedKey_of_ok {s : FileFailures} {p : Path} (h : locate s.path = .ok p) :
    alike (locatedKey locate) s = fun s' => (locate s'.path).toOption.any p.same := by
  funext s'
  rw [Bool.eq_iff_iff, alike_locatedKey_iff]
  cases h' : locate s'.path with
  | error problem => simp [SameFile, h', Except.toOption]
  | ok p' => simp [SameFile, h, h', Except.toOption]

/-! ## Merged slots -/

theorem mergedSlot_extend (s y : FileFailures) (group : List FileFailures) :
    (mergedSlot locate s group).extend y.tests = mergedSlot locate s (group ++ [y]) := by
  cases h : locate s.path <;> simp [mergedSlot, ResolvedSlot.extend, h, Except.map]

theorem located_mergedSlot {s : FileFailures} {group : List FileFailures} {f : FileFailures}
    (h : (mergedSlot locate s group).located = .ok f) :
    ∃ p, locate s.path = .ok p ∧ f.path = p := by
  cases hs : locate s.path with
  | error problem => simp [mergedSlot, hs, Except.map] at h
  | ok p =>
      simp only [mergedSlot, hs, Except.map, Except.ok.injEq] at h
      exact ⟨p, rfl, h ▸ rfl⟩

theorem standsFor_mergedSlot {slots : List FileFailures} {s : FileFailures} {i : Nat}
    (hi : slots[i]? = some s) :
    StandsFor locate slots
      (mergedSlot locate s (slots.filter (alike (locatedKey locate) s))) i := by
  refine ⟨s, hi, rfl, ?_⟩
  cases h : locate s.path with
  | error problem => simp [mergedSlot, h, Except.map]
  | ok p => simp [mergedSlot, h, Except.map, alike_locatedKey_of_ok h, testsAt]

/-! ## The merge as a table -/

theorem holds_add {m : Merge} {done : List FileFailures} (h : m.Holds locate done)
    (s : FileFailures) : (m.add locate s).Holds locate (done ++ [s]) := by
  rw [add]
  cases hs : locate s.path with
  | error problem =>
      have hslot : mergedSlot locate s [] = ⟨s.path, .error problem⟩ := by
        rw [mergedSlot, hs]; rfl
      have := h.appendKeyless (locatedKey_error hs)
      rwa [hslot] at this
  | ok p =>
      cases hi : m.positions.lookup p.parts with
      | some i =>
          simp only [hi]
          exact h.extend (locatedKey_ok hs) hi fun x g _ => mergedSlot_extend x s g
      | none =>
          simp only [hi]
          have hslot : mergedSlot locate s [s] = ⟨s.path, .ok ⟨p, s.tests⟩⟩ := by
            rw [mergedSlot, hs]; simp [Except.map]
          have := h.append (locatedKey_ok hs) hi
          rwa [hslot] at this

theorem holds_foldl {m : Merge} {done : List FileFailures} (h : m.Holds locate done)
    (slots : List FileFailures) :
    (slots.foldl (Merge.add locate) m).Holds locate (done ++ slots) := by
  induction slots generalizing m done with
  | nil => simpa using h
  | cons s ss ih =>
      have := ih (holds_add h s)
      rwa [List.append_assoc] at this

/-- A position that the merge has recorded is that of a slot with the file found. -/
theorem located_of_lookup {done : List FileFailures} {p : Path} {i : Nat}
    (h : (done.foldl (Merge.add locate) .empty).positions.lookup p.parts = some i) :
    ∃ r f, (done.foldl (Merge.add locate) .empty).slots[i]? = some r ∧ r.located = .ok f
      ∧ f.path.same p = true := by
  obtain ⟨s, hkey, hslot⟩ := (holds_foldl (m := .empty) .nil done).exists_of_lookup h
  obtain ⟨q, hq, hparts⟩ := locatedKey_eq_some.mp hkey
  refine ⟨_, ⟨q, _⟩, hslot, by rw [mergedSlot, hq]; rfl, ?_⟩
  rw [Path.same, hparts, beq_self_eq_true]

end Merge

namespace FailureIndex

open Merge

/-- What the slots of an index are resolved to, without the table. -/
theorem resolveEach_eq (index : FailureIndex) (locate : Path → Except Problem Path) :
    index.resolveEach locate
      = (firsts (locatedKey locate) index.slots).map fun s =>
          mergedSlot locate s (index.slots.filter (alike (locatedKey locate) s)) :=
  (holds_foldl (m := .empty) .nil index.slots).slots_eq

/-- Slots that are found are found at different files. -/
theorem pairwise_resolveEach (index : FailureIndex) (locate : Path → Except Problem Path) :
    (index.resolveEach locate).Pairwise fun r r' =>
      ∀ f f', r.located = .ok f → r'.located = .ok f' → f.path.same f'.path = false := by
  rw [resolveEach_eq, List.pairwise_map]
  refine (firsts_pairwise index.slots).imp fun {s s'} hdiffer f f' hf hf' => ?_
  obtain ⟨p, hp, hfp⟩ := located_mergedSlot hf
  obtain ⟨p', hp', hfp'⟩ := located_mergedSlot hf'
  rw [hfp, hfp', ← Bool.not_eq_true]
  intro hsame
  rw [alike_locatedKey_iff.mpr ⟨p, p', hp, hp', hsame⟩] at hdiffer
  exact Bool.noConfusion hdiffer

/-- **The merge loses and reorders nothing.** The resolved slots stand, in order,
for the slots of the index that are not found at the file of an earlier one. So
every slot that is not found has one of its own, and every file one at the first
slot found there. Positions are recorded only of slots whose file was found, so
tests that come later always have where to go. -/
theorem resolveEach_merges (index : FailureIndex) (locate : Path → Except Problem Path) :
    (∃ places : List Nat, places.Pairwise (· < ·)
        ∧ (∀ i, i ∈ places ↔ ∃ s, index.slots[i]? = some s
            ∧ ∀ j < i, ∀ s', index.slots[j]? = some s' → ¬SameFile locate s' s)
        ∧ List.Forall₂ (StandsFor locate index.slots) (index.resolveEach locate) places)
      ∧ ((index.resolveEach locate).Pairwise fun r r' =>
          ∀ f f', r.located = .ok f → r'.located = .ok f' → f.path.same f'.path = false)
      ∧ (index.resolveEach locate).length
          = (index.slots.filterMap fun s =>
              (locate s.path).toOption.map Path.parts).toFinset.card
            + index.slots.countP (fun s => !(locate s.path).isOk)
      ∧ ∀ done s later p i, index.slots = done ++ s :: later → locate s.path = .ok p →
          (done.foldl (Merge.add locate) .empty).positions.lookup p.parts = some i →
          ∃ r f, (done.foldl (Merge.add locate) .empty).slots[i]? = some r
            ∧ r.located = .ok f ∧ f.path.same p = true := by
  refine ⟨⟨firstPlaces (locatedKey locate) index.slots, pairwise_firstPlaces _, fun i => ?_, ?_⟩,
    index.pairwise_resolveEach locate, ?_,
    fun done s later p i _ _ hi => located_of_lookup hi⟩
  · simp only [mem_firstPlaces, ← alike_locatedKey_iff, Bool.not_eq_true]
  · rw [resolveEach_eq, List.forall₂_map_left_iff]
    exact (forall₂_firstPlaces index.slots).imp fun s i hi => standsFor_mergedSlot hi
  · rw [resolveEach_eq, List.length_map, length_firsts]
    simp only [isNone_locatedKey]
    rfl

end FailureIndex

end TestTriage
