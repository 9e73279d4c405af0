import TestTriage.Locate
import TestTriage.Proofs.Failing
import TestTriage.Proofs.Merging
import TestTriage.Proofs.Recording

/-!
# Resolving twice

An index that was resolved is resolved to itself. Each of its files is
found where it is: a file whose path ends with the whole path of another
ends with every report of it too, so had it come first in the walk, it
would have been found then (`Locator.locate_located`). And no two of its
slots are merged, since the slots that were found differ in their paths
(`FailureIndex.resolveEach_of_found`).

The tests of the found slots are pushed one by one into a new index. They
come slot by slot, and no slot's path comes again, so what is pushed are
the found slots themselves, but for those without tests
(`FailureIndex.slots_pushAll_listed`).
-/

namespace TestTriage

namespace Locator

variable {l : Locator} {t : FileTree} {reported p : Path}

theorem endsWith_of_firstFit {sights : List Sight} (h : l.firstFit reported sights = some p) :
    p.endsWith reported = true := by
  fun_induction firstFit l reported sights with
  | case1 => cases h
  | case2 names fault others ih => exact ih h
  | case3 names others hends =>
      obtain rfl := Option.some.inj h
      exact hends
  | case4 names others _ ih => exact ih h

/-- The first file in sight that fits a report is the first that fits its whole path. -/
theorem firstFit_of_firstFit {sights : List Sight} (h : l.firstFit reported sights = some p) :
    l.firstFit p sights = some p := by
  have hreported : reported.parts <:+ p.parts :=
    List.isSuffixOf_iff_suffix.mp (endsWith_of_firstFit h)
  fun_induction firstFit l reported sights with
  | case1 => cases h
  | case2 names fault others ih => exact ih h
  | case3 names others _ =>
      obtain rfl := Option.some.inj h
      exact if_pos (List.isSuffixOf_iff_suffix.mpr List.suffix_rfl)
  | case4 names others hnot ih =>
      -- what ends with the path ends with the report
      have hnot' : ¬(l.below names).endsWith p = true := fun hends =>
        hnot (List.isSuffixOf_iff_suffix.mpr
          (hreported.trans (List.isSuffixOf_iff_suffix.mp hends)))
      rw [firstFit, if_neg hnot']
      exact ih h

/-- A file that a lookup has found is found by its whole path. -/
theorem locate_located (h : l.locate t reported = .ok p) : l.locate t p = .ok p := by
  rw [locate] at h ⊢
  cases hsights : l.sights t with
  | error fault =>
      rw [hsights] at h
      cases h
  | ok sights =>
      rw [hsights] at h
      dsimp only at h ⊢
      cases hfit : l.firstFit reported sights with
      | none =>
          rw [hfit] at h
          cases h
      | some p' =>
          rw [hfit] at h
          obtain rfl := Except.ok.inj h
          rw [firstFit_of_firstFit hfit]

end Locator

/-- The tests of a slot, each with its file. -/
def FileFailures.listed (f : FileFailures) : List (Path × FailingTest) :=
  f.tests.map (f.path, ·)

namespace FailureIndex

open Grouping Merge

variable {locate : Path → Except Problem Path} {index : FailureIndex}

/-! ## Found slots -/

/-- Slots of different files, each found where it is, are resolved to themselves. -/
theorem resolveEach_of_found (hfound : ∀ s ∈ index.slots, locate s.path = .ok s.path)
    (hdistinct : index.slots.Pairwise fun s s' => s.path.same s'.path = false) :
    index.resolveEach locate = index.slots.map fun s => ⟨s.path, .ok s⟩ := by
  have halike : index.slots.Pairwise fun s s' => alike (locatedKey locate) s s' = false := by
    refine hdistinct.imp_of_mem fun {s s'} hs hs' hne => ?_
    rw [← Bool.not_eq_true, alike_locatedKey_iff]
    rintro ⟨p, p', hp, hp', hsame⟩
    rw [hfound s hs] at hp
    rw [hfound s' hs'] at hp'
    cases hp
    cases hp'
    exact Bool.noConfusion (hne.symm.trans hsame)
  rw [resolveEach_eq, firsts_of_pairwise halike]
  refine List.map_congr_left fun s hs => ?_
  have hkey : locatedKey locate s = some s.path.parts := locatedKey_ok (hfound s hs)
  rw [filter_alike_of_pairwise hkey halike hs, mergedSlot, hfound s hs]
  simp [Except.map]

theorem exists_of_found {r : ResolvedSlot} {f : FileFailures} (hr : r ∈ index.resolveEach locate)
    (hf : r.located = .ok f) : ∃ s ∈ index.slots, locate s.path = .ok f.path := by
  rw [resolveEach_eq] at hr
  obtain ⟨s, hs, rfl⟩ := List.mem_map.mp hr
  obtain ⟨p, hp, hfp⟩ := located_mergedSlot hf
  exact ⟨s, mem_of_mem_firsts hs, hfp ▸ hp⟩

/-- The tests are listed just if every slot was found, and then slot by slot. -/
theorem locatedTests_eq_ok {slots : List ResolvedSlot} {tests : List (Path × FailingTest)} :
    locatedTests slots = .ok tests
      ↔ ∃ found : List FileFailures, slots.map (·.located) = found.map .ok
        ∧ tests = found.flatMap (·.listed) := by
  induction slots generalizing tests with
  | nil =>
      constructor
      · intro h
        cases h
        exact ⟨[], rfl, rfl⟩
      · rintro ⟨found, hfound, rfl⟩
        obtain rfl := List.map_eq_nil_iff.mp hfound.symm
        rfl
  | cons s ss ih =>
      rw [locatedTests, bind_eq_ok]
      constructor
      · rintro ⟨f, hf, h⟩
        obtain ⟨others, hothers, heq⟩ := bind_eq_ok.mp h
        obtain ⟨found, hfound, rfl⟩ := ih.mp hothers
        cases heq
        exact ⟨f :: found, by rw [List.map_cons, List.map_cons, hf, hfound], rfl⟩
      · rintro ⟨found, hfound, rfl⟩
        cases found with
        | nil => cases hfound
        | cons f found =>
            obtain ⟨hf, hfound⟩ := List.cons.inj hfound
            exact ⟨f, hf, bind_eq_ok.mpr ⟨_, ih.mpr ⟨found, hfound, rfl⟩, rfl⟩⟩

/-! ## Pushing found slots -/

/-- Slots without tests are not pushed. -/
theorem flatMap_listed_filter (found : List FileFailures) :
    (found.filter (!·.tests.isEmpty)).flatMap (·.listed) = found.flatMap (·.listed) := by
  induction found with
  | nil => rfl
  | cons f found ih =>
      rw [List.flatMap_cons, ← ih]
      cases htests : f.tests with
      | nil => rw [List.filter_cons_of_neg (by simp [htests]), FileFailures.listed, htests]; rfl
      | cons test tests => rw [List.filter_cons_of_pos (by simp [htests]), List.flatMap_cons]

section Listed

variable {f : FileFailures} {rest : List (Path × FailingTest)}

theorem path_of_mem_listed {x : Path × FailingTest} (h : x ∈ f.listed) : x.1 = f.path := by
  obtain ⟨test, -, rfl⟩ := List.mem_map.mp h
  rfl

/-- Behind the tests of one file come those of others: its group is its tests. -/
theorem filter_listed_append (h : ∀ x ∈ rest, f.path.same x.1 = false) :
    (f.listed ++ rest).filter (f.path.same ·.1) = f.listed := by
  have hown : ∀ x ∈ f.listed, f.path.same x.1 = true := fun x hx =>
    Path.same_iff.mpr (by rw [path_of_mem_listed hx])
  have hrest : rest.filter (f.path.same ·.1) = [] :=
    List.filter_eq_nil_iff.mpr fun x hx => by simp [h x hx]
  rw [List.filter_append, List.filter_eq_self.mpr hown, hrest, List.append_nil]

theorem filter_listed_append_of_ne {p : Path} (h : f.path.same p = false) :
    (f.listed ++ rest).filter (p.same ·.1) = rest.filter (p.same ·.1) := by
  have hown : f.listed.filter (p.same ·.1) = [] := by
    refine List.filter_eq_nil_iff.mpr fun x hx => ?_
    rw [path_of_mem_listed hx, Path.same_comm, h]
    exact Bool.false_ne_true
  rw [List.filter_append, hown, List.nil_append]

theorem firsts_listed_append (h : ∀ x ∈ rest, f.path.same x.1 = false) :
    firsts fileKey (f.listed ++ rest) = f.listed.take 1 ++ firsts fileKey rest := by
  cases htests : f.tests with
  | nil => rw [FileFailures.listed, htests]; rfl
  | cons test tests =>
      have hrest : rest.filter (!alike fileKey (f.path, test) ·) = rest := by
        refine List.filter_eq_self.mpr fun x hx => ?_
        rw [alike_fileKey]
        simpa using h x hx
      have hown : (tests.map (f.path, ·)).filter (!alike fileKey (f.path, test) ·) = [] := by
        refine List.filter_eq_nil_iff.mpr fun x hx => ?_
        obtain ⟨test', -, rfl⟩ := List.mem_map.mp hx
        simp [alike_fileKey, Path.same]
      rw [FileFailures.listed, htests, List.map_cons, List.cons_append, firsts_cons,
        List.filter_append, hown, hrest]
      rfl

end Listed

/-- Slots of different files that are pushed test by test are the slots again. -/
theorem slots_pushAll_listed {found : List FileFailures}
    (h : found.Pairwise fun f f' => f.path.same f'.path = false) :
    (pushAll ∅ (found.flatMap (·.listed))).slots = found.filter (!·.tests.isEmpty) := by
  rw [slots_eq_map (holds_pushAll_empty _)]
  induction found with
  | nil => rfl
  | cons f found ih =>
      obtain ⟨hf, hfound⟩ := List.pairwise_cons.mp h
      have hrest : ∀ x ∈ found.flatMap (·.listed), f.path.same x.1 = false := by
        intro x hx
        obtain ⟨f', hf', hx⟩ := List.mem_flatMap.mp hx
        rw [path_of_mem_listed hx]
        exact hf f' hf'
      -- the tests of `f` are in no group but the first, so the others are as they were
      have hothers : ((firsts fileKey (found.flatMap (·.listed))).map fun x =>
          (⟨x.1, ((f.listed ++ found.flatMap (·.listed)).filter (x.1.same ·.1)).map (·.2)⟩
            : FileFailures)) = found.filter (!·.tests.isEmpty) := by
        rw [← ih hfound]
        refine List.map_congr_left fun x hx => ?_
        rw [filter_listed_append_of_ne (hrest x (mem_of_mem_firsts hx))]
      rw [List.flatMap_cons, firsts_listed_append hrest, List.map_append, hothers]
      cases htests : f.tests with
      | nil => simp [FileFailures.listed, htests]
      | cons test tests =>
          have hhead : f.listed.take 1 = [(f.path, test)] := by simp [FileFailures.listed, htests]
          rw [hhead, List.map_singleton, filter_listed_append hrest,
            List.filter_cons_of_pos (by simp [htests])]
          simp [FileFailures.listed, Function.comp_def]

/-! ## Resolving -/

theorem resolve_eq_ok {resolved : FailureIndex} :
    index.resolve locate = .ok resolved
      ↔ ∃ found : List FileFailures,
        (index.resolveEach locate).map (·.located) = found.map .ok
          ∧ resolved = pushAll ∅ (found.flatMap (·.listed)) := by
  rw [resolve, bind_eq_ok]
  constructor
  · rintro ⟨tests, htests, heq⟩
    obtain ⟨found, hfound, rfl⟩ := locatedTests_eq_ok.mp htests
    exact ⟨found, hfound, (Except.ok.inj heq).symm⟩
  · rintro ⟨found, hfound, rfl⟩
    exact ⟨_, locatedTests_eq_ok.mpr ⟨found, hfound, rfl⟩, rfl⟩

theorem pairwise_found {found : List FileFailures}
    (h : (index.resolveEach locate).map (·.located) = found.map .ok) :
    found.Pairwise fun f f' => f.path.same f'.path = false := by
  have hdistinct : ((index.resolveEach locate).map (·.located)).Pairwise fun r r' =>
      ∀ f f', r = .ok f → r' = .ok f' → f.path.same f'.path = false :=
    List.pairwise_map.mpr (pairwise_resolveEach index locate)
  rw [h, List.pairwise_map] at hdistinct
  exact hdistinct.imp fun hff => hff _ _ rfl rfl

/-- **Resolving a resolved index changes nothing.** Every file is found where it was
found, no slots are merged, and the tests are pushed in the order in which they
are. -/
theorem resolve_resolved {l : Locator} {t : FileTree} {resolved : FailureIndex}
    (h : index.resolve (l.locate t) = .ok resolved) :
    resolved.resolve (l.locate t) = .ok resolved := by
  obtain ⟨found, hfound, rfl⟩ := resolve_eq_ok.mp h
  have hdistinct := pairwise_found hfound
  have hslots := slots_pushAll_listed hdistinct
  have hlocated : ∀ f ∈ found, l.locate t f.path = .ok f.path := by
    intro f hf
    have hmem : Except.ok f ∈ (index.resolveEach (l.locate t)).map (·.located) :=
      hfound ▸ List.mem_map_of_mem hf
    obtain ⟨r, hr, hrf⟩ := List.mem_map.mp hmem
    obtain ⟨s, -, hs⟩ := exists_of_found hr hrf
    exact Locator.locate_located hs
  have hagain : (pushAll ∅ (found.flatMap (·.listed))).resolveEach (l.locate t)
      = (found.filter (!·.tests.isEmpty)).map fun s => ⟨s.path, .ok s⟩ := by
    rw [resolveEach_of_found, hslots]
    · intro f hf
      rw [hslots] at hf
      exact hlocated f (List.mem_of_mem_filter hf)
    · rw [hslots]
      exact hdistinct.filter _
  refine resolve_eq_ok.mpr ⟨found.filter (!·.tests.isEmpty), ?_, ?_⟩
  · rw [hagain, List.map_map]
    rfl
  · rw [flatMap_listed_filter]

/-- A tree with a file whose path ends with the whole path of another one. -/
def twoDeep : FileTree :=
  (((FileTree.ofStart []).write ⟨"a/x_test.go"⟩ .empty).write ⟨"a/a/x_test.go"⟩ .empty).write
    ⟨"a/y_test.go"⟩ .empty

/-- Two reports of one file, and one of another between them. -/
def threeReports : FailureIndex :=
  pushAll ∅ [(⟨"a/x_test.go"⟩, ⟨"TestA", "bad"⟩), (⟨"y_test.go"⟩, ⟨"TestB", "worse"⟩),
    (⟨"x_test.go"⟩, ⟨"TestC", "worst"⟩)]

theorem resolve_resolved_twoDeep :
    let locate := Locator.locate { root := ⟨"a"⟩ } twoDeep
    let resolved := pushAll ∅ [(⟨"a/a/x_test.go"⟩, ⟨"TestA", "bad"⟩),
      (⟨"a/a/x_test.go"⟩, ⟨"TestC", "worst"⟩), (⟨"a/y_test.go"⟩, ⟨"TestB", "worse"⟩)]
    threeReports.resolve locate = .ok resolved ∧ resolved.resolve locate = .ok resolved := by
  intro locate resolved
  have h : threeReports.resolve locate = .ok resolved := by decide +kernel
  exact ⟨h, resolve_resolved h⟩

end FailureIndex

end TestTriage
