import Mathlib.Data.List.Induction
import TestTriage.Proofs.Paths
import TestTriage.Proofs.Walking

/-!
# The first file that fits

A reported file is looked up by a walk that stops at the first file whose
path ends with the reported parts. What the walk stops at is said here
without it: of the regular files that fit (`Fits`), the one whose names
come first, compared name by name from the root (`IsFirst`). The walk
meets the files in this order (`pairwise_files`), so the first one met
that fits is the least of all that do. What the walk cannot read on its way
is no file, and passing it over changes nothing (`firstFit_eq`).
-/

namespace TestTriage

open Text (utf8)

/-- Do the names lead from the root to a regular file? The root may be a link to a
directory; below it links are not followed. No names lead to the root itself. -/
inductive FileTree.HasFileBelow (t : FileTree) (root : Path) : List String → Prop where
  | itself {place : List String} {content : Except Fault ByteArray}
      (h : t.resolve .keep root = .ok ⟨place, .file content⟩) : HasFileBelow t root []
  | within {place names : List String} {d : Directory}
      (h : t.resolve .follow root = .ok ⟨place, .directory d⟩) (hfile : d.HasFile names) :
      HasFileBelow t root names

namespace Locator

variable {l : Locator} {t : FileTree} {reported : Path} {names : List String}

/-- A regular file below the root, in no ignored directory, whose path ends with the
reported parts. -/
structure Fits (l : Locator) (t : FileTree) (reported : Path) (names : List String) : Prop where
  file : t.HasFileBelow l.root names
  visible : ∀ n ∈ names.dropLast, n ∉ l.ignored
  ends : reported.parts <:+ (l.below names).parts

/-- The first of the files that fit, compared name by name. -/
structure IsFirst (l : Locator) (t : FileTree) (reported : Path) (names : List String) : Prop
    extends Fits l t reported names where
  first : ∀ others, l.Fits t reported others → names.map utf8 ≤ others.map utf8

/-- Names below the root are parts behind those of the root. -/
theorem parts_below (l : Locator) {names : List String} (h : ∀ n ∈ names, Path.IsName n) :
    (l.below names).parts = l.root.parts ++ names.map .name := by
  induction names using List.reverseRecOn with
  | nil => simp [below]
  | append_singleton ns n ih =>
      have hns : ∀ m ∈ ns, Path.IsName m := fun m hm => h m (List.mem_append_left _ hm)
      have hn : Path.IsName n := h n (List.mem_append_right _ List.mem_cons_self)
      rw [below, List.foldl_append, ← below, List.foldl_cons, List.foldl_nil,
        Path.parts_join _ hn, ih hns]
      simp

/-! ## The walk from the root -/

/-- The names of the files that a walk from the root meets, in its order. -/
structure IsWalk (l : Locator) (t : FileTree) (walk : List (List String)) : Prop where
  ordered : walk.Pairwise fun ns ms => ns.map utf8 < ms.map utf8
  mem_iff : ∀ names, names ∈ walk
    ↔ t.HasFileBelow l.root names ∧ ∀ n ∈ names.dropLast, n ∉ l.ignored

theorem isWalk_files {place : List String} {d : Directory}
    (h : t.resolve .follow l.root = .ok ⟨place, .directory d⟩) :
    l.IsWalk t (d.files l.ignored) := by
  have hd : d.Ordered := by simpa [Entry.Ordered] using FileTree.ordered_of_resolve h
  refine ⟨Directory.pairwise_files hd, fun names => ?_⟩
  rw [Directory.mem_files_iff hd]
  refine and_congr_left fun _ => ⟨.within h, fun hfile => ?_⟩
  cases hfile with
  | itself hkeep =>
      rw [FileTree.resolve_follow_of_keep hkeep (by simp)] at h
      cases h
  | within h' hfile =>
      rw [h] at h'
      cases h'
      exact hfile

theorem isWalk_root {place : List String} {content : Except FileTree.Fault ByteArray}
    (h : t.resolve .keep l.root = .ok ⟨place, .file content⟩) : l.IsWalk t [[]] := by
  refine ⟨List.pairwise_singleton _ _, fun names => ?_⟩
  rw [List.mem_singleton]
  constructor
  · rintro rfl
    exact ⟨.itself h, by simp⟩
  · rintro ⟨hfile, -⟩
    cases hfile with
    | itself _ => rfl
    | within hfollow _ =>
        rw [FileTree.resolve_follow_of_keep h (by simp)] at hfollow
        cases hfollow

theorem isWalk_nil
    (hkeep : ∀ place content, t.resolve .keep l.root ≠ .ok ⟨place, .file content⟩)
    (hfollow : ∀ place d, t.resolve .follow l.root ≠ .ok ⟨place, .directory d⟩) :
    l.IsWalk t [] := by
  refine ⟨.nil, fun names => ⟨fun h => absurd h List.not_mem_nil, ?_⟩⟩
  rintro ⟨hfile, -⟩
  cases hfile with
  | itself h => exact absurd h (hkeep _ _)
  | within h _ => exact absurd h (hfollow _ _)

/-- A walk comes to the files below the root, unless the root cannot be walked. -/
theorem sights_spec (l : Locator) (t : FileTree) :
    match t.resolve .follow l.root with
    | .error fault => l.sights t = .error fault
    | .ok _ => ∃ sights, l.sights t = .ok sights ∧ l.IsWalk t (sights.filterMap Sight.file?) := by
  rw [sights]
  cases hkeep : t.resolve .keep l.root with
  | error fault =>
      rw [FileTree.resolve_follow_of_keep hkeep (by simp)]
      rfl
  | ok found =>
      obtain ⟨place, e⟩ := found
      cases e with
      | file content =>
          rw [FileTree.resolve_follow_of_keep hkeep (by simp)]
          exact ⟨_, rfl, isWalk_root hkeep⟩
      | link _ | directory _ | unreadable _ =>
          have hnofile : ∀ place content,
              t.resolve .keep l.root ≠ .ok ⟨place, .file content⟩ := by simp [hkeep]
          cases hfollow : t.resolve .follow l.root with
          | error fault => rfl
          | ok found =>
              obtain ⟨place', e⟩ := found
              cases e with
              | directory d => exact ⟨_, rfl, isWalk_files hfollow⟩
              | file _ | link _ | unreadable _ =>
                  exact ⟨_, rfl, isWalk_nil hnofile (by simp [hfollow])⟩

/-! ## The first that fits -/

/-- The first file that fits is looked for among the files in sight. -/
theorem firstFit_eq (l : Locator) (reported : Path) (sights : List Sight) :
    l.firstFit reported sights
      = ((sights.filterMap Sight.file?).find? fun ns => (l.below ns).endsWith reported).map
          l.below := by
  induction sights with
  | nil => rfl
  | cons sight others ih =>
      cases sight with
      | unreadable names fault => exact ih
      | file names =>
          have hfiles : (Sight.file names :: others).filterMap Sight.file?
              = names :: others.filterMap Sight.file? := rfl
          rw [firstFit, ih, hfiles, List.find?_cons]
          cases (l.below names).endsWith reported <;> rfl

theorem IsWalk.fits_iff {walk : List (List String)} (h : l.IsWalk t walk) :
    l.Fits t reported names ↔ names ∈ walk ∧ (l.below names).endsWith reported = true := by
  rw [h.mem_iff, Path.endsWith, List.isSuffixOf_iff_suffix]
  exact ⟨fun hfits => ⟨⟨hfits.file, hfits.visible⟩, hfits.ends⟩,
    fun ⟨⟨hfile, hvisible⟩, hends⟩ => ⟨hfile, hvisible, hends⟩⟩

/-- Different names compare one way or the other. -/
theorem eq_of_map_utf8 {ns ms : List String} (h : ns.map utf8 ≤ ms.map utf8)
    (h' : ms.map utf8 ≤ ns.map utf8) : ns = ms := by
  have hinj : Function.Injective utf8 := fun s s' hs => Text.utf8_inj.mp hs
  exact hinj.list_map (List.le_antisymm h h')

/-- The first file met that fits is the first that fits. -/
theorem IsWalk.find?_eq_some_iff {walk : List (List String)} (h : l.IsWalk t walk) :
    walk.find? (fun ns => (l.below ns).endsWith reported) = some names
      ↔ l.IsFirst t reported names := by
  have hfirst : ∀ {ns}, walk.find? (fun ns => (l.below ns).endsWith reported) = some ns →
      l.IsFirst t reported ns := by
    intro ns hns
    obtain ⟨hends, before, behind, hsplit, hbefore⟩ := List.find?_eq_some_iff_append.mp hns
    have hmem : ns ∈ walk := hsplit ▸ List.mem_append_right _ List.mem_cons_self
    refine ⟨h.fits_iff.mpr ⟨hmem, hends⟩, fun others hothers => ?_⟩
    obtain ⟨hothers, hfits⟩ := h.fits_iff.mp hothers
    have hordered := h.ordered
    rw [hsplit] at hothers hordered
    rcases List.mem_append.mp hothers with hothers | hothers
    · simpa [hfits] using hbefore others hothers
    · rcases List.mem_cons.mp hothers with rfl | hothers
      · exact List.le_refl _
      · have hbehind := (List.pairwise_append.mp hordered).2.1
        exact List.le_of_lt ((List.pairwise_cons.mp hbehind).1 others hothers)
  refine ⟨hfirst, fun hnames => ?_⟩
  cases hfind : walk.find? (fun ns => (l.below ns).endsWith reported) with
  | none =>
      obtain ⟨hmem, hends⟩ := h.fits_iff.mp hnames.toFits
      simpa [hends] using List.find?_eq_none.mp hfind names hmem
  | some ns =>
      have hns := hfirst hfind
      rw [eq_of_map_utf8 (hns.first names hnames.toFits) (hnames.first ns hns.toFits)]

theorem locate_of_error {fault : FileTree.Fault} (h : t.resolve .follow l.root = .error fault) :
    l.locate t reported = .error (.unwalkableRoot l.root fault) := by
  have hspec := l.sights_spec t
  rw [h] at hspec
  rw [locate, hspec]

theorem locate_of_ok (reported : Path) {found : FileTree.Found}
    (h : t.resolve .follow l.root = .ok found) :
    ∃ walk, l.IsWalk t walk
      ∧ l.locate t reported
        = match walk.find? fun ns => (l.below ns).endsWith reported with
          | some names => .ok (l.below names)
          | none => .error (.sourceNotFound reported.text l.root) := by
  have hspec := l.sights_spec t
  rw [h] at hspec
  obtain ⟨sights, hsights, hwalk⟩ := hspec
  refine ⟨_, hwalk, ?_⟩
  rw [locate, hsights]
  simp only [l.firstFit_eq reported sights]
  cases (sights.filterMap Sight.file?).find? fun ns => (l.below ns).endsWith reported <;> rfl

theorem exists_found_of_fits (h : l.Fits t reported names) :
    ∃ found, t.resolve .follow l.root = .ok found := by
  cases h.file with
  | itself hkeep => exact ⟨_, FileTree.resolve_follow_of_keep hkeep (by simp)⟩
  | within hfollow _ => exact ⟨_, hfollow⟩

/-- A lookup gives the first file that fits, if any does. -/
theorem locate_eq_ok {p : Path} :
    l.locate t reported = .ok p ↔ ∃ names, l.IsFirst t reported names ∧ p = l.below names := by
  cases hfollow : t.resolve .follow l.root with
  | error fault =>
      rw [locate_of_error hfollow]
      refine ⟨(by cases ·), fun ⟨names, hnames, _⟩ => ?_⟩
      obtain ⟨found, hfound⟩ := exists_found_of_fits hnames.toFits
      rw [hfollow] at hfound
      cases hfound
  | ok found =>
      obtain ⟨walk, hwalk, hlocate⟩ := locate_of_ok reported hfollow
      simp only [← hwalk.find?_eq_some_iff, hlocate]
      cases hfind : walk.find? fun ns => (l.below ns).endsWith reported with
      | none => simp
      | some ns => simp [eq_comm]

theorem locate_eq_notFound :
    l.locate t reported = .error (.sourceNotFound reported.text l.root)
      ↔ (∃ found, t.resolve .follow l.root = .ok found) ∧ ∀ names, ¬l.Fits t reported names := by
  cases hfollow : t.resolve .follow l.root with
  | error fault => simp [locate_of_error hfollow]
  | ok found =>
      obtain ⟨walk, hwalk, hlocate⟩ := locate_of_ok reported hfollow
      have hnone : (∀ names, ¬l.Fits t reported names)
          ↔ walk.find? (fun ns => (l.below ns).endsWith reported) = none := by
        rw [List.find?_eq_none]
        exact ⟨fun h names hmem hends => h names (hwalk.fits_iff.mpr ⟨hmem, hends⟩),
          fun h names hfits => (hwalk.fits_iff.mp hfits).elim (h names)⟩
      rw [hnone, hlocate]
      cases hfind : walk.find? fun ns => (l.below ns).endsWith reported <;> simp

/-- **Looking up finds the first file that fits.** It fails with the fault that keeps
the root from being walked, or else because no file fits, and tells the reported name
and the root then. Otherwise it gives the path of the first file that fits. The parts
of that path are the root's and then the names, so a report may reach into the
root. -/
theorem locate_first (l : Locator) (t : FileTree) (reported : Path) :
    (∀ fault, l.locate t reported = .error (.unwalkableRoot l.root fault)
        ↔ t.resolve .follow l.root = .error fault)
      ∧ (l.locate t reported = .error (.sourceNotFound reported.text l.root)
        ↔ (∃ found, t.resolve .follow l.root = .ok found)
          ∧ ∀ names, ¬l.Fits t reported names)
      ∧ (∀ p, l.locate t reported = .ok p
        ↔ ∃ names, l.IsFirst t reported names ∧ p = l.below names)
      ∧ ((∃ names, l.Fits t reported names) → ∃ p, l.locate t reported = .ok p)
      ∧ ∀ names, (∀ n ∈ names, Path.IsName n) →
          (l.below names).parts = l.root.parts ++ names.map .name := by
  refine ⟨fun fault => ?_, locate_eq_notFound, fun p => locate_eq_ok, fun ⟨names, hfits⟩ => ?_,
    fun names h => l.parts_below h⟩
  · cases hfollow : t.resolve .follow l.root with
    | error fault' => rw [locate_of_error hfollow]; simp
    | ok found =>
        obtain ⟨walk, hwalk, hlocate⟩ := locate_of_ok reported hfollow
        rw [hlocate]
        split <;> simp
  · obtain ⟨found, hfollow⟩ := exists_found_of_fits hfits
    obtain ⟨walk, hwalk, hlocate⟩ := locate_of_ok reported hfollow
    rw [hlocate]
    split
    · exact ⟨_, rfl⟩
    · next hfind =>
        obtain ⟨hmem, hends⟩ := hwalk.fits_iff.mp hfits
        exact absurd hends (List.find?_eq_none.mp hfind names hmem)

/-- Names are compared, not paths as texts: `a` comes before `a-b`, though `a-b/x.go`
comes before `a/x.go`. -/
example :
    let t := ((FileTree.ofStart []).write ⟨"a-b/x.go"⟩ .empty).write ⟨"a/x.go"⟩ .empty
    (locate { root := ⟨"."⟩ } t ⟨"x.go"⟩).toOption = some ⟨"./a/x.go"⟩ := by
  decide +kernel

/-- An unreadable directory is passed over, but a run cannot begin at one. -/
example :
    let t := ((FileTree.ofStart []).makeUnreadable ⟨"a"⟩ .denied).write ⟨"b/x.go"⟩ .empty
    locate { root := ⟨"."⟩ } t ⟨"x.go"⟩ = .ok ⟨"./b/x.go"⟩
      ∧ locate { root := ⟨"a"⟩ } t ⟨"x.go"⟩ = .error (.unwalkableRoot ⟨"a"⟩ .denied) := by
  decide +kernel

end Locator

end TestTriage
