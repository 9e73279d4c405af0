import Mathlib.Data.List.Basic
import Mathlib.Data.List.Pairwise
import TestTriage.Locate

/-!
# Walking a tree

A walk meets a directory's content at the place of its name among its
siblings. In a directory whose names are in order this is the order of the
files' names, compared name by name (`pairwise_files`), and the walk meets
a file just if names lead to it and no directory on the way is ignored
(`mem_files_iff`). No names lead through an unreadable directory, so it
adds no file to the walk, as if it were empty (`files_unreadable`).

Where the walk begins is found by resolving the root twice: as it is, and
through the link that it may be. The two differ only if it is a link
(`resolve_follow_of_keep`), and both lead to ordered directories
(`ordered_of_resolve`).
-/

namespace TestTriage

open Text (utf8)

/-! ## Names in a directory -/

namespace Directory

variable {d inner : Directory} {n m : String} {names : List String} {ignored : List String}

theorem find?_eq_none (h : n ∉ d.names) : d.find? n = none := by
  induction d with
  | empty => rfl
  | cons m e d ih =>
      rw [Directory.names, List.mem_cons, not_or] at h
      rw [find?, if_neg h.1, ih h.2]

theorem entryAt?_eq_none (h : n ∉ d.names) : d.entryAt? (n :: names) = none := by
  rw [entryAt?, find?_eq_none h]

theorem entryAt?_cons_of_ne {e : Entry} (h : m ≠ n) :
    (cons n e d).entryAt? (m :: names) = d.entryAt? (m :: names) := by
  rw [entryAt?, entryAt?, find?, if_neg h]

/-- In an ordered directory the first name is that of no other entry. -/
theorem Ordered.notMem_names {e : Entry} (h : (cons n e d).Ordered) : n ∉ d.names := by
  rw [Ordered] at h
  exact fun hn => List.lt_irrefl _ (h.2.1 n hn)

theorem Ordered.entryAt? (hd : d.Ordered) {e : Entry} (h : d.entryAt? names = some e) :
    e.Ordered := by
  induction names generalizing d with
  | nil =>
      cases h
      simpa [Entry.Ordered] using hd
  | cons n ns ih =>
      rw [Directory.entryAt?] at h
      cases hfind : d.find? n with
      | none => simp [hfind] at h
      | some entry =>
          have hentry := hd.entry hfind
          cases entry with
          | directory i =>
              simp only [hfind] at h
              exact ih (by simpa [Entry.Ordered] using hentry) h
          | file _ | link _ | unreadable _ =>
              simp only [hfind] at h
              split at h
              · exact Option.some.inj h ▸ hentry
              · cases h

end Directory

/-! ## Files in walking order -/

/-- The names of a file in sight. -/
def Sight.file? : Sight → Option (List String)
  | .file names => some names
  | .unreadable _ _ => none

namespace Directory

variable {d inner : Directory} {n : String} {names : List String} {ignored : List String}

/-- The regular files that a walk comes to, each by the names that lead to it. -/
def files (ignored : List String) (d : Directory) : List (List String) :=
  (d.walk ignored).filterMap Sight.file?

theorem files_file {content : Except FileTree.Fault ByteArray} :
    (cons n (.file content) d).files ignored = [n] :: d.files ignored := rfl

theorem files_link {target : Path} :
    (cons n (.link target) d).files ignored = d.files ignored := rfl

theorem files_directory :
    (cons n (.directory inner) d).files ignored
      = (if ignored.contains n then [] else (inner.files ignored).map (n :: ·))
        ++ d.files ignored := by
  have hunder : Sight.file? ∘ Sight.under n = fun s => s.file?.map (n :: ·) := by
    funext s
    cases s <;> rfl
  rw [files, walk, List.filterMap_append, files, files]
  split
  · rfl
  · rw [List.filterMap_map, hunder, List.map_filterMap]

/-- The files in sight are those that there were if the directory were empty. -/
theorem files_unreadable {fault : FileTree.Fault} :
    (cons n (.unreadable fault) d).files ignored = d.files ignored := by
  rw [files, walk, List.filterMap_append, files]
  split <;> rfl

/-- Do the names lead to a regular file? -/
def HasFile (d : Directory) (names : List String) : Prop :=
  ∃ content, d.entryAt? names = some (.file content)

theorem HasFile.exists_cons (h : d.HasFile names) :
    ∃ n ns, names = n :: ns ∧ n ∈ d.names := by
  obtain ⟨content, h⟩ := h
  cases names with
  | nil => cases h
  | cons n ns =>
      refine ⟨n, ns, rfl, ?_⟩
      by_contra hn
      rw [entryAt?_eq_none hn] at h
      cases h

end Directory

/-- Do the names lead from the entry to a regular file? -/
def Entry.HasFile : Entry → List String → Prop
  | .file _, names => names = []
  | .link _, _ => False
  | .directory d, names => d.HasFile names
  | .unreadable _, _ => False

namespace Directory

variable {d inner : Directory} {n m : String} {names : List String} {ignored : List String}

theorem hasFile_cons {e : Entry} (hn : n ∉ d.names) :
    (cons n e d).HasFile names
      ↔ (∃ ns, names = n :: ns ∧ e.HasFile ns) ∨ d.HasFile names := by
  cases names with
  | nil => simp [HasFile, entryAt?]
  | cons m ms =>
      by_cases hm : m = n
      · subst hm
        have hother : ¬d.HasFile (m :: ms) := fun h => by
          obtain ⟨k, ks, heq, hk⟩ := h.exists_cons
          exact hn ((List.cons.inj heq).1 ▸ hk)
        rw [or_iff_left hother]
        cases e <;> simp [HasFile, Entry.HasFile, entryAt?, find?]
      · simp [HasFile, entryAt?_cons_of_ne hm, hm]

theorem HasFile.ne_nil (h : d.HasFile names) : names ≠ [] := by
  obtain ⟨n, ns, rfl, -⟩ := h.exists_cons
  exact List.cons_ne_nil n ns

/-- The walk meets the files that names lead to past no ignored directory. -/
theorem mem_files_iff (hd : d.Ordered) :
    names ∈ d.files ignored ↔ d.HasFile names ∧ ∀ n ∈ names.dropLast, n ∉ ignored := by
  fun_induction walk ignored d generalizing names with
  | case1 =>
      have hnone : ¬empty.HasFile names := fun h => by
        obtain ⟨n, ns, -, hn⟩ := h.exists_cons
        exact List.not_mem_nil hn
      simp [files, walk, hnone]
  | case2 n content d ih =>
      rw [files_file, List.mem_cons, ih hd.2.2, hasFile_cons hd.notMem_names]
      constructor
      · rintro (rfl | ⟨hfile, hvisible⟩)
        · exact ⟨.inl ⟨[], rfl, rfl⟩, by simp⟩
        · exact ⟨.inr hfile, hvisible⟩
      · rintro ⟨⟨ns, rfl, rfl⟩ | hfile, hvisible⟩
        · exact .inl rfl
        · exact .inr ⟨hfile, hvisible⟩
  | case3 n target d ih =>
      rw [files_link, ih hd.2.2, hasFile_cons hd.notMem_names]
      simp [Entry.HasFile]
  | case4 n inner d ihInner ih =>
      have hinner : names ∈ (if ignored.contains n then [] else (inner.files ignored).map (n :: ·))
          ↔ ∃ ns, names = n :: ns ∧ inner.HasFile ns ∧ ∀ m ∈ names.dropLast, m ∉ ignored := by
        by_cases hn : n ∈ ignored
        · rw [if_pos (by simpa using hn)]
          refine ⟨fun h => absurd h List.not_mem_nil, ?_⟩
          rintro ⟨ns, rfl, hfile, hvisible⟩
          rw [List.dropLast_cons_of_ne_nil hfile.ne_nil] at hvisible
          exact absurd hn (hvisible n List.mem_cons_self)
        · rw [if_neg (by simpa using hn), List.mem_map]
          constructor
          · rintro ⟨ns, hns, rfl⟩
            obtain ⟨hfile, hvisible⟩ := (ihInner hd.1).mp hns
            refine ⟨ns, rfl, hfile, ?_⟩
            rw [List.dropLast_cons_of_ne_nil hfile.ne_nil]
            exact List.forall_mem_cons.mpr ⟨hn, hvisible⟩
          · rintro ⟨ns, rfl, hfile, hvisible⟩
            rw [List.dropLast_cons_of_ne_nil hfile.ne_nil] at hvisible
            exact ⟨ns, (ihInner hd.1).mpr ⟨hfile, (List.forall_mem_cons.mp hvisible).2⟩, rfl⟩
      rw [files_directory, List.mem_append, hinner, ih hd.2.2, hasFile_cons hd.notMem_names]
      constructor
      · rintro (⟨ns, heq, hfile, hvisible⟩ | ⟨hfile, hvisible⟩)
        · exact ⟨.inl ⟨ns, heq, hfile⟩, hvisible⟩
        · exact ⟨.inr hfile, hvisible⟩
      · rintro ⟨⟨ns, heq, hfile⟩ | hfile, hvisible⟩
        · exact .inl ⟨ns, heq, hfile, hvisible⟩
        · exact .inr ⟨hfile, hvisible⟩
  | case5 n fault d ih =>
      rw [files_unreadable, ih hd.2.2, hasFile_cons hd.notMem_names]
      simp [Entry.HasFile]

/-- The files below a name come in front of those below later names. -/
theorem lt_of_mem_files {ns ms : List String} (hd : d.Ordered) (hn : ∀ m ∈ d.names, utf8 n < utf8 m)
    (hms : ms ∈ d.files ignored) : (n :: ns).map utf8 < ms.map utf8 := by
  obtain ⟨m, ks, rfl, hm⟩ := ((mem_files_iff hd).mp hms).1.exists_cons
  exact List.cons_lt_cons_iff.mpr (.inl (hn m hm))

/-- The walk meets files in the order of their names, compared name by name. -/
theorem pairwise_files (hd : d.Ordered) :
    (d.files ignored).Pairwise fun ns ms => ns.map utf8 < ms.map utf8 := by
  fun_induction walk ignored d with
  | case1 => exact .nil
  | case2 n content d ih =>
      rw [files_file]
      exact List.pairwise_cons.mpr
        ⟨fun ms hms => lt_of_mem_files hd.2.2 hd.2.1 hms, ih hd.2.2⟩
  | case3 n target d ih =>
      rw [files_link]
      exact ih hd.2.2
  | case4 n inner d ihInner ih =>
      rw [files_directory]
      refine List.pairwise_append.mpr ⟨?_, ih hd.2.2, fun ns hns ms hms => ?_⟩
      · split
        · exact .nil
        · rw [List.pairwise_map]
          exact (ihInner hd.1).imp fun h => List.cons_lt_cons_iff.mpr (.inr ⟨rfl, h⟩)
      · split at hns
        · exact absurd hns List.not_mem_nil
        · obtain ⟨ks, -, rfl⟩ := List.mem_map.mp hns
          exact lt_of_mem_files hd.2.2 hd.2.1 hms
  | case5 n fault d ih =>
      rw [files_unreadable]
      exact ih hd.2.2

end Directory

/-! ## Where a path leads -/

namespace FileTree

variable {t : FileTree} {last : LastLink}

theorem ordered_of_entryAt? (t : FileTree) {names : List String} {e : Entry}
    (h : t.top.entryAt? names = some e) : e.Ordered :=
  t.ordered.entryAt? h

/-- What a path leads to is in order if what links lead to is. -/
theorem ordered_of_along {across : List String → List (List Char) → Except Fault Found}
    (hacross : ∀ {names segments found}, across names segments = .ok found → found.entry.Ordered)
    {names : List String} {segments : List (List Char)} {found : Found}
    (h : t.along last across names segments = .ok found) : found.entry.Ordered := by
  induction segments generalizing names with
  | nil =>
      rw [along] at h
      split at h
      · cases h
      · next e _ he =>
          cases h
          exact t.ordered_of_entryAt? he
      · cases h
  | cons s rest ih =>
      rw [along] at h
      split at h
      · split at h
        · exact ih h
        · split at h
          · exact ih h
          · dsimp only at h
            split at h
            · cases h
            · split at h
              · cases h
                simp [Entry.Ordered]
              · exact hacross h
            · exact ih h
      · cases h
      · cases h
      · cases h

theorem ordered_of_throughLinks {links : Nat} {names : List String}
    {segments : List (List Char)} {found : Found}
    (h : t.throughLinks last links names segments = .ok found) : found.entry.Ordered := by
  induction links generalizing names segments found with
  | zero => exact ordered_of_along (fun h => by cases h) h
  | succ links ih => exact ordered_of_along ih h

theorem ordered_of_resolve {p : Path} {found : Found} (h : t.resolve last p = .ok found) :
    found.entry.Ordered := by
  rw [resolve] at h
  split at h
  · cases h
  · exact ordered_of_throughLinks h

/-- Keeping the last link finds what following it finds, or else that link. -/
def KeepsOr (kept followed : Except Fault Found) : Prop :=
  kept = followed ∨ ∃ names target, kept = .ok ⟨names, .link target⟩

theorem along_keep_or {keep follow : List String → List (List Char) → Except Fault Found}
    (hacross : ∀ names segments, KeepsOr (keep names segments) (follow names segments))
    (names : List String) (segments : List (List Char)) :
    KeepsOr (t.along .keep keep names segments) (t.along .follow follow names segments) := by
  induction segments generalizing names with
  | nil => exact .inl rfl
  | cons s rest ih =>
      rw [along, along]
      split
      · split
        · exact ih _
        · split
          · exact ih _
          · dsimp only
            split
            · exact .inl rfl
            · next target _ =>
                by_cases hlast : rest = []
                · exact .inr ⟨names ++ [String.ofList s], target, by simp [hlast]⟩
                · simpa [hlast] using hacross _ _
            · exact ih _
      · exact .inl rfl
      · exact .inl rfl
      · exact .inl rfl

theorem resolve_keep_or (t : FileTree) (p : Path) :
    KeepsOr (t.resolve .keep p) (t.resolve .follow p) := by
  have hthrough : ∀ links names segments,
      KeepsOr (t.throughLinks .keep links names segments)
        (t.throughLinks .follow links names segments) := by
    intro links
    induction links with
    | zero => exact along_keep_or fun _ _ => .inl rfl
    | succ links ih => exact along_keep_or ih
  rw [resolve, resolve]
  split
  · exact .inl rfl
  · exact hthrough _ _ _

/-- A path that does not end with a link leads to the same place either way. -/
theorem resolve_follow_of_keep {p : Path} {kept : Except Fault Found}
    (h : t.resolve .keep p = kept) (hkept : ∀ names target, kept ≠ .ok ⟨names, .link target⟩) :
    t.resolve .follow p = kept := by
  rcases t.resolve_keep_or p with heq | ⟨names, target, heq⟩
  · rw [← heq, h]
  · exact absurd (h.symm.trans heq) (hkept names target)

end FileTree

end TestTriage
