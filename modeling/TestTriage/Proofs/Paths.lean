import TestTriage.Pairing

/-!
# Names behind paths

A path is its parts. A name put behind a path, whether or not the path
ends with a slash, becomes one part more (`parts_join`), and that part is
the file name of the whole. The names that this is said of are those that
parts can be made of (`IsName`), so they are the file names of paths.
Segments that add nothing may be left out, except in front
(`parts_idle`, `head?_parts_here`).

A test file and the file it tests have different file names, so they are
never the same path by their parts (`implementationPath_eq_self`).
-/

namespace TestTriage

/-! ## Pieces between separators -/

namespace Text

variable {α : Type} [DecidableEq α] {separator : α}

theorem split_cons_of_ne {x : α} (h : x ≠ separator) (xs : List α) :
    ∃ piece pieces, split separator xs = piece :: pieces
      ∧ split separator (x :: xs) = (x :: piece) :: pieces := by
  induction xs generalizing x with
  | nil => exact ⟨[], [], rfl, by simp [split, h]⟩
  | cons y ys ih =>
      by_cases hy : y = separator
      · exact ⟨[], split separator ys, by simp [split, hy], by simp [split, hy, h]⟩
      · obtain ⟨piece, pieces, -, heq⟩ := ih hy
        exact ⟨y :: piece, pieces, heq, by rw [split, if_neg h, heq]⟩

theorem split_ne_nil (xs : List α) : split separator xs ≠ [] := by
  cases xs with
  | nil => exact List.cons_ne_nil _ _
  | cons x xs =>
      by_cases hx : x = separator
      · rw [split, if_pos hx]
        exact List.cons_ne_nil _ _
      · obtain ⟨piece, pieces, -, hcons⟩ := split_cons_of_ne hx xs
        rw [hcons]
        exact List.cons_ne_nil _ _

theorem split_of_notMem {xs : List α} (h : separator ∉ xs) : split separator xs = [xs] := by
  induction xs with
  | nil => rfl
  | cons x xs ih =>
      rw [List.mem_cons, not_or] at h
      rw [split, if_neg (Ne.symm h.1), ih h.2]

theorem split_append_cons (xs ys : List α) :
    split separator (xs ++ separator :: ys) = split separator xs ++ split separator ys := by
  induction xs with
  | nil => simp [split]
  | cons x xs ih =>
      by_cases hx : x = separator
      · simp [split, hx, ih]
      · obtain ⟨piece, pieces, hxs, hcons⟩ := split_cons_of_ne hx xs
        rw [hcons, List.cons_append, split, if_neg hx, ih, hxs]
        rfl

theorem eq_of_split_eq_singleton {xs piece : List α} (h : split separator xs = [piece]) :
    piece = xs := by
  induction xs generalizing piece with
  | nil => exact (List.singleton_inj.mp h).symm
  | cons x xs ih =>
      by_cases hx : x = separator
      · rw [split, if_pos hx] at h
        exact absurd (List.cons.inj h).2 (split_ne_nil xs)
      · obtain ⟨first, pieces, hxs, hcons⟩ := split_cons_of_ne hx xs
        rw [hcons] at h
        obtain ⟨rfl, rfl⟩ := List.cons.inj h
        rw [ih hxs]

theorem notMem_of_mem_split {xs piece : List α} (h : piece ∈ split separator xs) :
    separator ∉ piece := by
  induction xs generalizing piece with
  | nil => simp [split] at h; simp [h]
  | cons x xs ih =>
      by_cases hx : x = separator
      · rw [split, if_pos hx] at h
        rcases List.mem_cons.mp h with rfl | h
        · exact List.not_mem_nil
        · exact ih h
      · obtain ⟨first, pieces, hxs, hcons⟩ := split_cons_of_ne hx xs
        rw [hcons] at h
        rcases List.mem_cons.mp h with rfl | h
        · have hfirst : separator ∉ first := ih (hxs ▸ List.mem_cons_self)
          simp [hfirst, Ne.symm hx]
        · exact ih (hxs ▸ List.mem_cons_of_mem _ h)

end Text

namespace Path

/-! ## Names -/

/-- Can a part be made of the name? -/
structure IsName (n : String) : Prop where
  ne_empty : n.toList ≠ []
  ne_here : n.toList ≠ ['.']
  ne_parent : n.toList ≠ ['.', '.']
  no_slash : '/' ∉ n.toList

variable {p : Path} {n : String}

theorem innerPart?_of_isName (h : IsName n) : innerPart? n.toList = some (.name n) := by
  have hidle : isIdle n.toList = false := by
    simp [isIdle, h.ne_empty, h.ne_here, -String.toList_eq_nil_iff]
  rw [innerPart?, hidle, if_neg Bool.false_ne_true, if_neg h.ne_parent, String.ofList_toList]

theorem isName_of_innerPart? {segment : List Char} (hslash : '/' ∉ segment)
    (h : innerPart? segment = some (.name n)) : IsName n := by
  rw [innerPart?] at h
  split at h
  · cases h
  · next hidle =>
      split at h
      · cases h
      · next hparent =>
          obtain rfl : String.ofList segment = n := by simpa using h
          simp only [isIdle, Bool.or_eq_true, List.isEmpty_iff, beq_iff_eq, not_or] at hidle
          exact ⟨by simpa using hidle.1, by simpa using hidle.2, by simpa using hparent,
            by simpa using hslash⟩

theorem isName_of_mem_parts (h : .name n ∈ p.parts) : IsName n := by
  have hslash : ∀ segment ∈ p.segments, '/' ∉ segment := fun _ => Text.notMem_of_mem_split
  rw [parts] at h
  split at h
  · exact absurd h List.not_mem_nil
  · next first rest hsegments =>
      rw [hsegments] at hslash
      rcases List.mem_append.mp h with h | h
      · rw [Option.mem_toList, firstPart?] at h
        split at h
        · split at h <;> cases h
        · split at h
          · cases h
          · exact isName_of_innerPart? (hslash first List.mem_cons_self) h
      · obtain ⟨segment, hmem, h⟩ := List.mem_filterMap.mp h
        exact isName_of_innerPart? (hslash segment (List.mem_cons_of_mem _ hmem)) h

theorem isName_of_fileName? (h : p.fileName? = some n) : IsName n := by
  rw [fileName?] at h
  split at h
  · next hlast =>
      cases h
      exact isName_of_mem_parts (List.mem_of_getLast? hlast)
  · cases h

theorem isName_append_go {stem : List Char} (hne : stem ≠ []) (hslash : '/' ∉ stem) :
    IsName (String.ofList (stem ++ ".go".toList)) := by
  have hlength : 4 ≤ (stem ++ ".go".toList).length := by
    have := List.length_pos_iff.mpr hne
    simp only [List.length_append, String.length_toList]
    exact Nat.add_le_add_right this 3
  refine ⟨?_, ?_, ?_, by simpa using hslash⟩ <;>
  · rw [String.toList_ofList]
    intro h
    rw [h] at hlength
    simp at hlength

/-! ## One part more -/

theorem parts_of_segments {first : List Char} {rest : List (List Char)}
    (h : p.segments = first :: rest) :
    p.parts = (firstPart? first rest.isEmpty).toList ++ rest.filterMap innerPart? := by
  rw [parts, h]

/-- The first segment of a path that is not empty counts the same if it is alone. -/
theorem parts_of_segments_of_ne (hp : p.text.toList ≠ []) {first : List Char}
    {rest : List (List Char)} (h : p.segments = first :: rest) :
    p.parts = (firstPart? first false).toList ++ rest.filterMap innerPart? := by
  rw [parts_of_segments h]
  cases rest with
  | cons => rfl
  | nil =>
      have hfirst : first ≠ [] := Text.eq_of_split_eq_singleton h ▸ hp
      simp [firstPart?, hfirst]

theorem parts_of_segments_concat {first last : List Char} {rest : List (List Char)}
    (h : p.segments = first :: rest ++ [last]) :
    p.parts = (firstPart? first false).toList ++ rest.filterMap innerPart?
      ++ (innerPart? last).toList := by
  rw [List.cons_append] at h
  rw [parts_of_segments h, List.filterMap_append, List.append_assoc]
  cases rest <;> cases hlast : innerPart? last <;> simp [hlast]

/-- A name put behind a path is one part more. -/
theorem parts_join (p : Path) (h : IsName n) : (p.join ⟨n⟩).parts = p.parts ++ [.name n] := by
  have hrelative : (⟨n⟩ : Path).isAbsolute = false := by
    rw [isAbsolute, beq_eq_false_iff_ne]
    exact fun hhead => h.no_slash (List.mem_of_mem_head? hhead)
  have hname : (innerPart? n.toList).toList = [.name n] := by rw [innerPart?_of_isName h]; rfl
  have halone : Text.split '/' n.toList = [n.toList] := Text.split_of_notMem h.no_slash
  rw [join, hrelative, Bool.false_or]
  split
  · next hempty =>
      have hp : p.parts = [] := by
        rw [parts, segments, String.isEmpty_iff.mp hempty]; rfl
      rw [hp, parts_of_segments (p := ⟨n⟩) halone, firstPart?, if_neg (by simpa using h.ne_empty),
        if_neg h.ne_here]
      simp [hname]
  · next hne =>
      have hp : p.text.toList ≠ [] := by simpa using hne
      split
      · next hslash =>
          obtain ⟨front, hfront⟩ := List.getLast?_eq_some_iff.mp hslash
          obtain ⟨first, rest, hrest⟩ : ∃ first rest, Text.split '/' front = first :: rest :=
            List.exists_cons_of_ne_nil (Text.split_ne_nil front)
          -- the name takes the place of the empty segment behind the slash
          have hsegments : p.segments = first :: rest ++ [[]] := by
            rw [segments, hfront, Text.split_append_cons, hrest]; rfl
          have hjoined : (⟨p.text ++ n⟩ : Path).segments = first :: rest ++ [n.toList] := by
            rw [segments, String.toList_append, hfront, List.append_assoc, List.singleton_append,
              Text.split_append_cons, hrest, halone]
          rw [parts_of_segments_concat hsegments, parts_of_segments_concat hjoined, hname]
          simp [innerPart?, isIdle]
      · obtain ⟨first, rest, hrest⟩ : ∃ first rest, p.segments = first :: rest :=
          List.exists_cons_of_ne_nil (Text.split_ne_nil p.text.toList)
        have hjoined : (⟨p.text ++ "/" ++ n⟩ : Path).segments = first :: rest ++ [n.toList] := by
          rw [segments, String.toList_append, String.toList_append, List.append_assoc,
            show "/".toList ++ n.toList = '/' :: n.toList from rfl, Text.split_append_cons,
            ← segments, hrest, halone]
        rw [parts_of_segments_concat hjoined, parts_of_segments_of_ne hp hrest, hname]

theorem fileName?_join (p : Path) (h : IsName n) : (p.join ⟨n⟩).fileName? = some n := by
  rw [fileName?, parts_join p h, List.getLast?_concat]

/-! ## Spellings of one path -/

theorem same_iff {p q : Path} : p.same q = true ↔ p.parts = q.parts := beq_iff_eq

theorem same_comm (p q : Path) : p.same q = q.same p := by
  rw [Bool.eq_iff_iff, same_iff, same_iff, eq_comm]

/-- A segment that adds nothing may be left out. -/
theorem parts_idle {s : String} (hidle : isIdle s.toList = true) (hslash : '/' ∉ s.toList)
    (d r : String) :
    (⟨d ++ ("/" ++ s ++ "/") ++ r⟩ : Path).parts = (⟨d ++ "/" ++ r⟩ : Path).parts := by
  obtain ⟨first, rest, hd⟩ : ∃ first rest, Text.split '/' d.toList = first :: rest :=
    List.exists_cons_of_ne_nil (Text.split_ne_nil d.toList)
  have hlong : (⟨d ++ ("/" ++ s ++ "/") ++ r⟩ : Path).segments
      = first :: (rest ++ s.toList :: Text.split '/' r.toList) := by
    have htext : (d ++ ("/" ++ s ++ "/") ++ r).toList
        = d.toList ++ '/' :: (s.toList ++ '/' :: r.toList) := by
      simp
    rw [segments, htext, Text.split_append_cons, Text.split_append_cons, hd,
      Text.split_of_notMem hslash]
    rfl
  have hshort : (⟨d ++ "/" ++ r⟩ : Path).segments
      = first :: (rest ++ Text.split '/' r.toList) := by
    have htext : (d ++ "/" ++ r).toList = d.toList ++ '/' :: r.toList := by simp
    rw [segments, htext, Text.split_append_cons, hd]
    rfl
  -- a slash stands behind the first segment in either text
  have hfollowed : ∀ others, others ≠ [] → (rest ++ others).isEmpty = false := by
    intro others hne
    simp [hne]
  have hpart : innerPart? s.toList = none := by rw [innerPart?, if_pos hidle]
  rw [parts_of_segments hlong, parts_of_segments hshort,
    hfollowed _ (List.cons_ne_nil _ _), hfollowed _ (Text.split_ne_nil _)]
  simp [hpart]

theorem head?_parts_here (r : String) : (⟨"./" ++ r⟩ : Path).parts.head? = some .here := by
  have hsegments : (⟨"./" ++ r⟩ : Path).segments = ['.'] :: Text.split '/' r.toList := by
    have htext : ("./" ++ r).toList = ['.'] ++ '/' :: r.toList := by simp
    rw [segments, htext, Text.split_append_cons]
    rfl
  rw [parts_of_segments hsegments]
  rfl

end Path

/-! ## Test files -/

theorem beforeEnding?_eq_some {ending cs before : List Char} :
    beforeEnding? ending cs = some before ↔ before ++ ending = cs := by
  rw [beforeEnding?]
  constructor
  · intro h
    rw [Option.ite_none_right_eq_some, List.isSuffixOf_iff_suffix] at h
    obtain ⟨⟨front, rfl⟩, h⟩ := h
    have htake : (front ++ ending).take ((front ++ ending).length - ending.length) = front := by
      simp
    rw [← Option.some.inj h, htake]
  · rintro rfl
    simp

/-- A test file has a name in front of the ending, and the file it tests has it too. -/
theorem implementationPath_cases (p : Path) :
    implementationPath p = p
      ∨ ∃ stem, p.fileName? = some (String.ofList (stem ++ "_test.go".toList))
        ∧ (implementationPath p).fileName? = some (String.ofList (stem ++ ".go".toList)) := by
  rw [implementationPath]
  cases hname : p.fileName? with
  | none => exact .inl rfl
  | some name =>
      cases hstem : beforeEnding? "_test.go".toList name.toList with
      | none => exact .inl (by simp only [hstem])
      | some stem =>
          cases stem with
          | nil => exact .inl (by simp only [hstem])
          | cons c cs =>
              have htext : c :: cs ++ "_test.go".toList = name.toList :=
                beforeEnding?_eq_some.mp hstem
              have hslash : '/' ∉ c :: cs := fun hmem =>
                (Path.isName_of_fileName? hname).no_slash (htext ▸ List.mem_append_left _ hmem)
              refine .inr ⟨c :: cs, by rw [htext, String.ofList_toList], ?_⟩
              simp only [hstem]
              exact Path.fileName?_join _ (Path.isName_append_go (List.cons_ne_nil c cs) hslash)

/-- A file that is the same as the one it tests is written the same. -/
theorem implementationPath_eq_self {p : Path} (h : (implementationPath p).same p = true) :
    implementationPath p = p := by
  rcases implementationPath_cases p with heq | ⟨stem, hname, hother⟩
  · exact heq
  · have hsame : (implementationPath p).fileName? = p.fileName? := by
      rw [Path.fileName?, Path.fileName?, eq_of_beq h]
    rw [hname, hother, Option.some_inj, String.ofList_inj] at hsame
    have hlength := congrArg List.length hsame
    simp at hlength

end TestTriage
