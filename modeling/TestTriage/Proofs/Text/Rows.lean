import TestTriage.Proofs.Paths

/-!
# The lines of a text

A text is cut at its line ends, so the lines of two texts with a line end
between them are those of the one and then those of the other
(`rows_append`). A line of a text is a part of it without line ends that
stands between two of them, or at one end of the text (`exists_of_mem_split`,
`mem_split_append`).
-/

namespace TestTriage.Text

/-! ## Pieces as parts -/

section Split

variable {α : Type} [DecidableEq α] {separator : α} {piece front back : List α}

/-- A piece is a part between two separators, or at an end. -/
theorem exists_of_mem_split {xs : List α} (h : piece ∈ split separator xs) :
    ∃ front back, xs = front ++ piece ++ back
      ∧ (∀ x ∈ front.getLast?, x = separator) ∧ ∀ x ∈ back.head?, x = separator := by
  induction hlength : xs.length using Nat.strongRecOn generalizing xs with
  | ind n ih =>
      by_cases hxs : separator ∈ xs
      · obtain ⟨first, later, rfl, hfirst⟩ := List.eq_append_cons_of_mem hxs
        rw [split_append_cons, split_of_notMem hfirst, List.singleton_append, List.mem_cons] at h
        rcases h with rfl | h
        · exact ⟨[], separator :: later, by simp, by simp, by simp⟩
        · have hlater : later.length < n := by rw [← hlength]; simp; omega
          obtain ⟨front, back, rfl, hfront, hback⟩ := ih _ hlater h rfl
          refine ⟨first ++ separator :: front, back, by simp, fun x hx => ?_, hback⟩
          cases front with
          | nil => simpa using hx.symm
          | cons y front => exact hfront x (by simpa using hx)
      · rw [split_of_notMem hxs, List.mem_singleton] at h
        exact ⟨[], [], by simp [h], by simp, by simp⟩

/-- A part without separators, between two of them or at an end, is a piece. -/
theorem mem_split_append (hpiece : separator ∉ piece)
    (hfront : ∀ x ∈ front.getLast?, x = separator) (hback : ∀ x ∈ back.head?, x = separator) :
    piece ∈ split separator (front ++ piece ++ back) := by
  have hbehind : piece ∈ split separator (piece ++ back) := by
    cases back with
    | nil => rw [List.append_nil, split_of_notMem hpiece]; exact List.mem_singleton_self _
    | cons x back =>
        rw [hback x rfl, split_append_cons, split_of_notMem hpiece]
        exact List.mem_cons_self
  rw [List.append_assoc]
  rcases List.eq_nil_or_concat front with rfl | ⟨front, x, rfl⟩
  · exact hbehind
  · rw [hfront x (by simp), List.concat_eq_append, List.append_assoc, List.singleton_append,
      split_append_cons]
    exact List.mem_append_right _ hbehind

end Split

/-! ## Lines -/

/-- The lines of a text, without their line ends. -/
def rows (s : String) : List (List Char) := split '\n' s.toList

theorem rows_append (s t : String) : rows (s ++ "\n" ++ t) = rows s ++ rows t := by
  rw [rows, String.toList_append, String.toList_append, List.append_assoc]
  exact split_append_cons s.toList t.toList

theorem rows_of_notMem {s : String} (h : '\n' ∉ s.toList) : rows s = [s.toList] :=
  split_of_notMem h

/-- Texts with a line end between any two of them, as lines. -/
theorem rows_intercalate (s : String) (ss : List String) :
    rows ("\n".intercalate (s :: ss)) = (s :: ss).flatMap rows := by
  induction ss generalizing s with
  | nil => rw [String.intercalate_singleton, List.flatMap_singleton]
  | cons t ss ih => rw [String.intercalate_cons_cons, rows_append, ih, ← List.flatMap_cons]

end TestTriage.Text
