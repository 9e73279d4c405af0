import TestTriage.Proofs.Failing
import TestTriage.Proofs.FeedLines

/-!
# Feeds joined at a line end

A feed behind another one, with a line end between them, is read as if it
stood alone, but for the numbers of its lines (`events_append`). Cutting
into lines respects the line end in between (`lines_append_newline`), and
the lines in front are as many as line ends, the one in between included
(`length_lines_newline`). That the feed in front need not have a line end
of its own makes no difference: at most a blank line is added to it
(`lines_newline`).

A line can be blank, an object or neither (`line_cases`), and the reading
stops at the first one of the last kind, whatever comes behind.
-/

namespace TestTriage

open Text (Bytes)

/-- The problem when so many more lines stand in front. -/
def Problem.below (lines : Nat) : Problem → Problem
  | .malformedEvent line e => .malformedEvent (line + lines) e
  | problem => problem

namespace Feed

/-- The problem of a line, given with its number, that is neither white space nor an
object. -/
def Unread (line : Bytes × Nat) (problem : Problem) : Prop :=
  isBlank line.1 = false
    ∧ ∃ e, Json.readObject line.1 = .error e ∧ problem = .malformedEvent line.2 e

/-! ## Lines of joined feeds -/

theorem lines_ne_nil {feed : Bytes} (h : feed ≠ []) : lines feed ≠ [] := by
  cases feed with
  | nil => exact absurd rfl h
  | cons b bs =>
      rw [lines]
      split
      · exact List.cons_ne_nil _ _
      · split <;> exact List.cons_ne_nil _ _

theorem lines_cons {b : UInt8} (hb : b ≠ newline) (feed : Bytes) (h : feed ≠ []) :
    ∃ l ls, lines feed = l :: ls ∧ lines (b :: feed) = (b :: l) :: ls := by
  obtain ⟨l, ls, hfeed⟩ := List.exists_cons_of_ne_nil (lines_ne_nil h)
  refine ⟨l, ls, hfeed, ?_⟩
  rw [lines, if_neg hb, hfeed]

/-- Cutting into lines may be done on both sides of a line end. -/
theorem lines_append_newline (a b : Bytes) :
    lines (a ++ newline :: b) = lines (a ++ [newline]) ++ lines b := by
  induction a with
  | nil => simp [lines]
  | cons c cs ih =>
      rw [List.cons_append, List.cons_append]
      by_cases hc : c = newline
      · rw [lines, if_pos hc, lines, if_pos hc, ih, List.cons_append]
      · obtain ⟨l, ls, hl, hcut⟩ := lines_cons hc (cs ++ [newline]) (by simp)
        obtain ⟨l', ls', hl', hcut'⟩ := lines_cons hc (cs ++ newline :: b) (by simp)
        -- both first lines get the same character in front
        rw [hl', hl, List.cons_append] at ih
        obtain ⟨rfl, rfl⟩ := List.cons.inj ih
        rw [hcut, hcut', List.cons_append]

theorem length_lines_newline (a : Bytes) :
    (lines (a ++ [newline])).length = a.count newline + 1 := by
  induction a with
  | nil => rfl
  | cons c cs ih =>
      rw [List.cons_append]
      by_cases hc : c = newline
      · rw [lines, if_pos hc, List.length_cons, ih, hc, List.count_cons_self]
      · obtain ⟨l, ls, hl, hcut⟩ := lines_cons hc (cs ++ [newline]) (by simp)
        rw [hl] at ih
        rw [hcut, List.count_cons_of_ne hc, ← ih, List.length_cons, List.length_cons]

/-- A line end closes the last line, or else adds a line with nothing on it. -/
theorem lines_newline (a : Bytes) :
    lines (a ++ [newline]) = lines a ∨ lines (a ++ [newline]) = lines a ++ [[]] := by
  induction a with
  | nil => exact .inr rfl
  | cons c cs ih =>
      rw [List.cons_append]
      by_cases hc : c = newline
      · rw [lines, if_pos hc, lines, if_pos hc]
        exact ih.imp (congrArg _) (congrArg _)
      · obtain ⟨l, ls, hl, hcut⟩ := lines_cons hc (cs ++ [newline]) (by simp)
        rcases eq_or_ne cs [] with rfl | hcs
        · exact .inl (by simp [lines, hc])
        · obtain ⟨l', ls', hl', hcut'⟩ := lines_cons hc cs hcs
          rw [hl, hl', List.cons_append] at ih
          rw [hcut, hcut', List.cons_append]
          refine ih.imp (fun h => ?_) (fun h => ?_)
          · obtain ⟨rfl, rfl⟩ := List.cons.inj h
            rfl
          · obtain ⟨rfl, rfl⟩ := List.cons.inj h
            rfl

/-! ## Reading line by line -/

theorem line_cases (line : Bytes) :
    isBlank line = true
      ∨ (isBlank line = false ∧ ∃ e, Json.readObject line = .error e)
      ∨ (isBlank line = false ∧ ∃ members, Json.readObject line = .ok members) := by
  cases hblank : isBlank line with
  | true => exact .inl rfl
  | false =>
      cases hread : Json.readObject line with
      | error e => exact .inr (.inl ⟨rfl, e, rfl⟩)
      | ok members => exact .inr (.inr ⟨rfl, members, rfl⟩)

theorem eventsBehind_error {line : Bytes} {e : Json.Error} (hblank : isBlank line = false)
    (hread : Json.readObject line = .error e) (before : Nat) (ls : List Bytes) :
    eventsBehind before (line :: ls) = .error (.malformedEvent (before + 1) e) := by
  simp only [eventsBehind, hblank, hread, Bool.false_eq_true, if_false]
  rfl

theorem eventsBehind_ok {line : Bytes} {members : List (String × Json.Value)}
    (hblank : isBlank line = false) (hread : Json.readObject line = .ok members) (before : Nat)
    (ls : List Bytes) :
    eventsBehind before (line :: ls)
      = (eventsBehind (before + 1) ls).map (.ofMembers members :: ·) := by
  simp only [eventsBehind, hblank, hread, Bool.false_eq_true, if_false]
  rfl

/-- Lines are read one after the other, up to the first that cannot be. -/
theorem eventsBehind_append (before : Nat) (ls ls' : List Bytes) :
    eventsBehind before (ls ++ ls')
      = match eventsBehind before ls with
        | .error problem => .error problem
        | .ok es => (eventsBehind (before + ls.length) ls').map (es ++ ·) := by
  induction ls generalizing before with
  | nil =>
      rw [List.nil_append, List.length_nil, Nat.add_zero]
      cases eventsBehind before ls' <;> rfl
  | cons l ls ih =>
      have hcount : before + (l :: ls).length = before + 1 + ls.length := by
        rw [List.length_cons]
        omega
      rw [List.cons_append, hcount]
      rcases line_cases l with hblank | ⟨hblank, e, hread⟩ | ⟨hblank, members, hread⟩
      · rw [eventsBehind_blank hblank, eventsBehind_blank hblank, ih]
      · rw [eventsBehind_error hblank hread, eventsBehind_error hblank hread]
      · rw [eventsBehind_ok hblank hread, eventsBehind_ok hblank hread, ih]
        cases eventsBehind (before + 1) ls with
        | error problem => rfl
        | ok es => cases eventsBehind (before + 1 + ls.length) ls' <;> rfl

/-- Lines in front count in the numbers of lines and in nothing else. -/
theorem eventsBehind_add (lines before : Nat) (ls : List Bytes) :
    eventsBehind (before + lines) ls = (eventsBehind before ls).mapError (.below lines) := by
  induction ls generalizing before with
  | nil => rfl
  | cons l ls ih =>
      have hcount : before + lines + 1 = before + 1 + lines := by omega
      rcases line_cases l with hblank | ⟨hblank, e, hread⟩ | ⟨hblank, members, hread⟩
      · rw [eventsBehind_blank hblank, eventsBehind_blank hblank, hcount, ih]
      · rw [eventsBehind_error hblank hread, eventsBehind_error hblank hread, hcount]
        rfl
      · rw [eventsBehind_ok hblank hread, eventsBehind_ok hblank hread, hcount, ih]
        cases eventsBehind (before + 1) ls <;> rfl

/-- The reading fails at the first line that cannot be read. -/
theorem eventsBehind_eq_error_iff {before : Nat} {ls : List Bytes} {problem : Problem} :
    eventsBehind before ls = .error problem
      ↔ FirstFault Unread (ls.zipIdx (before + 1)) problem := by
  induction ls generalizing before with
  | nil => exact iff_of_false (fun h => nomatch h) not_firstFault_nil
  | cons l ls ih =>
      rw [List.zipIdx_cons]
      rcases line_cases l with hblank | ⟨hblank, e, hread⟩ | ⟨hblank, members, hread⟩
      · have hnone : ∀ p, ¬Unread (l, before + 1) p := fun p h =>
          Bool.noConfusion (hblank.symm.trans h.1)
        rw [eventsBehind_blank hblank, ih, firstFault_cons_of_none hnone]
      · have hfault : ∀ p, Unread (l, before + 1) p ↔ .malformedEvent (before + 1) e = p := by
          intro p
          constructor
          · rintro ⟨-, e', hread', rfl⟩
            rw [Except.error.inj (hread.symm.trans hread')]
          · rintro rfl
            exact ⟨hblank, e, hread, rfl⟩
        rw [eventsBehind_error hblank hread, firstFault_cons_of_fault ((hfault _).mpr rfl),
          hfault, Except.error.injEq]
      · have hnone : ∀ p, ¬Unread (l, before + 1) p := by
          rintro p ⟨-, e, hread', -⟩
          rw [hread] at hread'
          cases hread'
        rw [eventsBehind_ok hblank hread, map_eq_error, ih, firstFault_cons_of_none hnone]

theorem events_newline (a : Bytes) : events (a ++ [newline]) = events a := by
  rw [events, events]
  rcases lines_newline a with h | h
  · rw [h]
  · rw [h, eventsBehind_append, eventsBehind_blank rfl, eventsBehind]
    cases eventsBehind 0 (lines a) with
    | error problem => rfl
    | ok es => exact congrArg Except.ok (List.append_nil es)

/-- **Feeds joined at a line end are read one behind the other.** A problem of the
first one is the problem of both, whatever the second one is. A problem of the second
one is told with its line counted from the start of the first, and is else the same.
If there is none, the events of the second come behind those of the first. So what
fails is always the first line that is neither white space nor an object, by its number
among all lines. -/
theorem events_append :
    (∀ a b, events (a ++ newline :: b)
        = match events a, events b with
          | .error problem, _ => .error problem
          | .ok _, .error problem => .error (problem.below (1 + a.count newline))
          | .ok es, .ok es' => .ok (es ++ es'))
      ∧ ∀ feed problem, events feed = .error problem
          ↔ FirstFault Unread ((lines feed).zipIdx 1) problem := by
  refine ⟨fun a b => ?_, fun feed problem => eventsBehind_eq_error_iff⟩
  have hfront : eventsBehind 0 (lines (a ++ [newline])) = events a := events_newline a
  have hbehind : eventsBehind (0 + (lines (a ++ [newline])).length) (lines b)
      = (events b).mapError (.below (1 + a.count newline)) := by
    rw [length_lines_newline, eventsBehind_add, Nat.add_comm, events]
  rw [events, lines_append_newline, eventsBehind_append, hfront, hbehind]
  cases events a with
  | error problem => rfl
  | ok es => cases events b <;> rfl

end Feed

end TestTriage
