import Mathlib.Data.List.Basic
import TestTriage.Triage

/-!
# Where a run ends

A run that does not keep going ends with the first file that fails. It
comes to this end twice over: a run in turn touches no slot behind a
failed one, and the outcomes of either kind of run are cut behind the
first failed one. `runResolved_halts` says that both kinds of run, with
one end or with both, come to the same as processing every slot and
cutting the outcomes once.
-/

namespace TestTriage.Triage

variable {g : Triage} {t : FileTree}

/-! ## Cutting outcomes -/

theorem untilFailure_eq_take (os : List FileOutcome) :
    untilFailure os = os.take (os.findIdx (!·.isOk) + 1) := by
  induction os with
  | nil => rfl
  | cons o os ih =>
      rw [untilFailure, List.findIdx_cons]
      cases h : o.isOk with
      | false => simp
      | true => simp [ih]

theorem untilFailure_untilFailure (os : List FileOutcome) :
    untilFailure (untilFailure os) = untilFailure os := by
  induction os with
  | nil => rfl
  | cons o os ih =>
      by_cases h : o.isOk = true
      · rw [untilFailure, if_pos h, untilFailure, if_pos h, ih]
      · rw [untilFailure, if_neg h, untilFailure, if_neg h]

/-- Only the last outcome may have failed. -/
theorem isOk_of_mem_dropLast {os : List FileOutcome} {o : FileOutcome}
    (ho : o ∈ (untilFailure os).dropLast) : o.isOk = true := by
  induction os with
  | nil => simp [untilFailure] at ho
  | cons o' os ih =>
      rw [untilFailure] at ho
      by_cases h : o'.isOk = true
      · rw [if_pos h] at ho
        rcases eq_or_ne (untilFailure os) [] with hnil | hne
        · simp [hnil] at ho
        · rw [List.dropLast_cons_of_ne_nil hne] at ho
          rcases List.mem_cons.mp ho with rfl | ho
          · exact h
          · exact ih ho
      · simp [if_neg h] at ho

/-! ## In turn and at once -/

theorem inTurn_eq (g : Triage) (t : FileTree) (slots : List ResolvedSlot) :
    g.inTurn t slots
      = if g.keepGoing then g.atOnce t slots else untilFailure (g.atOnce t slots) := by
  induction slots with
  | nil => simp [inTurn, atOnce, untilFailure]
  | cons s ss ih =>
      have hcons : g.atOnce t (s :: ss) = g.process t s :: g.atOnce t ss := rfl
      rw [inTurn, ih, hcons, untilFailure]
      cases g.keepGoing <;> simp

theorem runResolved_eq (g : Triage) (t : FileTree) (slots : List ResolvedSlot) :
    g.runResolved t slots
      = if g.keepGoing then g.atOnce t slots else untilFailure (g.atOnce t slots) := by
  rw [runResolved, inTurn_eq]
  cases g.keepGoing with
  | true => simp
  | false =>
      cases g.parallel with
      | true => rfl
      | false => exact untilFailure_untilFailure _

/-- A run that keeps going processes every slot. -/
theorem runResolved_of_keepGoing (hg : g.keepGoing = true) (slots : List ResolvedSlot) :
    g.runResolved t slots = slots.map (g.process t) := by
  rw [runResolved_eq, if_pos hg, atOnce]

theorem process_of_ok {s : ResolvedSlot} {f : FileFailures} (h : s.located = .ok f) :
    g.process t s = ⟨s.reported, some f.path, g.processFile t f.path f.tests⟩ := by
  rw [process, h]

theorem process_of_error {s : ResolvedSlot} {problem : Problem} (h : s.located = .error problem) :
    g.process t s = ⟨s.reported, none, .error problem⟩ := by
  rw [process, h]

/-- **A run in turn and one at once end alike.** The outcomes are those of the
slots, in their order, a slot that was not found being a failed one; unless the
run keeps going, they are cut behind the first failed one. So then only the last
can have failed, and else each depends on its own slot alone. -/
theorem runResolved_halts (g : Triage) (t : FileTree) (slots : List ResolvedSlot) :
    let all := slots.map (g.process t)
    let outcomes := if g.keepGoing then all else all.take (all.findIdx (!·.isOk) + 1)
    (∀ parallel, { g with parallel }.runResolved t slots = outcomes)
      ∧ (∀ s f, s.located = .ok f →
          g.process t s = ⟨s.reported, some f.path, g.processFile t f.path f.tests⟩)
      ∧ (∀ s problem, s.located = .error problem →
          g.process t s = ⟨s.reported, none, .error problem⟩)
      ∧ (g.keepGoing = false → ∀ o ∈ outcomes.dropLast, o.isOk = true)
      ∧ (g.keepGoing = true → ∀ i : Nat, outcomes[i]? = slots[i]?.map (g.process t)) := by
  intro all outcomes
  have hcut : outcomes = if g.keepGoing then all else untilFailure all := by
    rw [untilFailure_eq_take]
  refine ⟨fun parallel => ?_, fun s f h => process_of_ok h, fun s problem h => process_of_error h,
    fun hg o ho => ?_, fun hg i => ?_⟩
  · -- a slot is processed in the same way whatever else is in work
    have hall : { g with parallel }.atOnce t slots = all := rfl
    rw [runResolved_eq, hall, hcut]
  · rw [hcut, hg, if_neg Bool.false_ne_true] at ho
    exact isOk_of_mem_dropLast ho
  · rw [hcut, if_pos hg, List.getElem?_map]

end TestTriage.Triage
