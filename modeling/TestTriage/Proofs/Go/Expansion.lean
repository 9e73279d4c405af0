import Mathlib.Logic.Relation
import Mathlib.Order.Bounds.Defs
import TestTriage.Go.SourceFile
import TestTriage.Proofs.Names

/-!
# Following calls within a file

`SourceFile.expand` grows a set of names by what the declarations with
these names call, round by round, until a round adds nothing. Nothing in
the loop says that it ends: `Expands` is the loop as it stands, and the
rounds that `expand` allows for are shown to be enough of them. What runs
out is the names that the file calls and the set lacks (`lacking`): every
round but the last takes one of them (`card_lacking_round_lt`).

The result is the set of the names that calls lead to from the first
ones (`Expands.contains_iff`). Nothing else gets in since a round adds
only what is called from the set, and a round that adds nothing has found
the set closed.
-/

namespace TestTriage.Go.SourceFile

open Relation

/-- Does a declaration named `caller` call `target`? -/
def Calls (f : SourceFile) (caller target : String) : Prop :=
  ∃ d ∈ f.declarations, d.name = caller ∧ target ∈ d.callTargets

/-- One round: the names, and what the declarations of these names call. -/
def round (f : SourceFile) (names : NameSet) : NameSet :=
  names.union (dependencies (f.declarationsIn names))

/-- The loop: from `names` it ends in its round number `rounds`, the first
that adds nothing, with `result`. -/
inductive Expands (f : SourceFile) : NameSet → Nat → NameSet → Prop where
  | stable {names : NameSet} (h : (f.round names).size = names.size) :
      Expands f names 1 (f.round names)
  | grown {names result : NameSet} {rounds : Nat} (h : (f.round names).size ≠ names.size)
      (later : Expands f (f.round names) rounds result) : Expands f names (rounds + 1) result

/-- What the file calls and the set lacks. -/
def lacking (f : SourceFile) (names : NameSet) : Finset String :=
  (f.declarations.flatMap Declaration.callTargets).toFinset.filter fun n =>
    ¬names.contains n = true

variable {f : SourceFile} {names : NameSet}

/-! ## One round -/

theorem expandOnce_eq_round (f : SourceFile) (names : NameSet) :
    f.callTable.expandOnce names = f.round names := by
  rw [CallTable.expandOnce, CallTable.calledFrom, callTable, List.filter_map, List.flatMap_map]
  rfl

theorem contains_called {n : String} :
    (dependencies (f.declarationsIn names)).contains n = true
      ↔ ∃ d, names.contains d = true ∧ f.Calls d n := by
  simp only [dependencies, NameSet.contains_ofList, List.mem_flatMap, declarationsIn,
    List.mem_filter]
  constructor
  · rintro ⟨d, ⟨hd, hname⟩, hn⟩
    exact ⟨d.name, hname, d, hd, rfl, hn⟩
  · rintro ⟨_, hname, d, hd, rfl, hn⟩
    exact ⟨d, ⟨hd, hname⟩, hn⟩

theorem contains_round {n : String} :
    (f.round names).contains n = true
      ↔ names.contains n = true ∨ ∃ d, names.contains d = true ∧ f.Calls d n := by
  rw [round, NameSet.contains_union, contains_called]

theorem contains_of_size_round (h : (f.round names).size = names.size) {d n : String}
    (hd : names.contains d = true) (hn : f.Calls d n) : names.contains n = true :=
  NameSet.contains_of_size_insertAll h (NameSet.contains_iff.mp (contains_called.mpr ⟨d, hd, hn⟩))

theorem exists_new_of_size_round (h : (f.round names).size ≠ names.size) :
    ∃ d n, names.contains d = true ∧ f.Calls d n ∧ ¬names.contains n = true := by
  by_contra hno
  refine h (congrArg NameSet.size (NameSet.insertAll_of_contains fun n hn => ?_))
  obtain ⟨d, hd, hcalls⟩ := contains_called.mp (NameSet.contains_iff.mpr hn)
  by_contra hnew
  exact hno ⟨d, n, hd, hcalls, hnew⟩

/-- A round that adds something adds a name that the file calls. -/
theorem card_lacking_round_lt (h : (f.round names).size ≠ names.size) :
    (f.lacking (f.round names)).card < (f.lacking names).card := by
  obtain ⟨d, n, hd, hcalls, hnew⟩ := exists_new_of_size_round h
  refine Finset.card_lt_card (Finset.ssubset_iff_of_subset ?_ |>.mpr ⟨n, ?_, ?_⟩)
  · intro m hm
    simp only [lacking, Finset.mem_filter, contains_round, not_or] at hm ⊢
    exact ⟨hm.1, hm.2.1⟩
  · obtain ⟨decl, hdecl, -, htarget⟩ := hcalls
    rw [lacking, Finset.mem_filter, List.mem_toFinset, List.mem_flatMap]
    exact ⟨⟨decl, hdecl, htarget⟩, hnew⟩
  · intro hn
    exact (Finset.mem_filter.mp hn).2 (contains_round.mpr (.inr ⟨d, hd, hcalls⟩))

/-! ## The loop -/

namespace Expands

variable {result : NameSet} {rounds : Nat}

/-- The loop ends in one way. -/
theorem unique (h : Expands f names rounds result) {result' : NameSet} {rounds' : Nat}
    (h' : Expands f names rounds' result') : rounds = rounds' ∧ result = result' := by
  induction h generalizing rounds' with
  | stable hsize =>
      cases h' with
      | stable _ => exact ⟨rfl, rfl⟩
      | grown hsize' _ => exact absurd hsize hsize'
  | grown hsize _ ih =>
      cases h' with
      | stable hsize' => exact absurd hsize' hsize
      | grown _ later' =>
          obtain ⟨rfl, rfl⟩ := ih later'
          exact ⟨rfl, rfl⟩

/-- The loop ends with the names that calls lead to. -/
theorem contains_iff (h : Expands f names rounds result) {n : String} :
    result.contains n = true
      ↔ ∃ d, names.contains d = true ∧ ReflTransGen f.Calls d n := by
  induction h with
  | stable hsize =>
      rw [contains_round]
      constructor
      · rintro (hn | ⟨d, hd, hcalls⟩)
        · exact ⟨n, hn, .refl⟩
        · exact ⟨d, hd, .single hcalls⟩
      · rintro ⟨d, hd, hchain⟩
        left
        induction hchain with
        | refl => exact hd
        | tail _ hcalls ih => exact contains_of_size_round hsize ih hcalls
  | grown hsize _ ih =>
      rw [ih]
      constructor
      · rintro ⟨d, hd, hchain⟩
        rcases contains_round.mp hd with hd | ⟨c, hc, hcalls⟩
        · exact ⟨d, hd, hchain⟩
        · exact ⟨c, hc, .head hcalls hchain⟩
      · rintro ⟨d, hd, hchain⟩
        exact ⟨d, contains_round.mpr (.inl hd), hchain⟩

end Expands

/-- Rounds are not cut short that are more than the names lacking. -/
theorem expands_expandWithin (f : SourceFile) {limit : Nat} {names : NameSet}
    (h : (f.lacking names).card < limit) :
    ∃ rounds ≤ (f.lacking names).card + 1,
      Expands f names rounds (f.callTable.expandWithin limit names) := by
  induction limit generalizing names with
  | zero => omega
  | succ limit ih =>
      rw [CallTable.expandWithin, expandOnce_eq_round]
      by_cases hsize : (f.round names).size = names.size
      · rw [if_pos hsize]
        exact ⟨1, by omega, .stable hsize⟩
      · rw [if_neg hsize]
        have hless := card_lacking_round_lt hsize
        obtain ⟨rounds, hrounds, later⟩ := ih (by omega : (f.lacking (f.round names)).card < limit)
        exact ⟨rounds + 1, by omega, .grown hsize later⟩

theorem card_lacking_le (f : SourceFile) (names : NameSet) :
    (f.lacking names).card ≤ (dependencies f.declarations).size := by
  rw [dependencies, NameSet.size_ofList]
  exact Finset.card_filter_le _ _

theorem contains_expand {n : String} :
    (f.expand names).contains n = true
      ↔ ∃ d, names.contains d = true ∧ ReflTransGen f.Calls d n := by
  obtain ⟨rounds, -, h⟩ := f.expands_expandWithin (Nat.lt_succ_of_le (f.card_lacking_le names))
  exact h.contains_iff

/-- **Expansion reaches what calls lead to, and ends.** The loop ends with the
result of `expand`, after at most one round more than there are names that the
file calls and the set lacks. The result holds a name just if a chain of calls
leads to it from a name of the set, and is the least that holds the set and is
closed under calls. -/
theorem expand_reaches (f : SourceFile) (names : NameSet) :
    (∃ rounds ≤ (f.lacking names).card + 1, Expands f names rounds (f.expand names))
      ∧ (∀ n, (f.expand names).contains n = true
          ↔ ∃ d, names.contains d = true ∧ ReflTransGen f.Calls d n)
      ∧ IsLeast {s : Set String | (∀ n, names.contains n = true → n ∈ s)
            ∧ ∀ d n, d ∈ s → f.Calls d n → n ∈ s}
          {n | (f.expand names).contains n = true} := by
  have hends := f.expands_expandWithin (Nat.lt_succ_of_le (f.card_lacking_le names))
  obtain ⟨rounds, -, h⟩ := id hends
  have hiff : ∀ n, (f.expand names).contains n = true
      ↔ ∃ d, names.contains d = true ∧ ReflTransGen f.Calls d n := fun n => h.contains_iff
  refine ⟨hends, hiff, ⟨fun n hn => (hiff n).mpr ⟨n, hn, .refl⟩, fun d n hd hcalls => ?_⟩, ?_⟩
  · obtain ⟨c, hc, hchain⟩ := (hiff d).mp hd
    exact (hiff n).mpr ⟨c, hc, hchain.tail hcalls⟩
  · rintro s ⟨hstart, hclosed⟩ n hn
    obtain ⟨d, hd, hchain⟩ := (hiff n).mp hn
    induction hchain with
    | refl => exact hstart d hd
    | tail _ hcalls ih => exact hclosed _ _ (ih ((hiff _).mpr ⟨d, hd, ‹_›⟩)) hcalls

end TestTriage.Go.SourceFile
