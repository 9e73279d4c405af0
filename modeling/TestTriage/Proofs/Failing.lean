import Mathlib.Data.List.Basic

/-!
# Steps that may fail

Steps are taken one after the other until one of them fails, and then that one says why. Where
it does not depend on the steps before whether a step fails, the fault of them all is the one of
the first step that has a fault (`foldlM_eq_error_iff`).
-/

namespace TestTriage

variable {ε α β : Type} {e : ε}

theorem bind_eq_ok {x : Except ε α} {f : α → Except ε β} {b : β} :
    (x >>= f) = .ok b ↔ ∃ a, x = .ok a ∧ f a = .ok b := by
  constructor
  · intro h
    cases x with
    | error e => cases h
    | ok a => exact ⟨a, rfl, h⟩
  · rintro ⟨a, rfl, h⟩
    exact h

theorem map_eq_ok {f : α → β} {x : Except ε α} {b : β} :
    x.map f = .ok b ↔ ∃ a, x = .ok a ∧ f a = b := by
  constructor
  · intro h
    cases x with
    | error e => cases h
    | ok a =>
        cases h
        exact ⟨a, rfl, rfl⟩
  · rintro ⟨a, rfl, rfl⟩
    rfl

theorem map_eq_error {f : α → β} {x : Except ε α} : x.map f = .error e ↔ x = .error e := by
  constructor
  · intro h
    cases x with
    | error e' =>
        cases h
        rfl
    | ok a => cases h
  · rintro rfl
    rfl

theorem mapError_eq_ok {ε' : Type} {f : ε → ε'} {x : Except ε α} {a : α} :
    x.mapError f = .ok a ↔ x = .ok a := by
  constructor
  · intro h
    cases x with
    | error e => cases h
    | ok a' =>
        cases h
        rfl
  · rintro rfl
    rfl

theorem mapError_eq_error {ε' : Type} {f : ε → ε'} {x : Except ε α} {e' : ε'} :
    x.mapError f = .error e' ↔ ∃ e, x = .error e ∧ f e = e' := by
  constructor
  · intro h
    cases x with
    | error e =>
        cases h
        exact ⟨e, rfl, rfl⟩
    | ok a => cases h
  · rintro ⟨e, rfl, rfl⟩
    rfl

/-- A fault of the first element of a list that has one. -/
inductive FirstFault (Fault : α → ε → Prop) : List α → ε → Prop where
  | here {a : α} {l : List α} {e : ε} (h : Fault a e) : FirstFault Fault (a :: l) e
  | later {a : α} {l : List α} {e : ε} (ha : ∀ e', ¬Fault a e') (h : FirstFault Fault l e) :
      FirstFault Fault (a :: l) e

section FirstFault

variable {Fault : α → ε → Prop} {a : α} {l : List α}

theorem not_firstFault_nil : ¬FirstFault Fault [] e := by
  intro h
  cases h

theorem firstFault_cons_of_none (hnone : ∀ e', ¬Fault a e') :
    FirstFault Fault (a :: l) e ↔ FirstFault Fault l e := by
  constructor
  · intro h
    cases h with
    | here h => exact absurd h (hnone e)
    | later _ h => exact h
  · exact .later hnone

theorem firstFault_cons_of_fault {e' : ε} (hfault : Fault a e') :
    FirstFault Fault (a :: l) e ↔ Fault a e := by
  constructor
  · intro h
    cases h with
    | here h => exact h
    | later hnone _ => exact absurd hfault (hnone e')
  · exact .here

theorem FirstFault.exists_mem (h : FirstFault Fault l e) : ∃ a ∈ l, Fault a e := by
  induction h with
  | here h => exact ⟨_, List.mem_cons_self, h⟩
  | later _ _ ih =>
      obtain ⟨a, ha, hfault⟩ := ih
      exact ⟨a, List.mem_cons_of_mem _ ha, hfault⟩

theorem firstFault_map {γ : Type} {g : γ → α} {l : List γ} :
    FirstFault Fault (l.map g) e ↔ FirstFault (fun c => Fault (g c)) l e := by
  induction l with
  | nil => exact iff_of_false not_firstFault_nil not_firstFault_nil
  | cons c l ih =>
      by_cases hfault : ∃ e', Fault (g c) e'
      · obtain ⟨e', hfault⟩ := hfault
        rw [List.map_cons, firstFault_cons_of_fault hfault]
        exact (@firstFault_cons_of_fault _ _ e (fun c => Fault (g c)) _ _ _ hfault).symm
      · have hnone : ∀ e', ¬Fault (g c) e' := not_exists.mp hfault
        rw [List.map_cons, firstFault_cons_of_none hnone, ih]
        exact (@firstFault_cons_of_none _ _ e (fun c => Fault (g c)) _ _ hnone).symm

/-- Elements without a fault may be left out. -/
theorem firstFault_filter {p : α → Bool} (hp : ∀ a, p a = false → ∀ e, ¬Fault a e) :
    FirstFault Fault (l.filter p) e ↔ FirstFault Fault l e := by
  induction l with
  | nil => rfl
  | cons a l ih =>
      by_cases hfault : ∃ e', Fault a e'
      · obtain ⟨e', hfault⟩ := hfault
        have hkept : p a = true := by
          by_contra hdropped
          exact hp a (Bool.eq_false_iff.mpr hdropped) e' hfault
        rw [List.filter_cons_of_pos hkept, firstFault_cons_of_fault hfault,
          firstFault_cons_of_fault hfault]
      · have hnone : ∀ e', ¬Fault a e' := not_exists.mp hfault
        rw [firstFault_cons_of_none hnone, List.filter_cons]
        split
        · rw [firstFault_cons_of_none hnone, ih]
        · exact ih

theorem foldlM_eq_error_iff {f : β → α → Except ε β}
    (hf : ∀ b a e, f b a = .error e ↔ Fault a e) {b : β} :
    l.foldlM f b = .error e ↔ FirstFault Fault l e := by
  induction l generalizing b with
  | nil => exact iff_of_false (fun h => nomatch h) not_firstFault_nil
  | cons a l ih =>
      rw [List.foldlM_cons]
      cases hfa : f b a with
      | error e' =>
          rw [firstFault_cons_of_fault ((hf b a e').mp hfa), ← hf b a e, hfa]
          rfl
      | ok b' =>
          have hnone : ∀ e', ¬Fault a e' := fun e' h =>
            nomatch hfa.symm.trans ((hf b a e').mpr h)
          rw [firstFault_cons_of_none hnone]
          exact ih

end FirstFault

end TestTriage
