import TestTriage.Proofs.Go.Spelling

/-!
# Cutting a text out of a file

What is read from the left and kept as long as it fits does not depend on
what stands behind it, nor on what stood in front. So a part of a file that
begins and ends between two lexemes has the same lexemes by itself
(`lexemes_of_append`), and a rule that has read a part of them reads that
part alone in the same way (`Rule.run_of_append`). The one character that
counts for something else at the start of a file is a byte order mark.
-/

namespace TestTriage.Go

/-! ## Longest matches -/

namespace Scan

/-- A state that accepts has a match. -/
theorem accepts_of_longest_eq_none {state : Scan} {cs : List Char}
    (h : state.longest cs = none) : state.accepts = none := by
  cases cs with
  | nil => simpa [longest] using h
  | cons c cs =>
      rw [longest] at h
      split at h
      · cases h
      · simpa using h

theorem longest_eq_none_of_append {state : Scan} {cs behind : List Char}
    (h : state.longest (cs ++ behind) = none) : state.longest cs = none := by
  induction cs generalizing state with
  | nil =>
      rw [longest, accepts_of_longest_eq_none h]
      rfl
  | cons c cs ih =>
      have hstate := accepts_of_longest_eq_none h
      rw [List.cons_append, longest] at h
      split at h
      · cases h
      · next hlater =>
          have hlater : (state.step c).bind (longest · cs) = none := by
            rw [Option.bind_eq_none_iff] at hlater ⊢
            exact fun next hnext => ih (hlater next hnext)
          rw [longest, hlater, hstate]
          rfl

/-- Nothing is read just if the state accepts and nothing longer does. -/
theorem longest_eq_nil_iff {state : Scan} {cs : List Char} {kind : Lexeme.Kind} :
    state.longest cs = some (kind, [], cs)
      ↔ state.accepts = some kind
        ∧ ∀ c later, cs = c :: later → (state.step c).bind (longest · later) = none := by
  cases cs with
  | nil => simp [longest]
  | cons c cs =>
      have hsplit : (∀ c' later, c :: cs = c' :: later →
          (state.step c').bind (longest · later) = none)
            ↔ (state.step c).bind (longest · cs) = none :=
        ⟨fun h => h c cs rfl, fun h _ _ heq => by cases heq; exact h⟩
      rw [longest, hsplit]
      cases (state.step c).bind (longest · cs) with
      | none => simp
      | some found => simp

/-- A match is still the longest one when the text is cut off behind it. -/
theorem longest_of_append {state : Scan} {piece cs behind : List Char} {kind : Lexeme.Kind}
    (h : state.longest (piece ++ (cs ++ behind)) = some (kind, piece, cs ++ behind)) :
    state.longest (piece ++ cs) = some (kind, piece, cs) := by
  induction piece generalizing state with
  | nil =>
      obtain ⟨haccepts, hnone⟩ := longest_eq_nil_iff.mp h
      refine longest_eq_nil_iff.mpr ⟨haccepts, ?_⟩
      rintro c later rfl
      have hnone := hnone c (later ++ behind) rfl
      rw [Option.bind_eq_none_iff] at hnone ⊢
      exact fun next hnext => longest_eq_none_of_append (hnone next hnext)
  | cons c piece ih =>
      rw [List.cons_append, longest] at h
      split at h
      · next hlater =>
          cases h
          obtain ⟨next, hnext, hlater⟩ := Option.bind_eq_some_iff.mp hlater
          rw [List.cons_append, longest, hnext, Option.bind_some, ih hlater]
      · rw [Option.map_eq_some_iff] at h
        obtain ⟨_, _, h⟩ := h
        cases h

end Scan

/-! ## Lexemes -/

/-- The lexeme at the front of a text does not depend on what is cut off behind
it. -/
theorem nextLexeme_of_append {c : Char} {piece cs behind : List Char} {l : Lexeme}
    (h : nextLexeme c (piece ++ (cs ++ behind)) = (l, cs ++ behind)) :
    nextLexeme c (piece ++ cs) = (l, cs) := by
  rw [nextLexeme] at h ⊢
  split at h
  · next kind piece' rest hfound =>
      cases h
      obtain ⟨state, hstate, hfound⟩ := Option.bind_eq_some_iff.mp hfound
      obtain rfl := List.append_cancel_right (Scan.longest_append hfound)
      rw [hstate, Option.bind_some, Scan.longest_of_append hfound]
  · next hnone =>
      obtain ⟨rfl, hpiece⟩ := Prod.mk.inj h
      obtain rfl : piece = [] := List.append_left_eq_self.mp hpiece
      have hcut : (Scan.first c).bind (Scan.longest · cs) = none := by
        rw [Option.bind_eq_none_iff] at hnone ⊢
        exact fun state hstate => Scan.longest_eq_none_of_append (hnone state hstate)
      rw [List.nil_append, hcut]

/-- A lexeme begins with the character it is read from. -/
theorem exists_text_nextLexeme {c : Char} {cs rest : List Char} {l : Lexeme}
    (h : nextLexeme c cs = (l, rest)) :
    ∃ piece, l.text.toList = c :: piece ∧ cs = piece ++ rest := by
  have happend := nextLexeme_append c cs
  have hle := length_nextLexeme_le c cs
  rw [h] at happend hle
  cases htext : l.text.toList with
  | nil =>
      rw [htext, List.nil_append] at happend
      rw [happend, List.length_cons] at hle
      omega
  | cons d piece =>
      rw [htext, List.cons_append] at happend
      obtain ⟨rfl, rfl⟩ := List.cons.inj happend
      exact ⟨piece, rfl, rfl⟩

/-- A text cut into lexemes. -/
inductive Lexed : List Char → List Lexeme → Prop where
  | nil : Lexed [] []
  | cons {c : Char} {cs rest : List Char} {l : Lexeme} {ls : List Lexeme}
      (h : nextLexeme c cs = (l, rest)) (hs : Lexed rest ls) : Lexed (c :: cs) (l :: ls)

theorem lexed_lexemesUpTo {limit : Nat} {cs : List Char} (h : cs.length ≤ limit) :
    Lexed cs (lexemesUpTo limit cs) := by
  induction limit generalizing cs with
  | zero =>
      rw [List.length_eq_zero_iff.mp (Nat.le_zero.mp h)]
      exact .nil
  | succ limit ih =>
      cases cs with
      | nil => exact .nil
      | cons c cs =>
          exact .cons rfl (ih (Nat.le_trans (length_nextLexeme_le c cs)
            (Nat.le_of_succ_le_succ h)))

namespace Lexed

variable {cs : List Char} {ls ls' : List Lexeme}

/-- There is one way to cut a text. -/
theorem lexemesUpTo_eq (h : Lexed cs ls) {limit : Nat} (hlimit : cs.length ≤ limit) :
    lexemesUpTo limit cs = ls := by
  induction h generalizing limit with
  | nil => cases limit <;> rfl
  | @cons c cs rest l ls hnext _ ih =>
      obtain ⟨limit, rfl⟩ : ∃ n, limit = n + 1 := ⟨limit - 1, by simp at hlimit; omega⟩
      have hle := length_nextLexeme_le c cs
      rw [hnext] at hle
      rw [lexemesUpTo, hnext]
      dsimp only
      rw [ih (Nat.le_trans hle (Nat.le_of_succ_le_succ hlimit))]

theorem spell_eq (h : Lexed cs ls) : (Lexeme.spell ls).toList = cs := by
  induction h with
  | nil => rfl
  | @cons c cs rest l ls hnext _ ih =>
      have happend := nextLexeme_append c cs
      rw [hnext] at happend
      rw [Lexeme.spell_cons, String.toList_append, ih, happend]

theorem right_of_append (h : Lexed cs (ls ++ ls')) : Lexed (Lexeme.spell ls').toList ls' := by
  induction ls generalizing cs with
  | nil => exact (h.spell_eq).symm ▸ h
  | cons l ls ih =>
      cases h with
      | cons _ hs => exact ih hs

theorem left_of_append (h : Lexed cs (ls ++ ls')) : Lexed (Lexeme.spell ls).toList ls := by
  induction ls generalizing cs with
  | nil => exact .nil
  | cons l ls ih =>
      cases h with
      | @cons c cs rest _ _ hnext hs =>
          have hs : Lexed rest (ls ++ ls') := hs
          obtain ⟨piece, htext, rfl⟩ := exists_text_nextLexeme hnext
          rw [← hs.spell_eq, Lexeme.spell_append, String.toList_append] at hnext
          rw [Lexeme.spell_cons, String.toList_append, htext, List.cons_append]
          exact .cons (nextLexeme_of_append hnext) (ih hs)

/-- No lexeme is empty. -/
theorem bytes_pos {l : Lexeme} (h : Lexed cs (l :: ls)) : 0 < l.bytes := by
  cases h with
  | cons hnext _ =>
      obtain ⟨piece, htext, -⟩ := exists_text_nextLexeme hnext
      refine Nat.pos_of_ne_zero fun hzero => ?_
      rw [String.utf8ByteSize_eq_zero_iff.mp hzero] at htext
      cases htext

/-- Apart from the start of a file a byte order mark is a stray character. -/
theorem eq_stray_of_byteOrderMark (h : Lexed cs ls) {l : Lexeme} (hl : l ∈ ls)
    (hmark : l.text.toList.head? = some byteOrderMark) : l = .make .stray [byteOrderMark] := by
  induction h with
  | nil => exact absurd hl List.not_mem_nil
  | @cons c cs rest l' ls hnext _ ih =>
      rcases List.mem_cons.mp hl with rfl | hl
      · obtain ⟨piece, htext, -⟩ := exists_text_nextLexeme hnext
        obtain rfl : c = byteOrderMark := by simpa [htext] using hmark
        have hfirst : Scan.first byteOrderMark = none := by decide +kernel
        rw [nextLexeme, hfirst] at hnext
        exact (Prod.mk.inj hnext).1.symm
      · exact ih hl

end Lexed

/-- The lexemes of a file are those of its text, behind the byte order mark if
there is one. -/
theorem lexemes_cases (source : String) :
    Lexed source.toList (lexemes source)
      ∨ ∃ cs ls, Lexed cs ls ∧ lexemes source = .make .blank [byteOrderMark] :: ls := by
  rw [lexemes]
  split
  · next h => rw [h]; exact .inl .nil
  · next c cs h =>
      split
      · next hc => exact .inr ⟨cs, _, lexed_lexemesUpTo (Nat.le_refl _), by rw [hc]⟩
      · rw [h]; exact .inl (lexed_lexemesUpTo (Nat.le_refl _))

theorem eq_of_byteOrderMark {source : String} {l : Lexeme} (hl : l ∈ lexemes source)
    (hmark : l.text.toList.head? = some byteOrderMark) :
    l = .make .blank [byteOrderMark] ∨ l = .make .stray [byteOrderMark] := by
  rcases lexemes_cases source with hlexed | ⟨cs, ls, hlexed, hls⟩
  · exact .inr (hlexed.eq_stray_of_byteOrderMark hl hmark)
  · rw [hls] at hl
    rcases List.mem_cons.mp hl with rfl | hl
    · exact .inl rfl
    · exact .inr (hlexed.eq_stray_of_byteOrderMark hl hmark)

section Part

variable {source : String} {front part behind : List Lexeme}
  (h : lexemes source = front ++ part ++ behind)
  (hmark : ∀ l ∈ part.head?, l.text.toList.head? ≠ some byteOrderMark)

include h hmark

theorem lexed_of_append : Lexed (Lexeme.spell part).toList part := by
  rcases lexemes_cases source with hlexed | ⟨cs, ls, hlexed, hls⟩
  · rw [h] at hlexed
    exact hlexed.left_of_append.right_of_append
  · rw [hls] at h
    cases front with
    | cons l front =>
        obtain ⟨-, rfl⟩ := List.cons.inj h
        exact hlexed.left_of_append.right_of_append
    | nil =>
        cases part with
        | nil => exact .nil
        | cons l part =>
            obtain ⟨rfl, -⟩ := List.cons.inj h
            exact absurd rfl (hmark _ rfl)

/-- A part of a file that begins and ends between lexemes, and not with a byte order
mark, has the same lexemes by itself. -/
theorem lexemes_of_append : lexemes (Lexeme.spell part) = part := by
  have hpart : Lexed (Lexeme.spell part).toList part := lexed_of_append h hmark
  rw [lexemes]
  split
  · next hnil =>
      rw [hnil] at hpart
      cases hpart
      rfl
  · next c cs hcons =>
      rw [hcons] at hpart
      cases hpart with
      | cons hnext hs =>
          obtain ⟨piece, htext, -⟩ := exists_text_nextLexeme hnext
          have hc : c ≠ byteOrderMark := fun hc => hmark _ rfl (by rw [htext, hc]; rfl)
          rw [if_neg hc]
          exact (Lexed.cons hnext hs).lexemesUpTo_eq (Nat.le_refl _)

end Part

/-! ## Rules -/

/-- What a rule has read is read in the same way if nothing stands behind it. -/
theorem Rule.run_of_append {α : Type} {r : Rule α} {ls rest : List Lexeme} {value : α}
    (h : r.run (ls ++ rest) = .ok (value, rest)) : r.run ls = .ok (value, []) := by
  induction r generalizing ls with
  | done v =>
      obtain ⟨rfl, hls⟩ := Prod.mk.inj (Except.ok.inj h)
      rw [List.append_left_eq_self.mp hls]
      rfl
  | refuse wanted => cases h
  | read gap fits onFit otherwise ihFit ihOtherwise =>
      rw [run, Gap.skip] at h ⊢
      rw [List.dropWhile_append] at h
      cases hskip : ls.dropWhile gap.passes with
      | nil =>
          rw [hskip, List.isEmpty_nil, if_pos rfl] at h
          -- no token is left, and one from behind would not have stayed there
          have hotherwise : (otherwise ()).run (ls ++ rest) = .ok (value, rest) := by
            split at h
            · exact h
            · next l later hbehind =>
                split at h
                · have hrest : rest <:+ later := suffix_of_run h
                  have hlater : l :: later <:+ rest := hbehind ▸ List.dropWhile_suffix _
                  have := hrest.length_le
                  have := hlater.length_le
                  simp at this
                  omega
                · exact h
          exact ihOtherwise () hotherwise
      | cons l later =>
          rw [hskip, List.isEmpty_cons, if_neg Bool.false_ne_true, List.cons_append] at h
          dsimp only at h ⊢
          split at h
          · next hfits => rw [if_pos hfits]; exact ihFit l h
          · next hfits => rw [if_neg hfits]; exact ihOtherwise () h

end TestTriage.Go
