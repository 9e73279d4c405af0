import TestTriage.Go.SourceFile
import TestTriage.Proofs.Failing

/-!
# A source file is its pieces

Nothing of a source text is lost on the way to its pieces, and nothing is
put in: the lexemes of a text spell the text (`spell_lexemes`), and the
pieces of a file have the file's lexemes (`flatMap_pieces`). A rule reads
from the left, so what it leaves is the end of what it was given
(`Rule.suffix_of_run`), and the item is what stands in front of that.
-/

namespace TestTriage.Go

/-! ## Spelling -/

namespace Lexeme

@[simp] theorem spell_nil : spell [] = "" := rfl

@[simp] theorem spell_cons (l : Lexeme) (ls : List Lexeme) :
    spell (l :: ls) = l.text ++ spell ls := by
  rw [spell, List.map_cons, String.join_cons]
  rfl

@[simp] theorem spell_append (ls ls' : List Lexeme) :
    spell (ls ++ ls') = spell ls ++ spell ls' := by
  induction ls with
  | nil => simp
  | cons l ls ih => rw [List.cons_append, spell_cons, ih, spell_cons, String.append_assoc]

@[simp] theorem bytesOf_cons (l : Lexeme) (ls : List Lexeme) :
    bytesOf (l :: ls) = l.bytes + bytesOf ls := rfl

@[simp] theorem rowsOf_cons (l : Lexeme) (ls : List Lexeme) :
    rowsOf (l :: ls) = l.rows + rowsOf ls := rfl

@[simp] theorem bytesOf_append (ls ls' : List Lexeme) :
    bytesOf (ls ++ ls') = bytesOf ls + bytesOf ls' := by
  induction ls with
  | nil => exact (Nat.zero_add _).symm
  | cons l ls ih => rw [List.cons_append, bytesOf_cons, ih, bytesOf_cons, Nat.add_assoc]

@[simp] theorem rowsOf_append (ls ls' : List Lexeme) :
    rowsOf (ls ++ ls') = rowsOf ls + rowsOf ls' := by
  induction ls with
  | nil => exact (Nat.zero_add _).symm
  | cons l ls ih => rw [List.cons_append, rowsOf_cons, ih, rowsOf_cons, Nat.add_assoc]

theorem bytesOf_eq (ls : List Lexeme) : bytesOf ls = (spell ls).utf8ByteSize := by
  induction ls with
  | nil => rfl
  | cons l ls ih =>
      rw [bytesOf_cons, ih, spell_cons, String.utf8ByteSize_append]
      rfl

theorem text_make (kind : Kind) (cs : List Char) : (make kind cs).text = String.ofList cs := by
  rw [make]
  split <;> rfl

end Lexeme

/-! ## Lexemes -/

theorem Scan.longest_append {state : Scan} {cs piece rest : List Char} {kind : Lexeme.Kind}
    (h : state.longest cs = some (kind, piece, rest)) : piece ++ rest = cs := by
  induction cs generalizing state piece rest kind with
  | nil =>
      rw [longest, Option.map_eq_some_iff] at h
      obtain ⟨_, _, h⟩ := h
      cases h
      rfl
  | cons c cs ih =>
      rw [longest] at h
      split at h
      · next hlater =>
          obtain ⟨next, _, hlater⟩ := Option.bind_eq_some_iff.mp hlater
          cases h
          rw [List.cons_append, ih hlater]
      · rw [Option.map_eq_some_iff] at h
        obtain ⟨_, _, h⟩ := h
        cases h
        rfl

theorem nextLexeme_append (c : Char) (cs : List Char) :
    (nextLexeme c cs).1.text.toList ++ (nextLexeme c cs).2 = c :: cs := by
  rw [nextLexeme]
  split
  · next h =>
      obtain ⟨state, _, h⟩ := Option.bind_eq_some_iff.mp h
      rw [Lexeme.text_make, String.toList_ofList, List.cons_append, Scan.longest_append h]
  · rw [Lexeme.text_make, String.toList_ofList]
    rfl

theorem length_nextLexeme_le (c : Char) (cs : List Char) :
    (nextLexeme c cs).2.length ≤ cs.length := by
  rw [nextLexeme]
  split
  · next h =>
      obtain ⟨state, _, h⟩ := Option.bind_eq_some_iff.mp h
      rw [← Scan.longest_append h, List.length_append]
      exact Nat.le_add_left _ _
  · exact Nat.le_refl _

theorem spell_lexemesUpTo {limit : Nat} {cs : List Char} (h : cs.length ≤ limit) :
    Lexeme.spell (lexemesUpTo limit cs) = String.ofList cs := by
  induction limit generalizing cs with
  | zero =>
      rw [List.length_eq_zero_iff.mp (Nat.le_zero.mp h)]
      rfl
  | succ limit ih =>
      cases cs with
      | nil => rfl
      | cons c cs =>
          have hrest : (nextLexeme c cs).2.length ≤ limit :=
            Nat.le_trans (length_nextLexeme_le c cs) (Nat.le_of_succ_le_succ h)
          rw [lexemesUpTo, Lexeme.spell_cons, ih hrest, ← nextLexeme_append c cs,
            String.ofList_append, String.ofList_toList]

/-- The lexemes of a text spell it. -/
theorem spell_lexemes (source : String) : Lexeme.spell (lexemes source) = source := by
  rw [lexemes]
  split
  · next h => exact (String.toList_inj.mp h).symm
  · next c cs h =>
      rw [← String.ofList_toList (s := source), h]
      split
      · rw [Lexeme.spell_cons, spell_lexemesUpTo (Nat.le_refl _), Lexeme.text_make,
          ← String.ofList_append]
        rfl
      · exact spell_lexemesUpTo (Nat.le_refl _)

/-! ## Pieces -/

/-- A rule leaves the end of what it is given. -/
theorem Rule.suffix_of_run {α : Type} {r : Rule α} {ls rest : List Lexeme} {value : α}
    (h : r.run ls = .ok (value, rest)) : rest <:+ ls := by
  induction r generalizing ls with
  | done v => cases h; exact List.suffix_rfl
  | refuse wanted => cases h
  | read gap fits onFit otherwise ihFit ihOtherwise =>
      rw [run] at h
      split at h
      · exact ihOtherwise () h
      · next l later hskip =>
          split at h
          · have hlater : l :: later <:+ ls := hskip ▸ List.dropWhile_suffix _
            exact (ihFit l h).trans ((List.suffix_cons l later).trans hlater)
          · exact ihOtherwise () h

theorem consumed_append {ls rest : List Lexeme} (h : rest <:+ ls) :
    consumed ls rest ++ rest = ls := by
  obtain ⟨before, rfl⟩ := h
  rw [consumed, List.length_append, Nat.add_sub_cancel, List.take_left]

theorem flatMap_piecesUpTo {limit : Nat} {pending : Pending} {ls : List Lexeme}
    {ps : List Piece} (hlimit : ls.length ≤ limit) (h : piecesUpTo limit pending ls = .ok ps) :
    ps.flatMap Piece.lexemes = ls := by
  induction limit generalizing pending ls ps with
  | zero =>
      obtain rfl := List.length_eq_zero_iff.mp (Nat.le_zero.mp hlimit)
      rw [piecesUpTo] at h
      split at h <;> cases h
      rfl
  | succ limit ih =>
      cases ls with
      | nil =>
          rw [piecesUpTo] at h
          split at h <;> cases h
          rfl
      | cons l ls =>
          have hls : ls.length ≤ limit := Nat.le_of_succ_le_succ hlimit
          -- all pieces but items are one lexeme
          have hone : ∀ {pending : Pending} {p : Piece}, p.lexemes = [l] →
              (do return p :: (← piecesUpTo limit pending ls)) = Except.ok ps →
              ps.flatMap Piece.lexemes = l :: ls := by
            intro pending p hp h
            obtain ⟨others, hothers, heq⟩ := bind_eq_ok.mp h
            cases heq
            rw [List.flatMap_cons, ih hls hothers, hp]
            rfl
          rw [piecesUpTo] at h
          split at h
          · exact hone rfl h
          · exact hone rfl h
          · exact hone rfl h
          · split at h
            · exact hone rfl h
            · split at h
              · cases h
              · split at h
                · cases h
                · next tree rest hrun =>
                    have hrest : rest <:+ ls := Rule.suffix_of_run hrun
                    obtain ⟨others, hothers, heq⟩ := bind_eq_ok.mp h
                    cases heq
                    rw [List.flatMap_cons, ih (Nat.le_trans hrest.length_le hls) hothers]
                    exact congrArg (l :: ·) (consumed_append hrest)

/-- The pieces of a file have the lexemes of its text. -/
theorem flatMap_pieces {ls : List Lexeme} {ps : List Piece} (h : pieces ls = .ok ps) :
    ps.flatMap Piece.lexemes = ls :=
  flatMap_piecesUpTo (Nat.le_refl _) h

namespace SourceFile

variable {path : Path} {source : String} {f : SourceFile}

theorem pieces_of_read (h : read path source = .ok f) :
    Go.pieces (lexemes source) = .ok f.pieces := by
  rw [read] at h
  split at h
  · next hpieces =>
      cases h
      exact hpieces
  · cases h

theorem text_of_read (h : read path source = .ok f) : f.text = source := by
  rw [read] at h
  split at h <;> cases h
  rfl

/-- The pieces of a file that was read spell its text. -/
theorem spell_pieces_of_read (h : read path source = .ok f) :
    Lexeme.spell (f.pieces.flatMap Piece.lexemes) = f.text := by
  rw [flatMap_pieces (pieces_of_read h), spell_lexemes, text_of_read h]

end SourceFile

end TestTriage.Go
