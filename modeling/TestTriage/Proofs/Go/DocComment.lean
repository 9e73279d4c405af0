import TestTriage.Proofs.Go.Placement

/-!
# Doc comments

What the text of a declaration begins with, said of the pieces in front
of it: the longest block of comments that ends on the row above
(`IsDoc`). The scan goes over the pieces once and holds one block at a
time; `Knows` is what it knows behind some pieces, the block being the
longest that ends there (`knows_step`).

What a block may not touch is code, and the scan takes every `;` for
code, also one that only ends an item. The rows of a block show the
difference if there is a comment with a line end between the item and
its `;`, and only then (`isDocBlock_iff_of_terminatorsInRow`).
-/

namespace TestTriage.Go

open Placed

/-! ## Blocks of comments -/

/-- Comments without code between them, each at most one row below the end of
the one before, and none on the row where the code in front ends. -/
structure IsCommentBlock (code : Placed → Bool) (front run : List Placed) : Prop where
  begins : run.head?.any isComment = true
  no_code : ∀ p ∈ run, code p = false
  linked : (run.filter isComment).IsChain fun c d => d.row ≤ c.lastRow + 1
  apart : ∀ c ∈ run, c.isComment = true → lastRowOf code front ≠ some c.row

/-- A block whose last comment ends on the row above. -/
structure IsDocBlock (code : Placed → Bool) (row : Nat) (front run : List Placed) : Prop
    extends IsCommentBlock code front run where
  above : (lastRowOf isComment run).map (· + 1) = some row

instance decidableIsDocBlock (code : Placed → Bool) (row : Nat) (front run : List Placed) :
    Decidable (IsDocBlock code row front run) :=
  decidable_of_iff
    (run.head?.any isComment = true ∧ (∀ p ∈ run, code p = false)
      ∧ (run.filter isComment).IsChain (fun c d => d.row ≤ c.lastRow + 1)
      ∧ (∀ c ∈ run, c.isComment = true → lastRowOf code front ≠ some c.row)
      ∧ (lastRowOf isComment run).map (· + 1) = some row)
    ⟨fun ⟨hbegins, hcode, hlinked, hapart, habove⟩ => ⟨⟨hbegins, hcode, hlinked, hapart⟩, habove⟩,
      fun h => ⟨h.begins, h.no_code, h.linked, h.apart, h.above⟩⟩

/-- The longest block that ends on the row above, or nothing if there is none. -/
structure IsDoc (code : Placed → Bool) (row : Nat) (front run : List Placed) : Prop where
  block : run = [] ∨ IsDocBlock code row front run
  longest : ∀ front' run', front' ++ run' = front ++ run →
    IsDocBlock code row front' run' → run'.length ≤ run.length

variable {code : Placed → Bool} {front run before : List Placed} {q : Placed}

theorem isCommentBlock_singleton :
    IsCommentBlock code front [q]
      ↔ q.isComment = true ∧ code q = false ∧ lastRowOf code front ≠ some q.row := by
  constructor
  · intro h
    have hq : q.isComment = true := by simpa using h.begins
    exact ⟨hq, h.no_code q List.mem_cons_self, h.apart q List.mem_cons_self hq⟩
  · rintro ⟨hq, hcode, hapart⟩
    refine ⟨by simpa using hq, by simpa using hcode, ?_, by simpa using fun _ => hapart⟩
    rw [List.filter_cons_of_pos hq]
    exact List.isChain_singleton q

theorem isChain_filter_concat :
    ((run ++ [q]).filter isComment).IsChain (fun c d => d.row ≤ c.lastRow + 1)
      ↔ (run.filter isComment).IsChain (fun c d => d.row ≤ c.lastRow + 1)
        ∧ (q.isComment = true → ∀ row, lastRowOf isComment run = some row → q.row ≤ row + 1) := by
  rw [List.filter_append]
  by_cases hq : q.isComment = true
  · rw [List.filter_cons_of_pos hq, List.isChain_append]
    simp [lastRowOf, hq]
  · simp [hq]

theorem isCommentBlock_concat (hrun : run ≠ []) :
    IsCommentBlock code front (run ++ [q])
      ↔ IsCommentBlock code front run ∧ code q = false
        ∧ (q.isComment = true → (∀ row, lastRowOf isComment run = some row → q.row ≤ row + 1)
          ∧ lastRowOf code front ≠ some q.row) := by
  have hhead : (run ++ [q]).head? = run.head? := List.head?_append_of_ne_nil run hrun
  constructor
  · intro h
    obtain ⟨hlinked, hlink⟩ := isChain_filter_concat.mp h.linked
    refine ⟨⟨hhead ▸ h.begins, fun p hp => h.no_code p (List.mem_append_left _ hp), hlinked,
      fun c hc => h.apart c (List.mem_append_left _ hc)⟩, ?_, fun hq => ⟨hlink hq, ?_⟩⟩
    · exact h.no_code q (List.mem_append_right _ List.mem_cons_self)
    · exact h.apart q (List.mem_append_right _ List.mem_cons_self) hq
  · rintro ⟨h, hcode, hcomment⟩
    refine ⟨hhead ▸ h.begins, fun p hp => ?_, isChain_filter_concat.mpr
      ⟨h.linked, fun hq => (hcomment hq).1⟩, fun c hc hcomm => ?_⟩
    · rcases List.mem_append.mp hp with hp | hp
      · exact h.no_code p hp
      · rwa [List.mem_singleton.mp hp]
    · rcases List.mem_append.mp hc with hc | hc
      · exact h.apart c hc hcomm
      · rw [List.mem_singleton.mp hc] at hcomm ⊢
        exact (hcomment hcomm).2

namespace IsCommentBlock

theorem exists_cons (h : IsCommentBlock code front run) :
    ∃ c others, run = c :: others ∧ c.isComment = true := by
  obtain ⟨c, hc, hcomment⟩ := (Option.any_eq_true _ _).mp h.begins
  obtain ⟨others, rfl⟩ := List.head?_eq_some_iff.mp hc
  exact ⟨c, others, rfl, hcomment⟩

theorem ne_nil (h : IsCommentBlock code front run) : run ≠ [] := by
  obtain ⟨c, others, rfl, -⟩ := h.exists_cons
  exact List.cons_ne_nil c others

/-- A block stands below the row on which the code in front ends. -/
theorem lt_row (h : IsCommentBlock code front run) (hdown : Descending (front ++ run))
    {row : Nat} (hrow : lastRowOf code front = some row) {p : Placed} (hp : p ∈ run) :
    row < p.row := by
  obtain ⟨c, others, rfl, hcomment⟩ := h.exists_cons
  obtain ⟨e, he, -, rfl⟩ := exists_of_lastRowOf hrow
  obtain ⟨-, hrun, hacross⟩ := List.pairwise_append.mp hdown
  have hec : e.lastRow ≤ c.row := hacross e he c List.mem_cons_self
  have hne : e.lastRow ≠ c.row := fun heq =>
    h.apart c List.mem_cons_self hcomment (hrow.trans (congrArg some heq))
  have hcp : c.row ≤ p.row := by
    rcases List.mem_cons.mp hp with rfl | hp
    · exact Nat.le_refl _
    · exact Nat.le_trans (row_le_lastRow c) ((List.pairwise_cons.mp hrun).1 p hp)
  omega

theorem isSome_lastRowOf_comment (h : IsCommentBlock code front run) :
    (lastRowOf isComment run).isSome := by
  obtain ⟨c, others, rfl, hcomment⟩ := h.exists_cons
  rw [lastRowOf, Option.isSome_map, List.getLast?_isSome, List.filter_cons_of_pos hcomment]
  exact List.cons_ne_nil _ _

theorem lastRowOf_comment (h : IsCommentBlock code front run) :
    lastRowOf isComment (front ++ run) = lastRowOf isComment run := by
  rw [lastRowOf_append, Option.or_of_isSome h.isSome_lastRowOf_comment]

end IsCommentBlock

/-- A run that reaches to the end of the pieces holds the last one. -/
theorem exists_of_append_eq_concat (h : front ++ run = before ++ [q]) (hrun : run ≠ []) :
    ∃ run', run = run' ++ [q] ∧ front ++ run' = before := by
  rcases List.eq_nil_or_concat run with rfl | ⟨run', q', rfl⟩
  · exact absurd rfl hrun
  · rw [List.concat_eq_append] at *
    rw [← List.append_assoc] at h
    obtain ⟨rfl, hq⟩ := List.append_inj' h rfl
    exact ⟨run', by rw [List.singleton_inj.mp hq], rfl⟩

/-! ## What the scan knows -/

/-- The block that the scan holds is the longest that ends behind some pieces. -/
def HoldsBlock : Option CommentBlock → List Placed → Prop
  | none, before => ∀ front run, front ++ run = before → ¬IsCommentBlock isCode front run
  | some b, before => ∃ front run, front ++ run = before ∧ IsCommentBlock isCode front run
      ∧ (∀ front' run', front' ++ run' = before → IsCommentBlock isCode front' run' →
          run'.length ≤ run.length)
      ∧ b.lexemes = lexemesOf run ∧ b.offset = Lexeme.bytesOf (lexemesOf front)
      ∧ lastRowOf isComment run = some b.lastRow

/-- What the scan knows behind some pieces. -/
structure Knows (s : DocScan) (before : List Placed) : Prop where
  row : s.row = Lexeme.rowsOf (lexemesOf before)
  offset : s.offset = Lexeme.bytesOf (lexemesOf before)
  codeRow : s.codeRow = lastRowOf isCode before
  block : HoldsBlock s.block before

theorem holdsBlock_nil : HoldsBlock none [] := by
  intro front run h hblock
  exact hblock.ne_nil (List.append_eq_nil_iff.mp h).2

/-- Code ends every block. -/
theorem holdsBlock_code (hq : q.isCode = true) : HoldsBlock none (before ++ [q]) := by
  intro front run h hblock
  have hmem : q ∈ front ++ run := h ▸ List.mem_append_right _ List.mem_cons_self
  obtain ⟨run', rfl, -⟩ := exists_of_append_eq_concat h hblock.ne_nil
  have := hblock.no_code q (List.mem_append_right _ List.mem_cons_self)
  rw [hq] at this
  exact Bool.noConfusion this

/-- White space goes to the block in front of it. -/
theorem holdsBlock_space {l : Lexeme} {row : Nat} {pending : Pending}
    {block : Option CommentBlock} (h : HoldsBlock block before) :
    HoldsBlock (block.map fun b => { b with lexemes := b.lexemes ++ [l] })
      (before ++ [⟨.space l, row, pending⟩]) := by
  have hinit : ∀ {front run}, front ++ run = before ++ [⟨.space l, row, pending⟩] →
      IsCommentBlock isCode front run →
      ∃ run', run = run' ++ [⟨.space l, row, pending⟩] ∧ front ++ run' = before
        ∧ IsCommentBlock isCode front run' := by
    intro front run hsplit hblock
    obtain ⟨run', rfl, hfront⟩ := exists_of_append_eq_concat hsplit hblock.ne_nil
    refine ⟨run', rfl, hfront, ?_⟩
    rcases List.eq_nil_or_concat run' with rfl | ⟨_, _, rfl⟩
    · exact Bool.noConfusion hblock.begins
    · exact ((isCommentBlock_concat (by simp)).mp hblock).1
  cases block with
  | none =>
      intro front run hsplit hblock
      obtain ⟨run', -, hfront, hblock'⟩ := hinit hsplit hblock
      exact h front run' hfront hblock'
  | some b =>
      obtain ⟨front, run, rfl, hblock, hlongest, hlexemes, hoffset, hlast⟩ := h
      refine ⟨front, run ++ [⟨.space l, row, pending⟩], (List.append_assoc ..).symm, ?_, ?_, ?_,
        hoffset, ?_⟩
      · exact (isCommentBlock_concat hblock.ne_nil).mpr ⟨hblock, rfl, fun h => nomatch h⟩
      · intro front' run' hsplit hblock'
        obtain ⟨run'', rfl, hfront, hblock''⟩ := hinit hsplit hblock'
        simpa using hlongest front' run'' hfront hblock''
      · rw [lexemesOf_append, ← hlexemes]; rfl
      · rw [lastRowOf_concat, hlast]; rfl

/-- A comment that no block in front reaches begins one of its own, unless
code ends on its row. -/
theorem holdsBlock_begun {l : Lexeme} {row : Nat} {pending : Pending}
    (h : ∀ front run, front ++ run = before → IsCommentBlock isCode front run →
      ∀ lastRow, lastRowOf isComment run = some lastRow → lastRow + 1 < row) :
    HoldsBlock
      (if lastRowOf isCode before = some row then none
        else some ⟨[l], Lexeme.bytesOf (lexemesOf before), row + l.rows⟩)
      (before ++ [⟨.comment l, row, pending⟩]) := by
  have halone : ∀ front run, front ++ run = before ++ [⟨.comment l, row, pending⟩] →
      IsCommentBlock isCode front run → front = before ∧ run = [⟨.comment l, row, pending⟩] := by
    intro front run hsplit hblock
    obtain ⟨run', rfl, hfront⟩ := exists_of_append_eq_concat hsplit hblock.ne_nil
    rcases eq_or_ne run' [] with rfl | hrun'
    · exact ⟨by simpa using hfront, rfl⟩
    · obtain ⟨hblock', -, hlink⟩ := (isCommentBlock_concat hrun').mp hblock
      obtain ⟨lastRow, hlast⟩ := Option.isSome_iff_exists.mp hblock'.isSome_lastRowOf_comment
      have hfar := h front run' hfront hblock' lastRow hlast
      have hnear : row ≤ lastRow + 1 := (hlink rfl).1 lastRow hlast
      omega
  split
  · next hcode =>
      intro front run hsplit hblock
      obtain ⟨rfl, rfl⟩ := halone front run hsplit hblock
      exact (isCommentBlock_singleton.mp hblock).2.2 hcode
  · next hcode =>
      refine ⟨before, _, rfl, isCommentBlock_singleton.mpr ⟨rfl, rfl, hcode⟩, ?_, rfl, rfl, rfl⟩
      intro front run hsplit hblock
      rw [(halone front run hsplit hblock).2]

/-- A comment near enough to the longest block carries it on. -/
theorem holdsBlock_carried {b : CommentBlock} {l : Lexeme} {row : Nat} {pending : Pending}
    (hdown : Descending (before ++ [⟨.comment l, row, pending⟩]))
    (h : HoldsBlock (some b) before) (hnear : row ≤ b.lastRow + 1) :
    HoldsBlock (some ⟨b.lexemes ++ [l], b.offset, row + l.rows⟩)
      (before ++ [⟨.comment l, row, pending⟩]) := by
  obtain ⟨front, run, rfl, hblock, hlongest, hlexemes, hoffset, hlast⟩ := h
  have hapart : lastRowOf isCode front ≠ some row := by
    intro hcode
    obtain ⟨c, others, rfl, -⟩ := hblock.exists_cons
    obtain ⟨hbefore, -, hbehind⟩ := List.pairwise_append.mp hdown
    -- the first comment of the block stands between the code and the new one
    have hrow : row < c.row := hblock.lt_row hbefore hcode List.mem_cons_self
    have hcq : c.lastRow ≤ row := hbehind c (by simp) _ List.mem_cons_self
    have := row_le_lastRow c
    omega
  refine ⟨front, run ++ [⟨.comment l, row, pending⟩], (List.append_assoc ..).symm, ?_, ?_, ?_,
    hoffset, lastRowOf_concat ..⟩
  · refine (isCommentBlock_concat hblock.ne_nil).mpr ⟨hblock, rfl, fun _ => ⟨?_, hapart⟩⟩
    intro lastRow hlastRow
    rw [hlast] at hlastRow
    exact Option.some.inj hlastRow ▸ hnear
  · intro front' run' hsplit hblock'
    obtain ⟨run'', rfl, hfront⟩ := exists_of_append_eq_concat hsplit hblock'.ne_nil
    rcases eq_or_ne run'' [] with rfl | hrun''
    · simp
    · simpa using hlongest front' run'' hfront ((isCommentBlock_concat hrun'').mp hblock').1
  · rw [lexemesOf_append, ← hlexemes]; rfl

theorem holdsBlock_comment {s : DocScan} {l : Lexeme} {pending : Pending}
    (hdown : Descending (before ++ [⟨.comment l, s.row, pending⟩]))
    (h : Knows s before) :
    HoldsBlock (s.blockBehind l) (before ++ [⟨.comment l, s.row, pending⟩]) := by
  have hblock := h.block
  rw [DocScan.blockBehind, h.codeRow, h.offset]
  cases hb : s.block with
  | none =>
      rw [hb] at hblock
      exact holdsBlock_begun fun front run hsplit hcomments =>
        absurd hcomments (hblock front run hsplit)
  | some b =>
      rw [hb] at hblock
      by_cases hnear : s.row ≤ b.lastRow + 1
      · simp only [if_pos hnear]
        exact holdsBlock_carried hdown hblock hnear
      · simp only [if_neg hnear]
        refine holdsBlock_begun fun front run hsplit hcomments lastRow hlastRow => ?_
        obtain ⟨front', run', rfl, hblock', -, -, -, hlast⟩ := hblock
        -- all blocks that end here end with the same comment
        have hsame : lastRowOf isComment run = lastRowOf isComment run' := by
          rw [← hcomments.lastRowOf_comment, hsplit, hblock'.lastRowOf_comment]
        rw [hsame, hlast] at hlastRow
        have := Option.some.inj hlastRow
        omega

theorem knows_start : Knows .start [] := ⟨rfl, rfl, rfl, holdsBlock_nil⟩

/-- One step: what the scan knows behind a piece. -/
theorem knows_step {s : DocScan} {p : Piece} {pending : Pending}
    (hdown : Descending (before ++ [⟨p, s.row, pending⟩])) (h : Knows s before) :
    Knows (s.step p) (before ++ [⟨p, s.row, pending⟩]) := by
  have hrow : (s.step p).row = Lexeme.rowsOf (lexemesOf (before ++ [⟨p, s.row, pending⟩])) := by
    cases p <;> simp [DocScan.step, DocScan.advance, h.row]
  have hoffset : (s.step p).offset
      = Lexeme.bytesOf (lexemesOf (before ++ [⟨p, s.row, pending⟩])) := by
    cases p <;> simp [DocScan.step, DocScan.advance, h.offset]
  refine ⟨hrow, hoffset, ?_, ?_⟩
  · rw [lastRowOf_concat]
    cases p with
    | space l => exact h.codeRow
    | comment l => exact h.codeRow
    | semicolon l => rfl
    | item tree ls => rfl
  · cases p with
    | space l => exact holdsBlock_space h.block
    | comment l => exact holdsBlock_comment hdown h
    | semicolon l => exact holdsBlock_code rfl
    | item tree ls => exact holdsBlock_code rfl

/-- The whole scan: every declaration is made with what is known in front of
its item. -/
theorem exists_of_mem_declarations {s : DocScan} {pending : Pending} {ps : List Piece}
    {d : Declaration} (hdown : Descending (before ++ placedBehind s.row pending ps))
    (h : Knows s before) (hd : d ∈ s.declarations ps) :
    ∃ seen item after s', placedBehind s.row pending ps = seen ++ item :: after
      ∧ Knows s' (before ++ seen) ∧ s'.row = item.row
      ∧ s'.declaration? item.piece = some d := by
  induction ps generalizing s before pending with
  | nil => exact absurd hd List.not_mem_nil
  | cons p ps ih =>
      rw [placedBehind] at hdown ⊢
      rw [DocScan.declarations, List.mem_append, Option.mem_toList] at hd
      rcases hd with hd | hd
      · exact ⟨[], _, _, s, rfl, by simpa using h, rfl, hd⟩
      · rw [← List.singleton_append, ← List.append_assoc] at hdown
        have hrow : (s.step p).row = s.row + Lexeme.rowsOf p.lexemes := by cases p <;> rfl
        rw [← hrow] at hdown ⊢
        have hstep := knows_step (List.pairwise_append.mp hdown).1 h
        obtain ⟨seen, item, after, s', hsplit, hknows, hitem, hdecl⟩ := ih hdown hstep hd
        refine ⟨⟨p, s.row, pending⟩ :: seen, item, after, s', ?_, ?_, hitem, hdecl⟩
        · rw [hsplit]; rfl
        · rwa [List.append_assoc] at hknows

/-! ## The block a declaration gets -/

/-- No block but the one held can be the doc comment. -/
theorem isDoc_of_holdsBlock (row : Nat) {block : Option CommentBlock}
    (h : HoldsBlock block before) :
    ∃ front run, front ++ run = before ∧ IsDoc isCode row front run
      ∧ match block.filter fun b => b.lastRow + 1 == row with
        | some b => b.lexemes = lexemesOf run ∧ b.offset = Lexeme.bytesOf (lexemesOf front)
        | none => run = [] := by
  cases block with
  | none =>
      refine ⟨before, [], List.append_nil _, ⟨.inl rfl, fun front' run' hsplit hdoc => ?_⟩, rfl⟩
      exact absurd hdoc.toIsCommentBlock (h front' run' (hsplit.trans (List.append_nil _)))
  | some b =>
      obtain ⟨front, run, rfl, hblock, hlongest, hlexemes, hoffset, hlast⟩ := h
      by_cases hrow : b.lastRow + 1 = row
      · refine ⟨front, run, rfl, ⟨.inr ⟨hblock, ?_⟩, fun front' run' hsplit hdoc => ?_⟩, ?_⟩
        · rw [hlast, Option.map_some, hrow]
        · exact hlongest front' run' hsplit hdoc.toIsCommentBlock
        · rw [Option.filter_some_pos (by simpa using hrow)]
          exact ⟨hlexemes, hoffset⟩
      · refine ⟨front ++ run, [], List.append_nil _, ⟨.inl rfl, fun front' run' hsplit hdoc => ?_⟩,
          ?_⟩
        · rw [List.append_nil] at hsplit
          have habove := hdoc.above
          rw [← hdoc.lastRowOf_comment, hsplit, hblock.lastRowOf_comment, hlast] at habove
          exact absurd (Option.some.inj habove) hrow
        · rw [Option.filter_some_neg (by simpa using hrow)]

/-- What is known in front of an item makes its declaration. -/
theorem Knows.declaration {s : DocScan} {p : Piece} {d : Declaration} (h : Knows s before)
    (hd : s.declaration? p = some d) :
    ∃ front run, front ++ run = before ∧ IsDoc isCode s.row front run
      ∧ p = .item d.tree d.lexemes ∧ d.tree.declared? = some (d.kind, d.name) ∧ d.row = s.row
      ∧ d.lead = lexemesOf run ∧ d.offset = Lexeme.bytesOf (lexemesOf front) := by
  obtain ⟨front, run, hsplit, hdoc, hheld⟩ := isDoc_of_holdsBlock s.row h.block
  refine ⟨front, run, hsplit, hdoc, ?_⟩
  cases p with
  | item tree ls =>
      obtain ⟨⟨kind, name⟩, hdeclared, rfl⟩ := Option.map_eq_some_iff.mp hd
      rw [← DocScan.docBlock?] at hheld
      cases hb : s.docBlock? with
      | none =>
          rw [hb] at hheld
          obtain rfl : run = [] := hheld
          refine ⟨rfl, hdeclared, rfl, rfl, ?_⟩
          rw [List.append_nil] at hsplit
          rw [hsplit]
          exact h.offset
      | some b =>
          rw [hb] at hheld
          exact ⟨rfl, hdeclared, rfl, hheld⟩
  | _ => cases hd

/-! ## Terminators -/

/-- Every `;` that ends an item stands on the row on which the item ends. -/
def TerminatorsInRow (ps : List Placed) : Prop :=
  ∀ i, (h : i < ps.length) → ps[i].isTerminator = true →
    lastRowOf isStatement (ps.take i) = some ps[i].lastRow

instance decidableTerminatorsInRow (ps : List Placed) : Decidable (TerminatorsInRow ps) :=
  inferInstanceAs (Decidable (∀ i, (h : i < ps.length) → ps[i].isTerminator = true →
    lastRowOf isStatement (ps.take i) = some ps[i].lastRow))

namespace TerminatorsInRow

theorem lastRowOf_eq {t : Placed} {later : List Placed}
    (h : TerminatorsInRow (before ++ t :: later)) (ht : t.isTerminator = true) :
    lastRowOf isStatement before = some t.lastRow := by
  have := h before.length (by simp) (by simpa using ht)
  simpa using this

theorem of_append (h : TerminatorsInRow (front ++ run)) : TerminatorsInRow front := by
  intro i hi ht
  have hi' : i < (front ++ run).length := by rw [List.length_append]; omega
  have := h i hi' (by rwa [List.getElem_append_left hi])
  rwa [List.getElem_append_left hi, List.take_append_of_le_length (by omega)] at this

end TerminatorsInRow

theorem lastRowOf_isCode (h : TerminatorsInRow before) :
    lastRowOf isCode before = lastRowOf isStatement before := by
  induction before using List.reverseRecOn with
  | nil => rfl
  | append_singleton ps q ih =>
      rw [lastRowOf_concat, lastRowOf_concat, ih h.of_append, isStatement]
      by_cases hterminator : q.isTerminator = true
      · rw [h.lastRowOf_eq hterminator]
        simp
      · simp [hterminator]

/-- A `;` in a block would have to stand on the row where the code in front ends. -/
theorem IsCommentBlock.not_isCode (hdown : Descending (front ++ run))
    (h : TerminatorsInRow (front ++ run)) (hblock : IsCommentBlock isStatement front run)
    {p : Placed} (hp : p ∈ run) : p.isCode = false := by
  rw [← Bool.not_eq_true]
  intro hcode
  have hterminator : p.isTerminator = true := by
    simpa [isStatement, hcode] using hblock.no_code p hp
  obtain ⟨earlier, later, rfl⟩ := List.append_of_mem hp
  have hearlier : ∀ q ∈ earlier, isStatement q = false := fun q hq =>
    hblock.no_code q (List.mem_append_left _ hq)
  have hrow : lastRowOf isStatement (front ++ earlier) = some p.lastRow :=
    TerminatorsInRow.lastRowOf_eq (by simpa using h) hterminator
  rw [lastRowOf_append, lastRowOf_eq_none _ hearlier, Option.none_or] at hrow
  have hbelow : p.lastRow < p.row := hblock.lt_row hdown hrow hp
  have := row_le_lastRow p
  omega

theorem isDocBlock_iff_of_terminatorsInRow {row : Nat} (hdown : Descending (front ++ run))
    (h : TerminatorsInRow (front ++ run)) :
    IsDocBlock isStatement row front run ↔ IsDocBlock isCode row front run := by
  have hfront := lastRowOf_isCode h.of_append
  constructor
  · intro hdoc
    exact ⟨⟨hdoc.begins, fun p hp => hdoc.not_isCode hdown h hp, hdoc.linked,
      fun c hc hcomment => hfront ▸ hdoc.apart c hc hcomment⟩, hdoc.above⟩
  · intro hdoc
    refine ⟨⟨hdoc.begins, fun p hp => ?_, hdoc.linked,
      fun c hc hcomment => hfront ▸ hdoc.apart c hc hcomment⟩, hdoc.above⟩
    rw [isStatement, hdoc.no_code p hp]
    rfl

theorem isDoc_iff_of_terminatorsInRow {row : Nat} (hdown : Descending (front ++ run))
    (h : TerminatorsInRow (front ++ run)) :
    IsDoc isStatement row front run ↔ IsDoc isCode row front run := by
  have hiff : ∀ front' run', front' ++ run' = front ++ run →
      (IsDocBlock isStatement row front' run' ↔ IsDocBlock isCode row front' run') :=
    fun front' run' hsplit =>
      isDocBlock_iff_of_terminatorsInRow (hsplit ▸ hdown) (hsplit ▸ h)
  constructor
  · intro hdoc
    exact ⟨hdoc.block.imp_right (hiff _ _ rfl).mp, fun front' run' hsplit hblock =>
      hdoc.longest front' run' hsplit ((hiff _ _ hsplit).mpr hblock)⟩
  · intro hdoc
    exact ⟨hdoc.block.imp_right (hiff _ _ rfl).mpr, fun front' run' hsplit hblock =>
      hdoc.longest front' run' hsplit ((hiff _ _ hsplit).mp hblock)⟩

/-! ## The text of a declaration -/

/-- What is asked of a file can be found out by reading it. -/
instance decidableExistsOk {ε α : Type} {x : Except ε α} {p : α → Prop} [DecidablePred p] :
    Decidable (∃ a, x = .ok a ∧ p a) :=
  match x with
  | .ok a => decidable_of_iff (p a)
      ⟨fun hp => ⟨a, rfl, hp⟩, fun ⟨_, h, hp⟩ => Except.ok.inj h ▸ hp⟩
  | .error _ => isFalse fun ⟨_, h, _⟩ => nomatch h

/-- The text of a declaration stands in the file. -/
theorem SourceFile.exists_append_text {path : Path} {source : String} {f : SourceFile}
    (h : read path source = .ok f) {d : Declaration} (hd : d ∈ f.declarations) :
    ∃ before behind, source = before ++ d.text ++ behind := by
  obtain ⟨seen, item, after, s, hsplit, hknows, -, hdecl⟩ :=
    exists_of_mem_declarations (show Descending ([] ++ placed f.pieces) from
      descending_placed f.pieces) knows_start hd
  obtain ⟨front, run, rfl, -, hpiece, -, -, hlead, -⟩ := hknows.declaration hdecl
  refine ⟨textOf front, textOf after, ?_⟩
  have hplaced : placed f.pieces = front ++ run ++ item :: after := hsplit
  rw [← text_of_read h, ← spell_pieces_of_read h, ← lexemesOf_placed, hplaced]
  simp [textOf, Declaration.text, hlead, hpiece, Piece.lexemes, String.append_assoc]

/-- **The text of a declaration begins at its doc comment.** In a file that was
read, the item of a declaration stands behind its doc comment, the longest block
in front of it, and the declaration's text is the part of the file from there to
the end of the item. A block may touch no `;`. To the `;` that end items this
makes no difference as long as each stands on the row on which its item ends. -/
theorem text_begins_at_doc {path : Path} {source : String} {f : SourceFile}
    (h : SourceFile.read path source = .ok f) {d : Declaration} (hd : d ∈ f.declarations) :
    ∃ front run item after,
      placed f.pieces = front ++ run ++ item :: after
        ∧ item.piece = .item d.tree d.lexemes
        ∧ d.tree.declared? = some (d.kind, d.name)
        ∧ source = textOf front ++ d.text ++ textOf after
        ∧ d.offset = (textOf front).utf8ByteSize
        ∧ d.text = textOf (run ++ [item])
        ∧ IsDoc isCode item.row front run
        ∧ (TerminatorsInRow (front ++ run) → IsDoc isStatement item.row front run) := by
  have hdown := descending_placed f.pieces
  obtain ⟨seen, item, after, s, hsplit, hknows, hrow, hdecl⟩ :=
    exists_of_mem_declarations (show Descending ([] ++ placed f.pieces) from hdown) knows_start hd
  obtain ⟨front, run, rfl, hdoc, hpiece, hdeclared, -, hlead, hoffset⟩ :=
    hknows.declaration hdecl
  have htext : d.text = textOf (run ++ [item]) := by
    simp [Declaration.text, textOf, hlead, hpiece, Piece.lexemes]
  have hplaced : placed f.pieces = front ++ run ++ item :: after := hsplit
  refine ⟨front, run, item, after, hplaced, hpiece, hdeclared, ?_, ?_, htext, hrow ▸ hdoc,
    fun hterminators => ?_⟩
  · rw [← SourceFile.text_of_read h, ← SourceFile.spell_pieces_of_read h, ← lexemesOf_placed,
      ← textOf, hplaced, htext]
    simp [textOf, String.append_assoc]
  · rw [hoffset, Lexeme.bytesOf_eq]
    rfl
  · rw [hplaced] at hdown
    exact (isDoc_iff_of_terminatorsInRow (List.pairwise_append.mp hdown).1 hterminators).mpr
      (hrow ▸ hdoc)

theorem text_begins_at_doc_behind_terminator :
    ∃ f d front run item after,
      SourceFile.read ⟨"a.go"⟩ "func a() {}; // x\n// y\nfunc b() {}\n" = .ok f
        ∧ d ∈ f.declarations
        ∧ placed f.pieces = front ++ run ++ item :: after
        ∧ d.text = textOf (run ++ [item])
        ∧ d.text = "// y\nfunc b() {}"
        ∧ IsDoc isStatement item.row front run := by
  obtain ⟨f, hf, hterminators, d, hd, htext⟩ :
      ∃ f, SourceFile.read ⟨"a.go"⟩ "func a() {}; // x\n// y\nfunc b() {}\n" = .ok f
        ∧ TerminatorsInRow (placed f.pieces)
        ∧ ∃ d ∈ f.declarations, d.text = "// y\nfunc b() {}" := by
    decide +kernel
  obtain ⟨front, run, item, after, hplaced, -, -, -, -, hitem, -, hdoc⟩ := text_begins_at_doc hf hd
  rw [hplaced] at hterminators
  exact ⟨f, d, front, run, item, after, hf, hd, hplaced, hitem, htext, hdoc hterminators.of_append⟩

/-- With a comment between an item and its `;`, the `;` may stand on a later row.
The comment `// y` is a block above `b` then, and the text of `b` begins
without it. -/
theorem text_begins_behind_doc :
    ∃ f d front run item after,
      SourceFile.read ⟨"a.go"⟩ "func a() {} /* x\n*/ ; // y\nfunc b() {}\n" = .ok f
        ∧ d ∈ f.declarations
        ∧ placed f.pieces = front ++ run ++ item :: after
        ∧ item.piece.lexemes = d.lexemes
        ∧ IsDocBlock isStatement item.row front run
        ∧ textOf run = "// y\n"
        ∧ d.text = textOf [item] := by
  obtain ⟨f, hf, d, hd, item, hitem, hlexemes, hdoc, hrun, htext⟩ :
      ∃ f, SourceFile.read ⟨"a.go"⟩ "func a() {} /* x\n*/ ; // y\nfunc b() {}\n" = .ok f
        ∧ ∃ d ∈ f.declarations, ∃ item ∈ (placed f.pieces)[8]?, item.piece.lexemes = d.lexemes
          ∧ IsDocBlock isStatement item.row ((placed f.pieces).take 6)
            (((placed f.pieces).drop 6).take 2)
          ∧ textOf (((placed f.pieces).drop 6).take 2) = "// y\n"
          ∧ d.text = textOf [item] := by
    decide +kernel
  refine ⟨f, d, _, _, item, (placed f.pieces).drop 9, hf, hd, ?_, hlexemes, hdoc, hrun, htext⟩
  obtain ⟨h8, rfl⟩ := List.getElem?_eq_some_iff.mp hitem
  rw [← List.drop_eq_getElem_cons h8, List.append_assoc, ← List.drop_drop (i := 2) (j := 6),
    List.take_append_drop, List.take_append_drop]

end TestTriage.Go
