import TestTriage.Proofs.Go.Cutting
import TestTriage.Proofs.Go.DocComment

/-!
# The text of a declaration, read alone

Read as a file of its own, the text of a declaration holds this one
declaration and nothing else, and all that is told of it is the same but
its place (`declarations_of_read_text`). The text is a part of the file
between two lexemes, so its lexemes are those of the doc comment and of the
item. A piece is what it is by its own lexemes (`Alone`), which gives back
the pieces; and what stands in front of the item is one block of comments
still, its rows counted from the first (`Placed.lowered`).
-/

namespace TestTriage.Go

open Placed

/-! ## Pieces alone -/

/-- Is it white space or a comment? -/
def Piece.isGap : Piece → Bool
  | .space _ | .comment _ => true
  | .semicolon _ | .item _ _ => false

/-- A piece by its own lexemes. -/
inductive Alone : Piece → Prop where
  | blank {l : Lexeme} (h : l.kind = .blank) : Alone (.space l)
  | newline {l : Lexeme} (h : l.kind = .newline) : Alone (.space l)
  | comment {l : Lexeme} (h : l.kind = .comment) : Alone (.comment l)
  | semicolon {l : Lexeme} (h : l.is ";" = true) : Alone (.semicolon l)
  | item {l : Lexeme} {ls : List Lexeme} {tree : Node} (htoken : l.isToken = true)
      (hsemicolon : l.is ";" = false) (h : (Grammar.itemFrom l).run ls = .ok (tree, [])) :
      Alone (.item tree (l :: ls))

theorem Lexeme.isToken_iff {l : Lexeme} :
    l.isToken = true ↔ l.kind ≠ .blank ∧ l.kind ≠ .newline ∧ l.kind ≠ .comment := by
  simp [isToken, isGap]
  tauto

theorem Alone.white {l : Lexeme} (h : Alone (.space l)) : l.kind = .blank ∨ l.kind = .newline := by
  cases h with
  | blank hkind => exact .inl hkind
  | newline hkind => exact .inr hkind

theorem alone_of_mem_piecesUpTo {limit : Nat} {pending : Pending} {ls : List Lexeme}
    {ps : List Piece} (h : piecesUpTo limit pending ls = .ok ps) {p : Piece} (hp : p ∈ ps) :
    Alone p := by
  induction limit generalizing pending ls ps with
  | zero =>
      rw [piecesUpTo] at h
      split at h <;> cases h
      exact absurd hp List.not_mem_nil
  | succ limit ih =>
      cases ls with
      | nil =>
          rw [piecesUpTo] at h
          split at h <;> cases h
          exact absurd hp List.not_mem_nil
      | cons l ls =>
          have hcons : ∀ {pending : Pending} {q : Piece} {rest : List Lexeme}, Alone q →
              (do return q :: (← piecesUpTo limit pending rest)) = Except.ok ps → Alone p := by
            intro pending q rest hq h
            obtain ⟨others, hothers, heq⟩ := bind_eq_ok.mp h
            cases heq
            rcases List.mem_cons.mp hp with rfl | hp
            · exact hq
            · exact ih hothers hp
          rw [piecesUpTo] at h
          split at h
          · next hkind => exact hcons (.blank hkind) h
          · next hkind => exact hcons (.newline hkind) h
          · next hkind => exact hcons (.comment hkind) h
          · next hblank hnewline hcomment =>
              split at h
              · next hsemicolon => exact hcons (.semicolon hsemicolon) h
              · next hsemicolon =>
                  split at h
                  · cases h
                  · split at h
                    · cases h
                    · next tree rest hrun =>
                        have htoken : l.isToken = true :=
                          Lexeme.isToken_iff.mpr ⟨hblank, hnewline, hcomment⟩
                        have hread := consumed_append (Rule.suffix_of_run hrun)
                        rw [← hread] at hrun
                        exact hcons (.item htoken (Bool.not_eq_true _ ▸ hsemicolon)
                          (Rule.run_of_append hrun)) h

/-- White space and comments are one lexeme each. -/
theorem length_lexemes_of_gaps {ps : List Piece} (hgaps : ∀ p ∈ ps, p.isGap = true) :
    (ps.flatMap Piece.lexemes).length = ps.length := by
  induction ps with
  | nil => rfl
  | cons p ps ih =>
      obtain ⟨hgap, hgaps⟩ := List.forall_mem_cons.mp hgaps
      rw [List.flatMap_cons, List.length_append, ih hgaps, List.length_cons, Nat.add_comm]
      cases p with
      | space | comment => rfl
      | semicolon | item => cases hgap

/-- No item begins with a byte order mark. -/
theorem not_alone_byteOrderMark {tree : Node} {ls : List Lexeme} :
    ¬Alone (.item tree (.make .stray [byteOrderMark] :: ls)) := by
  have hstarts : Grammar.startsStatement (.make .stray [byteOrderMark]) = false := by
    decide +kernel
  intro h
  cases h with
  | item _ _ hrun =>
      rw [Grammar.itemFrom, Grammar.item] at hrun
      split at hrun
      · next htext => exact absurd htext (by decide +kernel)
      · next htext => exact absurd htext (by decide +kernel)
      · next htext => exact absurd htext (by decide +kernel)
      · rw [hstarts] at hrun
        cases hrun

/-- White space and comments are what they are wherever an item may begin. -/
theorem piecesUpTo_gaps {ps : List Piece} (hps : ∀ p ∈ ps, Alone p)
    (hgaps : ∀ p ∈ ps, p.isGap = true) {limit : Nat} {ls : List Lexeme} {others : List Piece}
    (h : piecesUpTo limit .nothing ls = .ok others) :
    piecesUpTo (limit + ps.length) .nothing (ps.flatMap Piece.lexemes ++ ls)
      = .ok (ps ++ others) := by
  induction ps with
  | nil => exact h
  | cons p ps ih =>
      obtain ⟨hp, hps⟩ := List.forall_mem_cons.mp hps
      obtain ⟨hgap, hgaps⟩ := List.forall_mem_cons.mp hgaps
      have ih := ih hps hgaps
      rw [List.length_cons, ← Nat.add_assoc, List.flatMap_cons, List.append_assoc]
      cases hp with
      | blank hkind | newline hkind | comment hkind =>
          rw [Piece.lexemes, List.singleton_append, piecesUpTo]
          simp only [hkind, ih]
          rfl
      | semicolon | item => cases hgap

theorem piecesUpTo_item {tree : Node} {ls : List Lexeme} (h : Alone (.item tree ls))
    (hpending : Pending.behind tree ≠ .terminator) {limit : Nat} (hlimit : ls.length ≤ limit) :
    piecesUpTo limit .nothing ls = .ok [.item tree ls] := by
  cases h with
  | @item l ls _ htoken hsemicolon hrun =>
      obtain ⟨limit, rfl⟩ : ∃ n, limit = n + 1 := ⟨limit - 1, by simp at hlimit; omega⟩
      obtain ⟨hblank, hnewline, hcomment⟩ := Lexeme.isToken_iff.mp htoken
      have hend : piecesUpTo limit (.behind tree) [] = .ok [] := by
        cases limit <;> rw [piecesUpTo, if_neg hpending]
      have hall : consumed ls [] = ls := by
        rw [consumed, List.length_nil, Nat.sub_zero, List.take_length]
      rw [piecesUpTo]
      split
      · contradiction
      · contradiction
      · contradiction
      · simp only [hsemicolon, hrun, hend, hall]
        rfl

theorem behind_of_declared {tree : Node} {declared : Declaration.Kind × String}
    (h : tree.declared? = some declared) : Pending.behind tree = .separator := by
  rw [Node.declared?.eq_def] at h
  split at h
  · rfl
  · rfl
  · cases h

/-! ## Pieces lower down -/

theorem eq_placedBehind_left {row : Nat} {pending : Pending} {ps : List Piece}
    {front behind : List Placed} (h : placedBehind row pending ps = front ++ behind) :
    front = placedBehind row pending (front.map (·.piece)) := by
  induction front generalizing row pending ps with
  | nil => rfl
  | cons p front ih =>
      cases ps with
      | nil => cases h
      | cons q ps =>
          rw [placedBehind, List.cons_append] at h
          obtain ⟨hp, hbehind⟩ := List.cons.inj h
          subst hp
          rw [List.map_cons, placedBehind, ← ih hbehind]

theorem eq_placedBehind_right {row : Nat} {pending : Pending} {ps : List Piece}
    {front behind : List Placed} (h : placedBehind row pending ps = front ++ behind) :
    ∃ pending', behind
      = placedBehind (row + Lexeme.rowsOf (lexemesOf front)) pending' (behind.map (·.piece)) := by
  induction front generalizing row pending ps with
  | nil =>
      exact ⟨pending, @eq_placedBehind_left row pending ps behind [] (by simpa using h)⟩
  | cons p front ih =>
      cases ps with
      | nil => cases h
      | cons q ps =>
          rw [placedBehind, List.cons_append] at h
          obtain ⟨hp, hbehind⟩ := List.cons.inj h
          subst hp
          rw [lexemesOf_cons, Lexeme.rowsOf_append, ← Nat.add_assoc]
          exact ih hbehind

namespace Placed

theorem isGap_of_isCode {p : Placed} (h : p.isCode = false) : p.piece.isGap = true := by
  obtain ⟨piece, row, pending⟩ := p
  cases piece with
  | space | comment => rfl
  | semicolon | item => cases h

theorem piece_mem_of_mem_placedBehind {row : Nat} {pending : Pending} {ps : List Piece}
    {p : Placed} (h : p ∈ placedBehind row pending ps) : p.piece ∈ ps := by
  induction ps generalizing row pending with
  | nil => exact absurd h List.not_mem_nil
  | cons q ps ih =>
      rcases List.mem_cons.mp h with rfl | h
      · exact List.mem_cons_self
      · exact List.mem_cons_of_mem _ (ih h)

/-- The piece so many rows higher up, with nothing open in front of it. -/
def lowered (rows : Nat) (p : Placed) : Placed := ⟨p.piece, p.row - rows, .nothing⟩

theorem map_lowered {ps : List Piece} (hgaps : ∀ p ∈ ps, p.isGap = true) (rows row : Nat)
    (pending : Pending) :
    (placedBehind (rows + row) pending ps).map (lowered rows) = placedBehind row .nothing ps := by
  induction ps generalizing row pending with
  | nil => rfl
  | cons p ps ih =>
      obtain ⟨hgap, hgaps⟩ := List.forall_mem_cons.mp hgaps
      have hnothing : Pending.after .nothing p = .nothing := by
        cases p with
        | space l => exact ite_self _
        | comment l => rfl
        | semicolon | item => cases hgap
      rw [placedBehind, List.map_cons, Nat.add_assoc, ih hgaps, placedBehind, hnothing, lowered,
        Nat.add_sub_cancel_left]

theorem lastRow_lowered {rows : Nat} {p : Placed} (h : rows ≤ p.row) :
    (lowered rows p).lastRow = p.lastRow - rows := by
  simp only [lastRow, lowered]
  omega

end Placed

/-- A doc comment is one at the start of a file, too. -/
theorem IsDocBlock.lowered {rows row : Nat} {front run : List Placed}
    (h : IsDocBlock isCode row front run) (hrows : ∀ p ∈ run, rows ≤ p.row) :
    IsDocBlock isCode (row - rows) [] (run.map (Placed.lowered rows)) := by
  have hcomments : (run.map (Placed.lowered rows)).filter isComment
      = (run.filter isComment).map (Placed.lowered rows) := List.filter_map
  refine ⟨⟨?_, ?_, ?_, ?_⟩, ?_⟩
  · have hbegins := h.begins
    rw [List.head?_map, Option.any_map]
    exact hbegins
  · intro p hp
    obtain ⟨q, hq, rfl⟩ := List.mem_map.mp hp
    exact h.no_code q hq
  · rw [hcomments, List.isChain_map]
    refine h.linked.imp fun c d hcd => ?_
    simp only [Placed.lowered, lastRow] at hcd ⊢
    omega
  · exact fun _ _ _ h => nomatch h
  · have habove := h.above
    rw [lastRowOf, hcomments, List.getLast?_map]
    rw [lastRowOf] at habove
    cases hlast : (run.filter isComment).getLast? with
    | none => simp [hlast] at habove
    | some c =>
        have hc := hrows c (List.mem_of_mem_filter (List.mem_of_getLast? hlast))
        have hle := row_le_lastRow c
        rw [hlast] at habove
        have habove : c.lastRow + 1 = row := Option.some.inj habove
        simp only [Option.map_some, lastRow_lowered hc]
        exact congrArg some (by omega)

theorem isGap_of_mem_map {run : List Placed} (h : ∀ p ∈ run, p.isCode = false) {p : Piece}
    (hp : p ∈ run.map (·.piece)) : p.isGap = true := by
  obtain ⟨q, hq, rfl⟩ := List.mem_map.mp hp
  exact isGap_of_isCode (h q hq)

/-- The pieces of a doc comment are one by themselves. -/
theorem IsDocBlock.alone {ps : List Piece} {row : Nat} {front run behind : List Placed}
    (h : IsDocBlock isCode row front run) (hplaced : placed ps = front ++ (run ++ behind)) :
    IsDocBlock isCode (row - Lexeme.rowsOf (lexemesOf front)) [] (placed (run.map (·.piece))) := by
  -- the run as pieces behind so many rows
  obtain ⟨pending, hbehind⟩ := eq_placedBehind_right hplaced
  have hrun := eq_placedBehind_left hbehind.symm
  rw [Nat.zero_add, ← Nat.add_zero (Lexeme.rowsOf (lexemesOf front))] at hrun
  have hrows : ∀ p ∈ run, Lexeme.rowsOf (lexemesOf front) ≤ p.row := fun p hp =>
    le_row_of_mem_placedBehind (hrun ▸ hp)
  have hlowered := h.lowered hrows
  have hmap := map_lowered (fun _ hp => isGap_of_mem_map h.no_code hp)
    (Lexeme.rowsOf (lexemesOf front)) 0 pending
  rwa [hrun, hmap] at hlowered

/-! ## The scan -/

theorem knows_foldl {s : DocScan} {pending : Pending} {ps : List Piece} {before : List Placed}
    (hdown : Descending (before ++ placedBehind s.row pending ps)) (h : Knows s before) :
    Knows (ps.foldl DocScan.step s) (before ++ placedBehind s.row pending ps) := by
  induction ps generalizing s before pending with
  | nil => simpa [placedBehind] using h
  | cons p ps ih =>
      have hrow : (s.step p).row = s.row + Lexeme.rowsOf p.lexemes := by cases p <;> rfl
      rw [placedBehind, ← hrow, List.append_cons] at hdown ⊢
      rw [List.foldl_cons]
      exact ih hdown (knows_step (List.pairwise_append.mp hdown).1 h)

/-- White space and comments declare nothing. -/
theorem declarations_gaps {ps : List Piece} (hgaps : ∀ p ∈ ps, p.isGap = true) (s : DocScan)
    (q : Piece) :
    s.declarations (ps ++ [q]) = ((ps.foldl DocScan.step s).declaration? q).toList := by
  induction ps generalizing s with
  | nil => exact List.append_nil _
  | cons p ps ih =>
      obtain ⟨hgap, hgaps⟩ := List.forall_mem_cons.mp hgaps
      have hnone : s.declaration? p = none := by
        cases p with
        | space | comment => rfl
        | semicolon | item => cases hgap
      rw [List.cons_append, DocScan.declarations, hnone, ih hgaps, List.foldl_cons]
      rfl

/-! ## Declarations alone -/

/-- What a declaration is made of: the pieces of its lead, and its item. -/
structure MadeOf (d : Declaration) (ps : List Piece) : Prop where
  alone : ∀ p ∈ ps, Alone p
  gaps : ∀ p ∈ ps, p.isGap = true
  item : Alone (.item d.tree d.lexemes)
  declared : d.tree.declared? = some (d.kind, d.name)
  lead : d.lead = ps.flatMap Piece.lexemes
  doc : ps = [] ∨ IsDocBlock isCode (Lexeme.rowsOf d.lead) [] (placed ps)

variable {path : Path} {source : String} {f : SourceFile} {d : Declaration} {ps : List Piece}

/-- What a declaration is made of stands in the file behind as many bytes as it tells. -/
theorem SourceFile.exists_madeOf_behind (h : read path source = .ok f)
    (hd : d ∈ f.declarations) :
    ∃ ps front behind, MadeOf d ps
      ∧ lexemes source = front ++ (d.lead ++ d.lexemes) ++ behind
      ∧ d.offset = Lexeme.bytesOf front := by
  have hpieces := pieces_of_read h
  obtain ⟨seen, item, after, s, hsplit, hknows, -, hdecl⟩ :=
    exists_of_mem_declarations (show Descending ([] ++ placed f.pieces) from
      descending_placed f.pieces) knows_start hd
  obtain ⟨front, run, rfl, hdoc, hitem, hdeclared, -, hlead, hoffset⟩ :=
    hknows.declaration hdecl
  have hplaced : placed f.pieces = front ++ (run ++ item :: after) := by
    rw [← List.append_assoc]
    exact hsplit
  have halone : ∀ p ∈ placed f.pieces, Alone p.piece := fun p hp =>
    alone_of_mem_piecesUpTo hpieces (piece_mem_of_mem_placedBehind hp)
  have hlexemes := flatMap_pieces hpieces
  rw [← lexemesOf_placed] at hlexemes
  rw [hplaced] at halone hlexemes
  have hcode : ∀ p ∈ run, p.isCode = false := by
    rcases hdoc.block with rfl | hblock
    · exact List.forall_mem_nil _
    · exact hblock.no_code
  refine ⟨run.map (·.piece), lexemesOf front, lexemesOf after,
    ⟨?_, fun _ hp => isGap_of_mem_map hcode hp, ?_, hdeclared, ?_, ?_⟩, ?_, hoffset⟩
  · intro p hp
    obtain ⟨q, hq, rfl⟩ := List.mem_map.mp hp
    exact halone q (by simp [hq])
  · rw [← hitem]
    exact halone item (by simp)
  · rw [hlead, List.flatMap_map]
    rfl
  · rcases hdoc.block with rfl | hblock
    · exact .inl rfl
    · refine .inr ?_
      have halone := hblock.alone hplaced
      have hrow : s.row - Lexeme.rowsOf (lexemesOf front) = Lexeme.rowsOf d.lead := by
        rw [hknows.row, List.nil_append, lexemesOf_append, Lexeme.rowsOf_append,
          Nat.add_sub_cancel_left, hlead]
      rwa [hrow] at halone
  · rw [← hlexemes, hlead]
    simp [hitem, Piece.lexemes]

theorem SourceFile.exists_madeOf (h : read path source = .ok f) (hd : d ∈ f.declarations) :
    ∃ ps, MadeOf d ps
      ∧ ∃ front behind, lexemes source = front ++ (d.lead ++ d.lexemes) ++ behind := by
  obtain ⟨ps, front, behind, hmade, hlexemes, -⟩ := exists_madeOf_behind h hd
  exact ⟨ps, hmade, front, behind, hlexemes⟩

namespace MadeOf

/-- A lead begins with a comment. -/
theorem head_lead (hd : MadeOf d ps) {l : Lexeme} (hl : l ∈ d.lead.head?) : l.kind = .comment := by
  rcases hd.doc with rfl | hdoc
  · rw [hd.lead] at hl
    cases hl
  · have hbegins := hdoc.begins
    cases ps with
    | nil => cases hbegins
    | cons p ps =>
        have hp := hd.alone p List.mem_cons_self
        rw [hd.lead, List.flatMap_cons] at hl
        cases hp with
        | comment hkind =>
            rw [← Option.some.inj hl]
            exact hkind
        | _ => cases hbegins

/-- A declaration begins with a comment or a token, so not with a byte order mark. -/
theorem head_ne_byteOrderMark (hd : MadeOf d ps) {front behind : List Lexeme}
    (h : lexemes source = front ++ (d.lead ++ d.lexemes) ++ behind) :
    ∀ l ∈ (d.lead ++ d.lexemes).head?, l.text.toList.head? ≠ some byteOrderMark := by
  intro l hl hmark
  have hmem : l ∈ lexemes source := by
    rw [h]
    exact List.mem_append_left _ (List.mem_append_right _ (List.mem_of_mem_head? hl))
  have hkind : l.kind ≠ .comment := by
    rcases eq_of_byteOrderMark hmem hmark with rfl | rfl <;> decide
  rw [List.head?_append] at hl
  cases hlead : d.lead.head? with
  | some l' =>
      rw [hlead] at hl
      exact hkind (hd.head_lead (hlead.trans hl))
  | none =>
      rw [hlead] at hl
      have hitem := hd.item
      obtain ⟨ls, hls⟩ := List.head?_eq_some_iff.mp hl
      rw [hls] at hitem
      rcases eq_of_byteOrderMark hmem hmark with rfl | rfl
      · cases hitem with
        | item htoken => exact absurd htoken (by decide)
      · exact not_alone_byteOrderMark hitem

/-- The lexemes of the text are those of the declaration. -/
theorem lexemes_text (hd : MadeOf d ps) {front behind : List Lexeme}
    (h : lexemes source = front ++ (d.lead ++ d.lexemes) ++ behind) :
    lexemes d.text = d.lead ++ d.lexemes :=
  lexemes_of_append h (hd.head_ne_byteOrderMark h)

theorem pieces_eq (hd : MadeOf d ps) :
    Go.pieces (d.lead ++ d.lexemes) = .ok (ps ++ [.item d.tree d.lexemes]) := by
  have hpending : Pending.behind d.tree ≠ .terminator := by
    rw [behind_of_declared hd.declared]
    decide
  have hlength : d.lead.length = ps.length := by rw [hd.lead, length_lexemes_of_gaps hd.gaps]
  have hitem := piecesUpTo_item hd.item hpending (Nat.le_refl _)
  have hall := piecesUpTo_gaps hd.alone hd.gaps hitem
  rw [pieces, List.length_append, Nat.add_comm, hlength, hd.lead]
  exact hall

theorem declarations_eq (hd : MadeOf d ps) :
    Go.declarations (ps ++ [.item d.tree d.lexemes])
      = [{ d with offset := 0, row := Lexeme.rowsOf d.lead }] := by
  have hplaced : lexemesOf (placed ps) = d.lead := by rw [lexemesOf_placed, hd.lead]
  have hknows : Knows (ps.foldl DocScan.step .start) (placed ps) :=
    @knows_foldl .start .nothing ps [] (descending_placed ps) knows_start
  have hrow : (ps.foldl DocScan.step .start).row = Lexeme.rowsOf d.lead := by
    rw [hknows.row, hplaced]
  rw [Go.declarations, declarations_gaps hd.gaps]
  obtain ⟨d', hd'⟩ : ∃ d', (ps.foldl DocScan.step .start).declaration? (.item d.tree d.lexemes)
      = some d' := by
    rw [DocScan.declaration?, hd.declared]
    exact ⟨_, rfl⟩
  obtain ⟨front, run, hsplit, hdoc, hitem, hdeclared, hdrow, hlead, hoffset⟩ :=
    hknows.declaration hd'
  -- the whole lead is a doc comment, so the longest one leaves nothing in front
  obtain rfl : front = [] := by
    rcases hd.doc with rfl | hblock
    · exact (List.append_eq_nil_iff.mp hsplit).1
    · have hlongest := hdoc.longest [] (placed ps) hsplit.symm (hrow ▸ hblock)
      rw [← hsplit, List.length_append] at hlongest
      exact List.eq_nil_of_length_eq_zero (by omega)
  rw [List.nil_append] at hsplit
  obtain ⟨htree, hlexemes⟩ := Piece.item.inj hitem
  rw [← htree, hd.declared] at hdeclared
  obtain ⟨hkind, hname⟩ := Prod.mk.inj (Option.some.inj hdeclared)
  rw [hrow] at hdrow
  rw [hsplit, hplaced] at hlead
  rw [hd', Option.toList_some]
  obtain ⟨name, kind, lead, lexemes, tree, offset, row⟩ := d'
  dsimp only at htree hlexemes hkind hname hdrow hlead hoffset
  rw [← htree, ← hlexemes, ← hkind, ← hname, hdrow, hlead, hoffset]
  rfl

end MadeOf

/-- **A declaration is told from its text alone.** Read as a file, wherever that
stands, the text of a declaration has this one declaration. -/
theorem declarations_of_read_text (h : SourceFile.read path source = .ok f)
    (hd : d ∈ f.declarations) (path' : Path) :
    ∃ f' d', SourceFile.read path' d.text = .ok f' ∧ f'.declarations = [d']
      ∧ d'.name = d.name ∧ d'.kind = d.kind ∧ d'.text = d.text ∧ d'.doc? = d.doc?
      ∧ d'.hasBody = d.hasBody ∧ d'.callTargets = d.callTargets := by
  obtain ⟨ps, hmade, front, behind, hlexemes⟩ := SourceFile.exists_madeOf h hd
  refine ⟨⟨path', d.text, ps ++ [Piece.item d.tree d.lexemes]⟩, _, ?_, hmade.declarations_eq,
    rfl, rfl, rfl, rfl, rfl, rfl⟩
  rw [SourceFile.read]
  simp only [hmade.lexemes_text hlexemes, hmade.pieces_eq]

/-- The comment on the row of `a` is not taken for the doc comment of `b`, neither in
the file nor alone. -/
theorem declarations_of_read_text_behind_code :
    ∃ f d f' d',
      SourceFile.read ⟨"a.go"⟩ "func a() {} // x\n// y\n/* z */\nfunc b() { a() }\n" = .ok f
        ∧ d ∈ f.declarations ∧ d.text = "// y\n/* z */\nfunc b() { a() }"
        ∧ SourceFile.read ⟨"b.go"⟩ d.text = .ok f' ∧ f'.declarations = [d']
        ∧ d'.name = "b" ∧ d'.doc? = some "// y\n/* z */" ∧ d'.callTargets = ["a"] := by
  obtain ⟨f, hf, d, hd, htext, hname, hdoc, hcalls⟩ :
      ∃ f, SourceFile.read ⟨"a.go"⟩ "func a() {} // x\n// y\n/* z */\nfunc b() { a() }\n" = .ok f
        ∧ ∃ d ∈ f.declarations, d.text = "// y\n/* z */\nfunc b() { a() }" ∧ d.name = "b"
          ∧ d.doc? = some "// y\n/* z */" ∧ d.callTargets = ["a"] := by
    decide +kernel
  obtain ⟨f', d', hread, hdeclarations, hname', -, -, hdoc', -, hcalls'⟩ :=
    declarations_of_read_text hf hd ⟨"b.go"⟩
  exact ⟨f, d, f', d', hf, hd, htext, hread, hdeclarations, hname'.trans hname, hdoc'.trans hdoc,
    hcalls'.trans hcalls⟩

end TestTriage.Go
