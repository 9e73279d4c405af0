import TestTriage.Proofs.Go.CommentText
import TestTriage.Proofs.Go.Excerpt

/-!
# Where the declarations of a file stand

The pieces of a file take its bytes one after the other (`spans`), and the
declarations are those that are functions or methods, at their places. The
doc comment of a declaration reaches back over earlier pieces; that it does
not reach into the declaration before is seen from the first byte that the
scan may still give to a later one (`DocScan.floor`). The scan never lowers
it, and code moves it behind itself.

In a block that ends on the row above, the rows of the comments tell how many
lines end between two of them, so its lexemes are a lead (`exists_lead`).
-/

namespace TestTriage.Go

open Placed

/-! ## Spans -/

/-- A piece with the bytes of the file that it takes. -/
structure Span where
  piece : Piece
  /-- Its first byte. -/
  start : Nat
  /-- The byte behind its last one. -/
  stop : Nat
  deriving Repr

/-- Is it a function or method with a name? -/
def Span.declares (s : Span) : Bool :=
  match s.piece with
  | .item tree _ => tree.declared?.isSome
  | _ => false

/-- Pieces with the bytes they take, behind so many bytes. -/
def spansBehind : (offset : Nat) → List Piece → List Span
  | _, [] => []
  | offset, p :: ps =>
    let stop := offset + Lexeme.bytesOf p.lexemes
    ⟨p, offset, stop⟩ :: spansBehind stop ps

/-- The pieces of a file with the bytes they take. -/
def spans (ps : List Piece) : List Span := spansBehind 0 ps

/-- Where a declaration itself stands, without its doc comment. -/
def Declaration.span (d : Declaration) : Span := ⟨.item d.tree d.lexemes, d.start, d.stop⟩

/-! ## The bytes of a scan -/

namespace DocScan

/-- The open block takes the bytes up to the next piece. -/
def Reaches (s : DocScan) : Prop :=
  ∀ b ∈ s.block, b.offset + Lexeme.bytesOf b.lexemes = s.offset

/-- The first byte that a later declaration may take: that of the open block, or of the
next piece. -/
def floor (s : DocScan) : Nat := (s.block.map (·.offset)).getD s.offset

variable {s : DocScan} {p : Piece} {ps : List Piece} {d : Declaration}

theorem offset_step (s : DocScan) (p : Piece) :
    (s.step p).offset = s.offset + Lexeme.bytesOf p.lexemes := by
  cases p <;> rfl

theorem reaches_start : Reaches .start := fun _ hb => nomatch hb

/-- A block behind a comment is the one in front of it, carried on, or begins with it. -/
theorem blockBehind_cases {l : Lexeme} {b : CommentBlock} (hb : s.blockBehind l = some b) :
    (∃ b' ∈ s.block, b.lexemes = b'.lexemes ++ [l] ∧ b.offset = b'.offset)
      ∨ b.lexemes = [l] ∧ b.offset = s.offset := by
  have hfresh : (if s.codeRow = some s.row then none else some ⟨[l], s.offset, s.row + l.rows⟩)
      = some b → b.lexemes = [l] ∧ b.offset = s.offset := by
    intro h
    split at h
    · cases h
    · cases h
      exact ⟨rfl, rfl⟩
  rw [blockBehind] at hb
  split at hb
  · next b' hblock =>
      split at hb
      · cases hb
        exact .inl ⟨b', hblock, rfl, rfl⟩
      · exact .inr (hfresh hb)
  · exact .inr (hfresh hb)

theorem reaches_step (h : s.Reaches) (p : Piece) : (s.step p).Reaches := by
  intro b hb
  rw [offset_step]
  cases p with
  | space l =>
      obtain ⟨b', hb', rfl⟩ := Option.map_eq_some_iff.mp hb
      rw [Lexeme.bytesOf_append, ← Nat.add_assoc, h b' hb']
      rfl
  | comment l =>
      rcases blockBehind_cases hb with ⟨b', hb', hlexemes, hoffset⟩ | ⟨hlexemes, hoffset⟩
      · rw [hlexemes, hoffset, Lexeme.bytesOf_append, ← Nat.add_assoc, h b' hb']
        rfl
      · rw [hlexemes, hoffset]
        rfl
  | semicolon | item => cases hb

theorem floor_eq_of_block {b : CommentBlock} (hb : b ∈ s.block) : s.floor = b.offset := by
  rw [floor, Option.mem_def.mp hb]
  rfl

theorem floor_le_offset (h : s.Reaches) : s.floor ≤ s.offset := by
  cases hb : s.block with
  | none => rw [floor, hb]; rfl
  | some b =>
      rw [floor_eq_of_block hb, ← h b hb]
      exact Nat.le_add_right _ _

theorem floor_le_step (h : s.Reaches) (p : Piece) : s.floor ≤ (s.step p).floor := by
  -- a block behind the step was open in front of it or begins with it
  cases hb : (s.step p).block with
  | none =>
      rw [floor.eq_1 (s.step p), hb, Option.map_none, Option.getD_none, offset_step]
      exact Nat.le_trans (floor_le_offset h) (Nat.le_add_right _ _)
  | some b =>
      rw [floor_eq_of_block hb]
      cases p with
      | space l =>
          obtain ⟨b', hb', rfl⟩ := Option.map_eq_some_iff.mp hb
          exact (floor_eq_of_block hb').le
      | comment l =>
          rcases blockBehind_cases hb with ⟨b', hb', -, hoffset⟩ | ⟨-, hoffset⟩
          · rw [hoffset, floor_eq_of_block hb']
          · rw [hoffset]
            exact floor_le_offset h
      | semicolon | item => cases hb

/-- A declaration is the piece at its place, and takes nothing below the floor. -/
theorem of_declaration? (h : s.Reaches) (hd : s.declaration? p = some d) :
    p = .item d.tree d.lexemes ∧ d.tree.declared? = some (d.kind, d.name)
      ∧ d.start = s.offset ∧ s.floor ≤ d.offset := by
  cases p with
  | item tree ls =>
      obtain ⟨⟨kind, name⟩, hdeclared, rfl⟩ := Option.map_eq_some_iff.mp hd
      refine ⟨rfl, hdeclared, ?_⟩
      cases hdoc : s.docBlock? with
      | none => exact ⟨rfl, floor_le_offset h⟩
      | some b =>
          have hb : b ∈ s.block := (Option.filter_eq_some_iff.mp hdoc).1
          exact ⟨h b hb, (floor_eq_of_block hb).le⟩
  | space | comment | semicolon => cases hd

theorem stop_eq_offset_step (h : s.Reaches) (hd : s.declaration? p = some d) :
    d.stop = (s.step p).offset := by
  obtain ⟨rfl, -, hstart, -⟩ := of_declaration? h hd
  rw [offset_step, Declaration.stop, hstart]
  rfl

/-! ## All declarations -/

/-- The declarations are the pieces that declare something. -/
theorem map_span_declarations (h : s.Reaches) :
    (s.declarations ps).map Declaration.span
      = (spansBehind s.offset ps).filter Span.declares := by
  induction ps generalizing s with
  | nil => rfl
  | cons p ps ih =>
      have ih := ih (reaches_step h p)
      rw [offset_step] at ih
      rw [declarations, List.map_append, ih, spansBehind]
      cases hd : s.declaration? p with
      | some d =>
          have hstop := stop_eq_offset_step h hd
          obtain ⟨rfl, hdeclared, hstart, -⟩ := of_declaration? h hd
          rw [List.filter_cons_of_pos (by simp [Span.declares, hdeclared]), ← offset_step,
            ← hstop, ← hstart]
          rfl
      | none =>
          rw [List.filter_cons_of_neg]
          · rfl
          · cases p with
            | item tree ls =>
                have hnone : tree.declared? = none := Option.map_eq_none_iff.mp hd
                simp [Span.declares, hnone]
            | space | comment | semicolon => exact Bool.false_ne_true

theorem floor_le_of_mem (h : s.Reaches) (hd : d ∈ s.declarations ps) : s.floor ≤ d.offset := by
  induction ps generalizing s with
  | nil => cases hd
  | cons p ps ih =>
      rw [declarations, List.mem_append, Option.mem_toList] at hd
      rcases hd with hd | hd
      · exact (of_declaration? h hd).2.2.2
      · exact Nat.le_trans (floor_le_step h p) (ih (reaches_step h p) hd)

/-- Behind a declaration there is no open block, so no later one reaches into it. -/
theorem stop_eq_floor_step (h : s.Reaches) (hd : s.declaration? p = some d) :
    d.stop = (s.step p).floor := by
  rw [stop_eq_offset_step h hd]
  obtain ⟨rfl, -⟩ := of_declaration? h hd
  rfl

theorem pairwise_declarations (h : s.Reaches) :
    (s.declarations ps).Pairwise fun d d' => d.stop ≤ d'.offset := by
  induction ps generalizing s with
  | nil => exact .nil
  | cons p ps ih =>
      rw [declarations, List.pairwise_append]
      refine ⟨?_, ih (reaches_step h p), fun d hd d' hd' => ?_⟩
      · cases s.declaration? p with
        | none => exact .nil
        | some d => exact List.pairwise_singleton _ d
      · rw [stop_eq_floor_step h (Option.mem_toList.mp hd)]
        exact floor_le_of_mem (reaches_step h p) hd'

end DocScan

/-! ## Leads -/

/-- Comments without code between them, each at most one row below the end of the one
before and the last one at most one row above the end, are white space and a lead. The
white space runs to the row of the first comment. -/
theorem exists_lead {ps : List Piece} (halone : ∀ p ∈ ps, Alone p)
    (hgaps : ∀ p ∈ ps, p.isGap = true) {row : Nat} {pending : Pending}
    (hlinked : ((placedBehind row pending ps).filter isComment).IsChain
      fun c d => d.row ≤ c.lastRow + 1)
    (hlast : ∀ last, lastRowOf isComment (placedBehind row pending ps) = some last →
      row + Lexeme.rowsOf (ps.flatMap Piece.lexemes) ≤ last + 1) :
    ∃ gap lead, ps.flatMap Piece.lexemes = gap ++ lead
      ∧ (∀ l ∈ gap, l.kind = .blank ∨ l.kind = .newline) ∧ Lead lead
      ∧ match ((placedBehind row pending ps).filter isComment).head? with
        | some c => c.row = row + Lexeme.rowsOf gap
        | none => lead = [] := by
  induction ps generalizing row pending with
  | nil => exact ⟨[], [], rfl, List.forall_mem_nil _, .nil, rfl⟩
  | cons p ps ih =>
      obtain ⟨hp, halone'⟩ := List.forall_mem_cons.mp halone
      obtain ⟨hgap, hgaps'⟩ := List.forall_mem_cons.mp hgaps
      have hrows : Lexeme.rowsOf ((p :: ps).flatMap Piece.lexemes)
          = Lexeme.rowsOf p.lexemes + Lexeme.rowsOf (ps.flatMap Piece.lexemes) := by
        rw [List.flatMap_cons, Lexeme.rowsOf_append]
      rw [placedBehind] at hlinked hlast ⊢
      rw [hrows, ← Nat.add_assoc] at hlast
      have hlater : ∀ last, lastRowOf isComment
          (placedBehind (row + Lexeme.rowsOf p.lexemes) (pending.after p) ps) = some last →
            row + Lexeme.rowsOf p.lexemes + Lexeme.rowsOf (ps.flatMap Piece.lexemes)
              ≤ last + 1 := by
        intro last hrow
        refine hlast last ?_
        rw [← List.singleton_append, lastRowOf_append, hrow, Option.some_or]
      cases p with
      | space l =>
          rw [List.filter_cons_of_neg Bool.false_ne_true] at hlinked ⊢
          obtain ⟨gap, lead, hls, hwhite, hlead, hnext⟩ := ih halone' hgaps' hlinked hlater
          refine ⟨l :: gap, lead, ?_, List.forall_mem_cons.mpr ⟨hp.white, hwhite⟩, hlead, ?_⟩
          · rw [List.flatMap_cons, hls]
            rfl
          · rw [Nat.add_assoc] at hnext
            exact hnext
      | comment l =>
          rw [List.filter_cons_of_pos rfl] at hlinked ⊢
          obtain ⟨hfirst, hlinked⟩ := List.isChain_cons.mp hlinked
          obtain ⟨gap, lead, hls, hwhite, hlead, hnext⟩ := ih halone' hgaps' hlinked hlater
          have hkind : l.kind = .comment := by
            cases hp with
            | comment h => exact h
          -- the gap ends on the row of the next comment, or where all ends
          have hspacing : Spacing gap := by
            refine ⟨hwhite, ?_⟩
            split at hnext
            · next c hc =>
                have := hfirst c hc
                simp only [lastRow, Piece.lexemes] at this hnext
                omega
            · next hnone =>
                -- it is the last comment, so what is near is the end
                have := hlast (row + Lexeme.rowsOf (Piece.comment l).lexemes) (by
                  rw [lastRowOf, List.filter_cons_of_pos rfl, List.head?_eq_none_iff.mp hnone]
                  rfl)
                rw [hls, hnext, List.append_nil] at this
                omega
          refine ⟨[], l :: (gap ++ lead), ?_, List.forall_mem_nil _,
            .comment hkind hspacing hlead, rfl⟩
          rw [List.flatMap_cons, hls]
          rfl
      | semicolon | item => cases hgap

namespace MadeOf

variable {d : Declaration} {ps : List Piece}

theorem isLead (hd : MadeOf d ps) : Lead d.lead := by
  rcases hd.doc with rfl | hdoc
  · rw [hd.lead]
    exact .nil
  · obtain ⟨gap, lead, hls, hwhite, hlead, -⟩ :=
      exists_lead hd.alone hd.gaps hdoc.linked fun last hlast => by
        have habove : last + 1 = Lexeme.rowsOf d.lead :=
          Option.some.inj (by rw [← hdoc.above, placed, hlast]; rfl)
        rw [Nat.zero_add, ← hd.lead, habove]
    cases gap with
    | nil =>
        rw [hd.lead, hls]
        exact hlead
    | cons g gap =>
        have hcomment : g.kind = .comment := hd.head_lead (by rw [hd.lead, hls]; rfl)
        have hg := hwhite g List.mem_cons_self
        simp [hcomment] at hg

theorem exists_cons_lexemes (hd : MadeOf d ps) :
    ∃ l ls, d.lexemes = l :: ls ∧ l.isToken = true := by
  have hitem := hd.item
  cases hls : d.lexemes with
  | nil =>
      rw [hls] at hitem
      cases hitem
  | cons l ls =>
      rw [hls] at hitem
      cases hitem with
      | item htoken => exact ⟨l, ls, rfl, htoken⟩

end MadeOf

variable {path : Path} {source : String} {f : SourceFile}

/-- **Declarations stand apart and in order.** The declarations of a file are its named functions
and methods, in file order. Each is a part of the file that begins with comments and white space,
no empty line among them, and no part begins before the one in front has ended. -/
theorem SourceFile.declarations_apart (h : read path source = .ok f) :
    f.declarations.map Declaration.span = (spans f.pieces).filter Span.declares
      ∧ f.declarations.Pairwise (fun d d' => d.stop ≤ d'.offset)
      ∧ ∀ d ∈ f.declarations, d.offset ≤ d.start ∧ d.start < d.stop
        ∧ d.tree.declared? = some (d.kind, d.name)
        ∧ ∃ front doc behind, source = front ++ doc ++ Lexeme.spell d.lexemes ++ behind
          ∧ front.utf8ByteSize = d.offset ∧ (front ++ doc).utf8ByteSize = d.start
          ∧ (front ++ doc ++ Lexeme.spell d.lexemes).utf8ByteSize = d.stop
          ∧ d.text = doc ++ Lexeme.spell d.lexemes ∧ DocText doc.toList := by
  refine ⟨DocScan.map_span_declarations DocScan.reaches_start,
    DocScan.pairwise_declarations DocScan.reaches_start, fun d hd => ?_⟩
  obtain ⟨ps, front, behind, hmade, hlexemes, hoffset⟩ := exists_madeOf_behind h hd
  have hlexed := lexed_of_append hlexemes (hmade.head_ne_byteOrderMark hlexemes)
  obtain ⟨l, ls, hls, htoken⟩ := hmade.exists_cons_lexemes
  have hpos : 0 < Lexeme.bytesOf d.lexemes := by
    have hitem := hlexed.right_of_append
    rw [hls] at hitem ⊢
    exact Nat.add_pos_left hitem.bytes_pos _
  have hsource : source = Lexeme.spell front ++ Lexeme.spell d.lead ++ Lexeme.spell d.lexemes
      ++ Lexeme.spell behind := by
    rw [← spell_lexemes source, hlexemes]
    simp only [Lexeme.spell_append, String.append_assoc]
  have hstart : (Lexeme.spell front ++ Lexeme.spell d.lead).utf8ByteSize = d.start := by
    rw [Declaration.start, hoffset, Lexeme.bytesOf_eq, Lexeme.bytesOf_eq,
      String.utf8ByteSize_append]
  refine ⟨Nat.le_add_right _ _, Nat.lt_add_of_pos_right hpos, hmade.declared,
    Lexeme.spell front, Lexeme.spell d.lead, Lexeme.spell behind, hsource, ?_, hstart, ?_, ?_, ?_⟩
  · rw [hoffset, Lexeme.bytesOf_eq]
  · rw [String.utf8ByteSize_append, hstart, Declaration.stop, Lexeme.bytesOf_eq]
  · rw [Declaration.text, Lexeme.spell_append]
  · refine hmade.isLead.docText hlexed ⟨l, by rw [hls]; rfl, ?_⟩
    exact (Lexeme.isToken_iff.mp htoken).2.1

/-- The comments between the terminator of `a` and `b` belong to neither, nor does the one
behind `b`. -/
theorem SourceFile.declarations_apart_behind_comments :
    ∃ f, read ⟨"a.go"⟩ ("// a\n\n// b\n/* c */ // d\nfunc a() {}; /* e\n*/\n"
          ++ "func (t T) b() {} // f\nfunc c() {}\n") = .ok f
      ∧ f.declarations.map (fun d => (d.offset, d.start, d.stop))
          = [(6, 24, 35), (45, 45, 62), (68, 68, 79)]
      ∧ f.declarations.map Declaration.span = (spans f.pieces).filter Span.declares
      ∧ f.declarations.Pairwise (fun d d' => d.stop ≤ d'.offset)
      ∧ ∀ d ∈ f.declarations,
          ∃ doc, d.text = doc ++ Lexeme.spell d.lexemes ∧ DocText doc.toList := by
  obtain ⟨f, hf, hplaces⟩ :
      ∃ f, read ⟨"a.go"⟩ ("// a\n\n// b\n/* c */ // d\nfunc a() {}; /* e\n*/\n"
            ++ "func (t T) b() {} // f\nfunc c() {}\n") = .ok f
        ∧ f.declarations.map (fun d => (d.offset, d.start, d.stop))
            = [(6, 24, 35), (45, 45, 62), (68, 68, 79)] := by
    decide +kernel
  obtain ⟨hspans, hapart, heach⟩ := declarations_apart hf
  refine ⟨f, hf, hplaces, hspans, hapart, fun d hd => ?_⟩
  obtain ⟨-, -, -, _, doc, _, -, -, -, -, htext, hdoc⟩ := heach d hd
  exact ⟨doc, htext, hdoc⟩

end TestTriage.Go
