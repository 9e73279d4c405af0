import TestTriage.Proofs.Go.CommentText
import TestTriage.Proofs.Go.Excerpt
import TestTriage.Proofs.Go.RawStrings.Statements
import TestTriage.Proofs.Text.Rows

/-!
# Lines of three backquotes

Where a source text can have a line that is just three backquotes. A
character behind a line end is inside a block comment, inside a string or at
the start of a lexeme (`Scan.step_newline`). A string in double quotes does
not go on behind such a line, and a raw string ends with its first or second
backquote, so that another begins with the next one (`fence_cases`). The
grammar has no place for two raw strings like this, so the line is a line of
a comment (`SourceFile.fence_mem_text`).
-/

namespace TestTriage

/-- The line that closes a block of source text. -/
def fence : List Char := ['\x60', '\x60', '\x60']

namespace Go

open Text (split rows)

/-! ## States of the scanner -/

namespace Scan

/-- The state behind some characters. -/
def behind? : Scan → List Char → Option Scan
  | state, [] => some state
  | state, c :: cs => (state.step c).bind (behind? · cs)

theorem behind?_append (state : Scan) (cs cs' : List Char) :
    state.behind? (cs ++ cs') = (state.behind? cs).bind (behind? · cs') := by
  induction cs generalizing state with
  | nil => rfl
  | cons c cs ih =>
      rw [List.cons_append, behind?, behind?, Option.bind_assoc]
      exact congrArg _ (funext ih)

theorem behind?_of_longest {state : Scan} {cs piece rest : List Char} {kind : Lexeme.Kind}
    (h : state.longest cs = some (kind, piece, rest)) :
    ∃ last, state.behind? piece = some last ∧ last.accepts = some kind := by
  have hstop : ∀ {state : Scan} {piece rest' : List Char},
      (state.accepts.map fun kind => (kind, ([] : List Char), rest')) = some (kind, piece, rest) →
      ∃ last, state.behind? piece = some last ∧ last.accepts = some kind := by
    intro state piece rest' h
    obtain ⟨kind', haccepts, heq⟩ := Option.map_eq_some_iff.mp h
    cases heq
    exact ⟨state, rfl, haccepts⟩
  induction cs generalizing state piece with
  | nil => exact hstop h
  | cons c cs ih =>
      rw [longest] at h
      split at h
      · next hlater =>
          obtain ⟨next, hnext, hlater⟩ := Option.bind_eq_some_iff.mp hlater
          cases h
          obtain ⟨last, hlast, haccepts⟩ := ih hlater
          exact ⟨last, by rw [behind?, hnext]; exact hlast, haccepts⟩
      · exact hstop h

/-- Is a block comment being read, or has one been? -/
def inBlock : Scan → Bool
  | .blockComment | .blockStar | .blockEnd => true
  | _ => false

theorem inBlock_step {state next : Scan} {c : Char} (h : state.inBlock = true)
    (hstep : state.step c = some next) : next.inBlock = true := by
  cases state <;> cases h <;> rw [step] at hstep
  · split at hstep <;> cases hstep <;> rfl
  · repeat' split at hstep
    all_goals cases hstep
    all_goals rfl
  · cases hstep

theorem inBlock_behind? {state last : Scan} {cs : List Char} (h : state.inBlock = true)
    (hlast : state.behind? cs = some last) : last.inBlock = true := by
  induction cs generalizing state with
  | nil => cases hlast; exact h
  | cons c cs ih =>
      obtain ⟨next, hnext, hlast⟩ := Option.bind_eq_some_iff.mp hlast
      exact ih (inBlock_step h hnext) hlast

theorem accepts_inBlock {state : Scan} {kind : Lexeme.Kind} (h : state.inBlock = true)
    (haccepts : state.accepts = some kind) : kind = .comment := by
  cases state <;> cases h <;> cases haccepts
  rfl

theorem eq_rawString_of_step {state : Scan} {c : Char} (h : state.step c = some .rawString) :
    state = .rawString := by
  cases state with
  | rawString => rfl
  | number numeral =>
      obtain ⟨numeral', -, h⟩ := Option.map_eq_some_iff.mp h
      cases h
  | _ =>
      rw [step] at h
      repeat' split at h
      all_goals cases h

theorem eq_rawString_of_behind? {state : Scan} {cs : List Char}
    (h : state.behind? cs = some .rawString) : state = .rawString := by
  induction cs generalizing state with
  | nil => exact Option.some.inj h
  | cons c cs ih =>
      obtain ⟨next, hnext, h⟩ := Option.bind_eq_some_iff.mp h
      obtain rfl := ih h
      exact eq_rawString_of_step hnext

theorem eq_of_first_rawString {c : Char} (h : first c = some .rawString) : c = '\x60' := by
  rw [first] at h
  repeat' split at h
  all_goals first | (next hc => exact eq_of_beq hc) | cases h

theorem numeral_step_newline (numeral : Numeral) : numeral.step '\n' = none := by
  cases numeral with
  | decimal separated | octal separated | padded separated | fraction separated
  | hexFraction separated | exponent separated => cases separated <;> decide
  | based base => cases base <;> decide
  | basedDigits base separated => cases base <;> cases separated <;> decide
  | _ => decide

/-- What a line end may be read in. -/
theorem step_newline {state next : Scan} (h : state.step '\n' = some next) :
    next = .blockComment ∨ next = .string ∨ (state = .rawString ∧ next = .rawString)
      ∨ next = .runeClose := by
  cases state with
  | blockComment | blockStar => exact .inl (Option.some.inj h).symm
  | stringEscape => exact .inr (.inl (Option.some.inj h).symm)
  | rawString => exact .inr (.inr (.inl ⟨rfl, (Option.some.inj h).symm⟩))
  | rune => exact .inr (.inr (.inr (Option.some.inj h).symm))
  | number numeral => rw [step, numeral_step_newline] at h; cases h
  | operator seen =>
      have hnone : ∀ o ∈ operators, '\n' ∉ o.toList := by decide
      have hbegins : beginsOperator (seen ++ ['\n']) = false := by
        refine List.any_eq_false.mpr fun o ho hprefix => hnone o ho ?_
        exact (List.isPrefixOf_iff_prefix.mp hprefix).subset (by simp)
      simp [step, hbegins] at h
  | _ => cases h

theorem eq_nil_of_behind?_stringEnd {cs : List Char} {last : Scan}
    (h : behind? .stringEnd cs = some last) : cs = [] := by
  cases cs with
  | nil => rfl
  | cons c cs => cases h

theorem cases_of_behind?_rawString {cs : List Char} {last : Scan}
    (h : behind? .rawString cs = some last) : last = .rawString ∨ last = .stringEnd := by
  induction cs with
  | nil => exact .inl (Option.some.inj h).symm
  | cons c cs ih =>
      rw [behind?, step] at h
      split at h
      · obtain rfl := eq_nil_of_behind?_stringEnd h
        exact .inr (Option.some.inj h).symm
      · exact ih h

/-- Where a backquote changes nothing and nothing may end, two of them and one more
character are read. -/
theorem exists_behind_backquotes {state last : Scan} {kind : Lexeme.Kind}
    (hstate : state.step '\x60' = some state) (hnone : state.accepts = none)
    {cs rest behind : List Char} (hlast : state.behind? cs = some last)
    (haccepts : last.accepts = some kind) (hcs : cs ++ rest = '\x60' :: '\x60' :: behind) :
    ∃ c cs', cs = '\x60' :: '\x60' :: c :: cs' ∧ c ∈ behind.head?
      ∧ state.behind? (c :: cs') = some last := by
  have hstay : ∀ {cs : List Char}, state.behind? cs = some last → cs ≠ [] := by
    rintro _ h rfl
    cases h
    rw [hnone] at haccepts
    cases haccepts
  have hstep : ∀ {c : Char} {cs' : List Char}, c = '\x60' →
      state.behind? (c :: cs') = some last → state.behind? cs' = some last := by
    rintro _ _ rfl h
    rwa [behind?, hstate] at h
  obtain ⟨c₁, cs, rfl⟩ := List.exists_cons_of_ne_nil (hstay hlast)
  obtain ⟨hc₁, hcs⟩ := List.cons.inj hcs
  have hlast := hstep hc₁ hlast
  obtain ⟨c₂, cs, rfl⟩ := List.exists_cons_of_ne_nil (hstay hlast)
  obtain ⟨hc₂, hcs⟩ := List.cons.inj hcs
  have hlast := hstep hc₂ hlast
  obtain ⟨c₃, cs, rfl⟩ := List.exists_cons_of_ne_nil (hstay hlast)
  exact ⟨c₃, cs, by rw [hc₁, hc₂], by rw [← hcs]; rfl, hlast⟩

/-- What a text with a line end as its last character may be the begin of. -/
theorem cases_behind_newline {d : Char} {front : List Char} {state middle : Scan}
    (hfirst : first d = some state) (hmiddle : state.behind? front = some middle)
    (hlast : ∀ c ∈ (d :: front).getLast?, c = '\n') :
    middle = .newline ∨ middle = .blockComment ∨ middle = .string
      ∨ (d = '\x60' ∧ middle = .rawString) ∨ middle = .runeClose := by
  rcases List.eq_nil_or_concat front with rfl | ⟨front, c, rfl⟩
  · obtain rfl := hlast d rfl
    obtain rfl : Scan.newline = state := Option.some.inj hfirst
    exact .inl (Option.some.inj hmiddle).symm
  · rw [List.concat_eq_append] at hmiddle hlast
    rw [← List.cons_append, List.getLast?_concat] at hlast
    obtain rfl := hlast c rfl
    rw [behind?_append] at hmiddle
    obtain ⟨before, hbefore, hmiddle⟩ := Option.bind_eq_some_iff.mp hmiddle
    obtain ⟨next, hnext, hmiddle⟩ := Option.bind_eq_some_iff.mp hmiddle
    obtain rfl : next = middle := Option.some.inj hmiddle
    rcases step_newline hnext with rfl | rfl | ⟨rfl, rfl⟩ | rfl
    · exact .inr (.inl rfl)
    · exact .inr (.inr (.inl rfl))
    · obtain rfl := eq_rawString_of_behind? hbefore
      exact .inr (.inr (.inr (.inl ⟨eq_of_first_rawString hfirst, rfl⟩)))
    · exact .inr (.inr (.inr (.inr rfl)))

end Scan

/-! ## The lexeme at a line of backquotes -/

section NextLexeme

variable {d : Char} {ds rest : List Char} {l : Lexeme}

/-- A lexeme is what was read up to a state that accepts, or one stray character. -/
theorem exists_scan_of_nextLexeme (h : nextLexeme d ds = (l, rest)) :
    (∃ (state last : Scan) (piece : List Char) (kind : Lexeme.Kind), Scan.first d = some state
      ∧ state.behind? piece = some last ∧ last.accepts = some kind ∧ l = .make kind (d :: piece))
      ∨ l = .make .stray [d] := by
  rw [nextLexeme] at h
  split at h
  · next kind piece rest' hfound =>
      cases h
      obtain ⟨state, hstate, hfound⟩ := Option.bind_eq_some_iff.mp hfound
      obtain ⟨last, hlast, haccepts⟩ := Scan.behind?_of_longest hfound
      exact .inl ⟨state, last, piece, kind, hstate, hlast, haccepts, rfl⟩
  · cases h
    exact .inr rfl

theorem Lexeme.kind_make {kind : Lexeme.Kind} (h : kind ≠ .identifier) (cs : List Char) :
    (make kind cs).kind = kind := by
  rw [make, if_neg (fun hword => h hword.1)]

theorem Lexeme.isRaw_make {kind : Lexeme.Kind} {c : Char} {cs : List Char} :
    (make kind (c :: cs)).isRaw = true ↔ c = '\x60' := by
  rw [isRaw, text_make, String.toList_ofList, List.head?_cons, beq_iff_eq, Option.some_inj]

theorem lawful_of_nextLexeme (h : nextLexeme d ds = (l, rest)) : l.Lawful := by
  intro hraw
  rcases exists_scan_of_nextLexeme h with ⟨state, last, piece, kind, hfirst, hlast, haccepts, rfl⟩
    | rfl
  · obtain rfl := Lexeme.isRaw_make.mp hraw
    obtain rfl : .rawString = state := Option.some.inj hfirst
    rcases Scan.cases_of_behind?_rawString hlast with rfl | rfl <;> cases haccepts
    exact .inl rfl
  · exact .inr (Lexeme.kind_make (by decide) _)

/-- What holds a line of three backquotes: a comment has it whole, and else a raw string
begins or ends with the first backquote and the next lexeme begins with the second. -/
theorem fence_cases (h : nextLexeme d ds = (l, rest)) {front back behind : List Char}
    (htext : l.text.toList = front ++ '\x60' :: back)
    (hbehind : back ++ rest = '\x60' :: '\x60' :: behind)
    (hfront : ∀ c ∈ front.getLast?, c = '\n') (hend : ∀ c ∈ behind.head?, c = '\n') :
    (l.kind = .comment ∧ fence ∈ rows l.text)
      ∨ (l.isRaw = true ∧ (l.kind = .stray ∨ rest.head? = some '\x60')) := by
  rcases exists_scan_of_nextLexeme h with ⟨state, last, piece, kind, hfirst, hlast, haccepts, rfl⟩
    | rfl
  · rw [Lexeme.text_make, String.toList_ofList] at htext
    cases front with
    | nil =>
        -- the raw string begins here, and the second backquote ends it
        obtain ⟨rfl, rfl⟩ := List.cons.inj htext
        obtain rfl : .rawString = state := Option.some.inj hfirst
        refine .inr ⟨Lexeme.isRaw_make.mpr rfl, .inr ?_⟩
        cases piece with
        | nil =>
            obtain rfl : .rawString = last := Option.some.inj hlast
            cases haccepts
        | cons c piece =>
            obtain ⟨rfl, hsecond⟩ := List.cons.inj hbehind
            obtain rfl := Scan.eq_nil_of_behind?_stringEnd hlast
            exact congrArg List.head? hsecond
    | cons c front =>
        rw [List.cons_append] at htext
        obtain ⟨rfl, rfl⟩ := List.cons.inj htext
        rw [Scan.behind?_append] at hlast
        obtain ⟨middle, hmiddle, hlast⟩ := Option.bind_eq_some_iff.mp hlast
        obtain ⟨next, hnext, hlast⟩ := Option.bind_eq_some_iff.mp hlast
        rcases Scan.cases_behind_newline hfirst hmiddle hfront with
          rfl | rfl | rfl | ⟨rfl, rfl⟩ | rfl
        · cases hnext
        · obtain rfl : .blockComment = next := Option.some.inj hnext
          obtain ⟨c, back, rfl, hc, -⟩ :=
            Scan.exists_behind_backquotes rfl rfl hlast haccepts hbehind
          obtain rfl := Scan.accepts_inBlock (Scan.inBlock_behind? rfl hlast) haccepts
          refine .inl ⟨Lexeme.kind_make (by decide) _, ?_⟩
          rw [rows, Lexeme.text_make, String.toList_ofList]
          have hfence : fence ∈ split '\n' (d :: front ++ fence ++ c :: back) :=
            Text.mem_split_append (by decide) hfront (by simpa using hend c hc)
          simpa [fence] using hfence
        · -- a string in double quotes does not go on behind the line
          obtain rfl : .string = next := Option.some.inj hnext
          obtain ⟨c, back, rfl, hc, hlast⟩ :=
            Scan.exists_behind_backquotes rfl rfl hlast haccepts hbehind
          obtain rfl := hend c hc
          cases hlast
        · obtain rfl : .stringEnd = next := Option.some.inj hnext
          obtain rfl := Scan.eq_nil_of_behind?_stringEnd hlast
          exact .inr ⟨Lexeme.isRaw_make.mpr rfl, .inr (congrArg List.head? hbehind)⟩
        · cases hnext
  · rw [Lexeme.text_make, String.toList_ofList] at htext
    obtain ⟨rfl, -⟩ : front = [] ∧ back = [] := by
      have := congrArg List.length htext
      simp at this
      exact ⟨List.length_eq_zero_iff.mp (by omega), List.length_eq_zero_iff.mp (by omega)⟩
    obtain ⟨rfl, -⟩ := List.cons.inj htext
    exact .inr ⟨Lexeme.isRaw_make.mpr rfl, .inl (Lexeme.kind_make (by decide) _)⟩

/-- A comment neither begins nor ends with a line of three backquotes. -/
theorem ne_nil_of_fence_in_comment (h : nextLexeme d ds = (l, rest)) (hkind : l.kind = .comment)
    {front back : List Char} (htext : l.text.toList = front ++ fence ++ back)
    (hfront : ∀ c ∈ front.getLast?, c = '\n') : front ≠ [] ∧ back ≠ [] := by
  have hbegins : front ≠ [] := by
    rintro rfl
    rcases text_of_comment h hkind with ⟨body, hbody, -⟩ | ⟨body, hbody, -⟩ <;>
      · rw [hbody] at htext
        cases htext
  refine ⟨hbegins, ?_⟩
  rintro rfl
  rw [List.append_nil] at htext
  rcases text_of_comment h hkind with ⟨body, hbody, hline, -⟩ | ⟨body, hbody, -⟩
  · -- a line comment has no line end
    have hmem : '\n' ∈ l.text.toList := by
      rw [htext, ← hfront _ (List.getLast?_eq_some_getLast hbegins)]
      exact List.mem_append_left _ (List.getLast_mem hbegins)
    rw [hbody] at hmem
    simp [hline] at hmem
  · have hlast := congrArg List.getLast? (hbody.symm.trans htext)
    rw [List.getLast?_append_of_ne_nil _ (by decide : fence ≠ []), ← List.cons_append,
      ← List.cons_append, List.getLast?_append_of_ne_nil _ (by simp)] at hlast
    cases hlast

end NextLexeme

/-! ## Lines of cut texts -/

namespace Lexed

variable {cs : List Char} {ls : List Lexeme}

theorem lawful (h : Lexed cs ls) : ∀ l ∈ ls, l.Lawful := by
  induction h with
  | nil => exact List.forall_mem_nil _
  | cons hnext _ ih => exact List.forall_mem_cons.mpr ⟨lawful_of_nextLexeme hnext, ih⟩

/-- The lexeme that a character of the text belongs to. -/
theorem exists_at (h : Lexed cs ls) {front back : List Char} {c : Char}
    (hcs : cs = front ++ c :: back) :
    ∃ before l behind left right, ls = before ++ l :: behind ∧ l.text.toList = left ++ c :: right
      ∧ front = (Lexeme.spell before).toList ++ left
      ∧ back = right ++ (Lexeme.spell behind).toList := by
  induction h generalizing front with
  | nil => simp at hcs
  | @cons d ds rest l ls hnext hs ih =>
      obtain ⟨piece, htext, hds⟩ := exists_text_nextLexeme hnext
      rw [hds, ← List.cons_append, ← htext] at hcs
      have hlater : ∀ front', front = l.text.toList ++ front' → rest = front' ++ c :: back →
          ∃ before l' behind left right, l :: ls = before ++ l' :: behind
            ∧ l'.text.toList = left ++ c :: right
            ∧ front = (Lexeme.spell before).toList ++ left
            ∧ back = right ++ (Lexeme.spell behind).toList := by
        rintro front' rfl hrest
        obtain ⟨before, l', behind, left, right, rfl, hl', rfl, hback⟩ := ih hrest
        exact ⟨l :: before, l', behind, left, right, rfl, hl', by simp, hback⟩
      rcases List.append_eq_append_iff.mp hcs with ⟨front', hfront, hrest⟩ | ⟨right, hl, hright⟩
      · exact hlater front' hfront hrest
      · cases right with
        | nil => exact hlater [] (by simpa using hl.symm) (by simpa using hright.symm)
        | cons _ right =>
            obtain ⟨rfl, hback⟩ := List.cons.inj hright
            exact ⟨[], l, ls, front, right, rfl, hl, by simp, by rw [hs.spell_eq, hback]; rfl⟩

theorem exists_nextLexeme {before behind : List Lexeme} {l : Lexeme}
    (h : Lexed cs (before ++ l :: behind)) :
    ∃ d ds, nextLexeme d ds = (l, (Lexeme.spell behind).toList) := by
  have hpart := h.right_of_append
  generalize (Lexeme.spell (l :: behind)).toList = part at hpart
  cases hpart with
  | cons hnext hs => exact ⟨_, _, hs.spell_eq ▸ hnext⟩

theorem exists_isRaw {behind : List Lexeme} (h : Lexed cs (ls ++ behind))
    (hhead : (Lexeme.spell behind).toList.head? = some '\x60') :
    ∃ l later, behind = l :: later ∧ l.isRaw = true := by
  cases behind with
  | nil => cases hhead
  | cons l later =>
      obtain ⟨d, ds, hnext⟩ := h.exists_nextLexeme
      obtain ⟨piece, htext, -⟩ := exists_text_nextLexeme hnext
      rw [Lexeme.spell_cons, String.toList_append, htext] at hhead
      obtain rfl : d = '\x60' := Option.some.inj hhead
      exact ⟨l, later, rfl, by rw [Lexeme.isRaw, htext]; rfl⟩

/-- Where raw strings stand apart, a line of three backquotes is a line of a comment. -/
theorem exists_comment (h : Lexed cs ls) (hraw : RawApart ls) (hfence : fence ∈ split '\n' cs) :
    ∃ l ∈ ls, l.kind = .comment ∧ fence ∈ rows l.text := by
  obtain ⟨front, back, hcs, hfront, hback⟩ := Text.exists_of_mem_split hfence
  have hat : cs = front ++ '\x60' :: ('\x60' :: '\x60' :: back) := by rw [hcs]; simp [fence]
  obtain ⟨before, l, behind, left, right, rfl, htext, rfl, hright⟩ := h.exists_at hat
  have hmem : l ∈ before ++ l :: behind := List.mem_append_right _ List.mem_cons_self
  have hleft : ∀ c ∈ left.getLast?, c = '\n' := by
    intro c hc
    refine hfront c ?_
    rw [List.getLast?_append, hc]
    rfl
  obtain ⟨d, ds, hnext⟩ := h.exists_nextLexeme
  rcases fence_cases hnext htext hright.symm hleft hback with
    hcomment | ⟨hl, hstray | hhead⟩
  · exact ⟨l, hmem, hcomment⟩
  · rw [hraw.whole l hmem hl] at hstray
    cases hstray
  · rw [List.append_cons] at h
    obtain ⟨l', later, rfl, hl'⟩ := h.exists_isRaw hhead
    have hapart := hraw.apart.right_of_append
    rw [List.isChain_cons_cons] at hapart
    rw [hapart.1 hl] at hl'
    cases hl'

theorem fence_of_comment (h : Lexed cs ls) {l : Lexeme} (hl : l ∈ ls) (hkind : l.kind = .comment)
    (hfence : fence ∈ rows l.text) : fence ∈ split '\n' cs := by
  obtain ⟨before, behind, rfl⟩ := List.append_of_mem hl
  obtain ⟨d, ds, hnext⟩ := h.exists_nextLexeme
  obtain ⟨front, back, htext, hfront, hback⟩ := Text.exists_of_mem_split hfence
  obtain ⟨hbegins, hends⟩ := ne_nil_of_fence_in_comment hnext hkind htext hfront
  rw [← h.spell_eq, Lexeme.spell_append, Lexeme.spell_cons, String.toList_append,
    String.toList_append, htext]
  have hfence : fence ∈ split '\n' ((Lexeme.spell before).toList ++ front ++ fence
      ++ (back ++ (Lexeme.spell behind).toList)) := by
    refine Text.mem_split_append (by decide) (fun c hc => ?_) (fun c hc => ?_)
    · rw [List.getLast?_append_of_ne_nil _ hbegins] at hc
      exact hfront c hc
    · rw [List.head?_append_of_ne_nil _ hends] at hc
      exact hback c hc
  simpa using hfence

theorem fence_mem_split_iff (h : Lexed cs ls) (hraw : RawApart ls) :
    fence ∈ split '\n' cs ↔ ∃ l ∈ ls, l.kind = .comment ∧ fence ∈ rows l.text :=
  ⟨h.exists_comment hraw, fun ⟨_, hl, hkind, hfence⟩ => h.fence_of_comment hl hkind hfence⟩

end Lexed

/-! ## Declarations -/

variable {path : Path} {source : String} {f : SourceFile} {d : Declaration} {ps : List Piece}

/-- Raw strings stand apart in a declaration: its lead is white space and comments, and
its item is what the grammar reads. -/
theorem MadeOf.rawApart (hd : MadeOf d ps) (hlawful : ∀ l ∈ d.lead ++ d.lexemes, l.Lawful) :
    RawApart (d.lead ++ d.lexemes) := by
  refine RawApart.gaps_append ?_ fun l hl => ?_
  · have hitem := hd.item
    cases hlexemes : d.lexemes with
    | nil =>
        rw [hlexemes] at hitem
        cases hitem
    | cons l ls =>
        rw [hlexemes] at hitem hlawful
        obtain ⟨hl, hls⟩ := List.forall_mem_cons.mp fun m hm =>
          hlawful m (List.mem_append_right _ hm)
        cases hitem with
        | item _ _ hrun =>
            obtain ⟨read, rfl, hread⟩ := (Grammar.apart_itemFrom l).run hrun hls
              (Grammar.kind_of_run_itemFrom hl hrun) id
            rwa [List.append_nil]
  · have hkind : l.kind = .blank ∨ l.kind = .newline ∨ l.kind = .comment := by
      rw [hd.lead] at hl
      obtain ⟨p, hp, hl⟩ := List.mem_flatMap.mp hl
      have hgap := hd.gaps p hp
      cases hd.alone p hp with
      | blank hkind => exact .inl (List.mem_singleton.mp hl ▸ hkind)
      | newline hkind => exact .inr (.inl (List.mem_singleton.mp hl ▸ hkind))
      | comment hkind => exact .inr (.inr (List.mem_singleton.mp hl ▸ hkind))
      | semicolon | item => cases hgap
    refine Lexeme.isRaw_of_kind (hlawful l (List.mem_append_left _ hl)) ?_ ?_ <;>
      rcases hkind with h | h | h <;> simp [h]

/-- **Only a comment of a declaration can have a line of three backquotes.** -/
theorem SourceFile.fence_mem_text (h : read path source = .ok f) (hd : d ∈ f.declarations) :
    fence ∈ rows d.text ↔ ∃ l ∈ lexemes d.text, l.kind = .comment ∧ fence ∈ rows l.text := by
  obtain ⟨ps, hmade, front, behind, hlexemes⟩ := exists_madeOf h hd
  have hlexed : Lexed d.text.toList (d.lead ++ d.lexemes) :=
    lexed_of_append hlexemes (hmade.head_ne_byteOrderMark hlexemes)
  rw [hmade.lexemes_text hlexemes]
  exact hlexed.fence_mem_split_iff (hmade.rawApart hlexed.lawful)

end Go

end TestTriage
