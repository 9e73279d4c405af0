import TestTriage.Proofs.Go.Cutting

/-!
# The text of comments

What a lexeme of a kind looks like as text. A state of the scanner tells
something of the characters read so far (`Scan.Spelled`), every step keeps
that true, and the longest match ends in a state that accepts. So a comment
runs from `//` to the line end, or from `/*` to the first `*/` behind it, and
white space is white.

A doc comment is a list of lexemes first (`Lead`): comments, each with a gap
behind it in which at most one line ends. Its text is then of the same form
(`DocText`), a line comment being closed by the one line end of its gap.
-/

namespace TestTriage.Go

/-! ## What a scan has read -/

/-- There is no end of a block comment in the text. -/
def NoCommentEnd (cs : List Char) : Prop := ¬['*', '/'] <:+: cs

theorem noCommentEnd_nil : NoCommentEnd [] := by
  rw [NoCommentEnd, List.infix_nil]
  exact List.cons_ne_nil _ _

theorem star_suffix_concat {cs : List Char} {c : Char} : ['*'] <:+ cs ++ [c] ↔ c = '*' := by
  rw [List.suffix_concat_iff]
  constructor
  · rintro (h | ⟨t, h, -⟩)
    · cases h
    · have h : [] ++ ['*'] = t ++ [c] := h
      exact (List.singleton_inj.mp (List.append_inj' h rfl).2).symm
  · rintro rfl
    exact .inr ⟨[], rfl, List.nil_suffix⟩

theorem commentEnd_suffix_concat {cs : List Char} {c : Char} :
    ['*', '/'] <:+ cs ++ [c] ↔ c = '/' ∧ ['*'] <:+ cs := by
  rw [List.suffix_concat_iff]
  constructor
  · rintro (h | ⟨t, h, ht⟩)
    · cases h
    · have h : ['*'] ++ ['/'] = t ++ [c] := h
      obtain ⟨rfl, hc⟩ := List.append_inj' h rfl
      exact ⟨(List.singleton_inj.mp hc).symm, ht⟩
  · rintro ⟨rfl, h⟩
    exact .inr ⟨['*'], rfl, h⟩

theorem noCommentEnd_concat {cs : List Char} {c : Char} :
    NoCommentEnd (cs ++ [c]) ↔ NoCommentEnd cs ∧ (c = '/' → ¬['*'] <:+ cs) := by
  rw [NoCommentEnd, NoCommentEnd, List.infix_concat_iff, commentEnd_suffix_concat, not_or,
    and_comm, not_and]

namespace Scan

/-- What a state tells of the characters that were read. -/
def Spelled : Scan → List Char → Prop
  | .newline, cs => cs = ['\n']
  | .blank, cs => ∀ c ∈ cs, isBlank c = true
  | .operator seen, cs => cs = seen
  | .lineComment, cs => ∃ body, cs = '/' :: '/' :: body ∧ '\n' ∉ body
  | .blockComment, cs =>
    ∃ body, cs = '/' :: '*' :: body ∧ NoCommentEnd body ∧ ¬['*'] <:+ body
  | .blockStar, cs => ∃ body, cs = '/' :: '*' :: (body ++ ['*']) ∧ NoCommentEnd (body ++ ['*'])
  | .blockEnd, cs =>
    ∃ body, cs = '/' :: '*' :: (body ++ ['*', '/']) ∧ NoCommentEnd (body ++ ['*'])
  | _, _ => True

theorem spelled_first {c : Char} {state : Scan} (h : first c = some state) :
    state.Spelled [c] := by
  rw [first] at h
  split at h
  · next hc =>
      cases h
      rw [eq_of_beq hc]
      rfl
  · split at h
    · next hc =>
        cases h
        exact List.forall_mem_singleton.mpr hc
    · repeat' split at h
      all_goals cases h
      all_goals trivial

theorem spelled_step {state next : Scan} {cs : List Char} {c : Char} (h : state.Spelled cs)
    (hstep : state.step c = some next) : next.Spelled (cs ++ [c]) := by
  cases state with
  | newline | blockEnd | stringEnd | runeEnd => cases hstep
  | blank =>
      rw [step] at hstep
      split at hstep
      · next hc =>
          cases hstep
          exact List.forall_mem_append.mpr ⟨h, List.forall_mem_singleton.mpr hc⟩
      · cases hstep
  | operator seen =>
      obtain rfl : cs = seen := h
      rw [step] at hstep
      split at hstep
      · next hseen =>
          obtain ⟨rfl, rfl⟩ := hseen
          cases hstep
          exact ⟨[], rfl, List.not_mem_nil⟩
      · split at hstep
        · next hseen =>
            obtain ⟨rfl, rfl⟩ := hseen
            cases hstep
            exact ⟨[], rfl, noCommentEnd_nil, fun h => nomatch List.suffix_nil.mp h⟩
        · repeat' split at hstep
          all_goals cases hstep
          · trivial
          · rfl
  | lineComment =>
      obtain ⟨body, rfl, hbody⟩ := h
      rw [step] at hstep
      split at hstep
      · cases hstep
      · next hc =>
          cases hstep
          refine ⟨body ++ [c], rfl, fun hmem => ?_⟩
          rcases List.mem_append.mp hmem with hmem | hmem
          · exact hbody hmem
          · exact hc (beq_iff_eq.mpr (List.mem_singleton.mp hmem).symm)
  | blockComment =>
      obtain ⟨body, rfl, hend, hstar⟩ := h
      rw [step] at hstep
      split at hstep
      · next hc =>
          cases hstep
          obtain rfl := eq_of_beq hc
          exact ⟨body, rfl, noCommentEnd_concat.mpr ⟨hend, fun h => absurd h (by decide)⟩⟩
      · next hc =>
          cases hstep
          refine ⟨body ++ [c], rfl, noCommentEnd_concat.mpr ⟨hend, fun _ => hstar⟩, ?_⟩
          rw [star_suffix_concat]
          rintro rfl
          exact hc rfl
  | blockStar =>
      obtain ⟨body, rfl, hend⟩ := h
      rw [step] at hstep
      split at hstep
      · next hc =>
          cases hstep
          obtain rfl := eq_of_beq hc
          exact ⟨body, by simp, hend⟩
      · next hslash =>
          split at hstep
          · next hc =>
              cases hstep
              obtain rfl := eq_of_beq hc
              exact ⟨body ++ ['*'], rfl,
                noCommentEnd_concat.mpr ⟨hend, fun h => absurd h (by decide)⟩⟩
          · next hc =>
              cases hstep
              refine ⟨body ++ ['*'] ++ [c], rfl, noCommentEnd_concat.mpr ⟨hend, ?_⟩, ?_⟩
              · rintro rfl
                exact absurd rfl hslash
              · rw [star_suffix_concat]
                rintro rfl
                exact hc rfl
  | number numeral =>
      obtain ⟨numeral', -, rfl⟩ := Option.map_eq_some_iff.mp hstep
      trivial
  | _ =>
      rw [step] at hstep
      repeat' split at hstep
      all_goals cases hstep
      all_goals trivial

/-- Many characters more: the longest match ends in a state that tells of them all, and
from there nothing longer is accepted. -/
theorem spelled_longest {state : Scan} {cs cs' piece rest : List Char} {kind : Lexeme.Kind}
    (h : state.Spelled cs) (hlongest : state.longest cs' = some (kind, piece, rest)) :
    ∃ last : Scan, last.Spelled (cs ++ piece) ∧ last.longest rest = some (kind, [], rest) := by
  induction cs' generalizing state cs piece with
  | nil =>
      obtain ⟨kind', -, heq⟩ := Option.map_eq_some_iff.mp hlongest
      cases heq
      exact ⟨state, by rwa [List.append_nil], hlongest⟩
  | cons c cs' ih =>
      have hstate := hlongest
      rw [longest] at hlongest
      split at hlongest
      · next hlater =>
          obtain ⟨next, hnext, hlater⟩ := Option.bind_eq_some_iff.mp hlater
          cases hlongest
          obtain ⟨last, hlast, hend⟩ := ih (spelled_step h hnext) hlater
          exact ⟨last, by rwa [List.append_assoc] at hlast, hend⟩
      · obtain ⟨kind', -, heq⟩ := Option.map_eq_some_iff.mp hlongest
        cases heq
        exact ⟨state, by rwa [List.append_nil], hstate⟩

theorem eq_of_accepts_blank {state : Scan} (h : state.accepts = some .blank) :
    state = .blank := by
  cases state <;> simp [accepts] at h
  rfl

theorem eq_of_accepts_newline {state : Scan} (h : state.accepts = some .newline) :
    state = .newline := by
  cases state <;> simp [accepts] at h
  rfl

theorem eq_of_accepts_comment {state : Scan} (h : state.accepts = some .comment) :
    state = .lineComment ∨ state = .blockEnd := by
  cases state <;> simp [accepts] at h
  · exact .inl rfl
  · exact .inr rfl

end Scan

/-! ## Lexemes of a kind -/

section NextLexeme

variable {c : Char} {cs rest : List Char} {l : Lexeme}

/-- The state a lexeme is read in tells of its text, and reads nothing more. -/
theorem exists_spelled_of_nextLexeme {kind : Lexeme.Kind} (h : nextLexeme c cs = (l, rest))
    (hkind : l.kind = kind) (hstray : kind ≠ .stray) (hkeyword : kind ≠ .keyword) :
    ∃ last : Scan, last.Spelled l.text.toList ∧ last.accepts = some kind
      ∧ ∀ c later, rest = c :: later → (last.step c).bind (Scan.longest · later) = none := by
  subst hkind
  rw [nextLexeme] at h
  split at h
  · next kind piece rest' hfound =>
      cases h
      obtain ⟨state, hstate, hfound⟩ := Option.bind_eq_some_iff.mp hfound
      obtain ⟨last, hlast, hend⟩ := Scan.spelled_longest (Scan.spelled_first hstate) hfound
      refine ⟨last, by rwa [Lexeme.text_make, String.toList_ofList], ?_⟩
      obtain ⟨haccepts, hnone⟩ := Scan.longest_eq_nil_iff.mp hend
      refine ⟨?_, hnone⟩
      rw [haccepts]
      rw [Lexeme.make] at hkeyword ⊢
      split at hkeyword
      · exact absurd rfl hkeyword
      · next hword => rw [if_neg hword]
  · cases h
    exact absurd rfl hstray

theorem nextLexeme_newline (cs : List Char) :
    nextLexeme '\n' cs = (.make .newline ['\n'], cs) := by
  have hfirst : Scan.first '\n' = some .newline := rfl
  rw [nextLexeme, hfirst, Option.bind_some]
  cases cs <;> rfl

theorem text_of_blank (h : nextLexeme c cs = (l, rest)) (hkind : l.kind = .blank) :
    ∀ c ∈ l.text.toList, Scan.isBlank c = true := by
  obtain ⟨last, hlast, haccepts, -⟩ :=
    exists_spelled_of_nextLexeme h hkind (by decide) (by decide)
  obtain rfl := Scan.eq_of_accepts_blank haccepts
  exact hlast

theorem text_of_newline (h : nextLexeme c cs = (l, rest)) (hkind : l.kind = .newline) :
    l.text.toList = ['\n'] := by
  obtain ⟨last, hlast, haccepts, -⟩ :=
    exists_spelled_of_nextLexeme h hkind (by decide) (by decide)
  obtain rfl := Scan.eq_of_accepts_newline haccepts
  exact hlast

/-- A comment is whole: nothing but a line end can stand behind a line comment, and a
block comment ends where it can. -/
theorem text_of_comment (h : nextLexeme c cs = (l, rest)) (hkind : l.kind = .comment) :
    (∃ body, l.text.toList = '/' :: '/' :: body ∧ '\n' ∉ body ∧ ∀ c ∈ rest.head?, c = '\n')
      ∨ ∃ body, l.text.toList = '/' :: '*' :: (body ++ ['*', '/'])
          ∧ NoCommentEnd (body ++ ['*']) := by
  obtain ⟨last, hlast, haccepts, hnone⟩ :=
    exists_spelled_of_nextLexeme h hkind (by decide) (by decide)
  rcases Scan.eq_of_accepts_comment haccepts with rfl | rfl
  · obtain ⟨body, hbody, hline⟩ := hlast
    refine .inl ⟨body, hbody, hline, fun c hc => ?_⟩
    obtain ⟨later, rfl⟩ := List.head?_eq_some_iff.mp hc
    by_contra hne
    -- any other character would have been read as part of the comment
    have hstep : Scan.step .lineComment c = some .lineComment := if_neg (by simpa using hne)
    have hlonger := hnone c later rfl
    rw [hstep, Option.bind_some] at hlonger
    cases Scan.accepts_of_longest_eq_none hlonger
  · exact .inr hlast

end NextLexeme

/-! ## Doc comments -/

/-- White space in which at most one line ends, so that none of its lines is empty. -/
structure Spacing (gap : List Lexeme) : Prop where
  white : ∀ l ∈ gap, l.kind = .blank ∨ l.kind = .newline
  rows : Lexeme.rowsOf gap ≤ 1

/-- Comments, each with spacing behind it. -/
inductive Lead : List Lexeme → Prop where
  | nil : Lead []
  | comment {l : Lexeme} {gap ls : List Lexeme} (hl : l.kind = .comment) (hgap : Spacing gap)
      (h : Lead ls) : Lead (l :: (gap ++ ls))

/-- The text of comments, each with white space behind it in which at most one line ends.
A line comment runs up to a line end, a block comment to the first `*/`. -/
inductive DocText : List Char → Prop where
  | nil : DocText []
  | line {body gap rest : List Char} (hbody : '\n' ∉ body)
      (hgap : ∀ c ∈ gap, Scan.isBlank c = true) (h : DocText rest) :
      DocText ('/' :: '/' :: body ++ ('\n' :: gap) ++ rest)
  | block {body gap rest : List Char} (hbody : NoCommentEnd (body ++ ['*']))
      (hgap : ∀ c ∈ gap, c = '\n' ∨ Scan.isBlank c = true) (hrows : gap.count '\n' ≤ 1)
      (h : DocText rest) : DocText ('/' :: '*' :: (body ++ ['*', '/']) ++ gap ++ rest)

theorem Lead.kind_of_mem_head? {ls : List Lexeme} (h : Lead ls) {l : Lexeme} (hl : l ∈ ls.head?) :
    l.kind = .comment := by
  cases h with
  | nil => cases hl
  | comment hkind => exact Option.some.inj hl ▸ hkind

/-- No line ends in front of a lead, nor of a token behind one. -/
theorem Lead.head_append {ls item : List Lexeme} (h : Lead ls)
    (hitem : ∃ l ∈ item.head?, l.kind ≠ .newline) :
    ∃ l ∈ (ls ++ item).head?, l.kind ≠ .newline := by
  rw [List.head?_append]
  cases hls : ls.head? with
  | none => exact hitem
  | some l => exact ⟨l, rfl, by rw [h.kind_of_mem_head? hls]; decide⟩

theorem Lexeme.count_spell (ls : List Lexeme) :
    (spell ls).toList.count '\n' = rowsOf ls := by
  induction ls with
  | nil => rfl
  | cons l ls ih => rw [spell_cons, String.toList_append, List.count_append, ih]; rfl

theorem Lexed.white_of_mem {cs : List Char} {gap ls : List Lexeme} (h : Lexed cs (gap ++ ls))
    (hgap : ∀ l ∈ gap, l.kind = .blank ∨ l.kind = .newline) {c : Char}
    (hc : c ∈ (Lexeme.spell gap).toList) : c = '\n' ∨ Scan.isBlank c = true := by
  induction gap generalizing cs with
  | nil => cases hc
  | cons g gap ih =>
      obtain ⟨hg, hgap⟩ := List.forall_mem_cons.mp hgap
      cases h with
      | cons hnext hs =>
          rw [Lexeme.spell_cons, String.toList_append, List.mem_append] at hc
          rcases hc with hc | hc
          · rcases hg with hblank | hnewline
            · exact .inr (text_of_blank hnext hblank c hc)
            · rw [text_of_newline hnext hnewline] at hc
              exact .inl (List.mem_singleton.mp hc)
          · exact ih hs hgap hc

theorem Lexed.kind_of_newline {cs : List Char} {l : Lexeme} {ls : List Lexeme}
    (h : Lexed cs (l :: ls)) (hcs : ∀ c ∈ cs.head?, c = '\n') : l.kind = .newline := by
  cases h with
  | cons hnext _ =>
      rw [hcs _ rfl, nextLexeme_newline] at hnext
      cases hnext
      rfl

/-- The spacing behind a line comment begins with the line end. -/
theorem Lexed.exists_newline {cs : List Char} {gap ls : List Lexeme} (h : Lexed cs (gap ++ ls))
    (hcs : ∀ c ∈ cs.head?, c = '\n') (hls : ∃ l ∈ ls.head?, l.kind ≠ .newline) :
    ∃ g gap', gap = g :: gap' ∧ g.kind = .newline := by
  cases gap with
  | nil =>
      obtain ⟨l, hl, hkind⟩ := hls
      obtain ⟨ls', rfl⟩ := List.head?_eq_some_iff.mp hl
      exact absurd (h.kind_of_newline hcs) hkind
  | cons g gap' => exact ⟨g, gap', rfl, h.kind_of_newline hcs⟩

theorem Lead.docText {lead : List Lexeme} (h : Lead lead) {cs : List Char} {item : List Lexeme}
    (hlexed : Lexed cs (lead ++ item)) (hitem : ∃ l ∈ item.head?, l.kind ≠ .newline) :
    DocText (Lexeme.spell lead).toList := by
  induction h generalizing cs with
  | nil => exact .nil
  | @comment l gap ls hl hgap hlead ih =>
      rw [List.cons_append, List.append_assoc] at hlexed
      cases hlexed with
      | @cons c cs rest _ _ hnext hs =>
          have hdoc : DocText (Lexeme.spell ls).toList := ih hs.right_of_append
          have hwhite : ∀ c ∈ (Lexeme.spell gap).toList, c = '\n' ∨ Scan.isBlank c = true :=
            fun c hc => hs.white_of_mem hgap.white hc
          have hrows : (Lexeme.spell gap).toList.count '\n' ≤ 1 := by
            rw [Lexeme.count_spell]
            exact hgap.rows
          rw [Lexeme.spell_cons, Lexeme.spell_append, String.toList_append,
            String.toList_append, ← List.append_assoc]
          rcases text_of_comment hnext hl with ⟨body, htext, hbody, hend⟩ | ⟨body, htext, hbody⟩
          · obtain ⟨g, gap', rfl, hg⟩ := hs.exists_newline hend (hlead.head_append hitem)
            have hnewline : g.text.toList = ['\n'] := by
              cases hs with
              | cons hnext' _ => exact text_of_newline hnext' hg
            have hgapText :
                (Lexeme.spell (g :: gap')).toList = '\n' :: (Lexeme.spell gap').toList := by
              rw [Lexeme.spell_cons, String.toList_append, hnewline, List.singleton_append]
            rw [hgapText] at hwhite hrows ⊢
            rw [List.count_cons_self] at hrows
            -- the line end of the comment is the one that its gap may have
            have hone : '\n' ∉ (Lexeme.spell gap').toList :=
              List.count_eq_zero.mp (by omega)
            rw [htext]
            refine .line hbody (fun c hc => ?_) hdoc
            rcases hwhite c (List.mem_cons_of_mem _ hc) with rfl | hblank
            · exact absurd hc hone
            · exact hblank
          · rw [htext]
            exact .block hbody hwhite hrows hdoc

end TestTriage.Go
