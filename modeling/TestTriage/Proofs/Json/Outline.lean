import TestTriage.Proofs.Json.Tokens

/-!
# Skipping values of any kind

The outline of a value: where its parts begin and end, whatever they are
(`Outline`). It is one family over what a text may be the outline of, a
value or what is left of a list or an object (`Part`), so that an induction
goes through both at once. Skipping follows an outline round by round with
the open lists and objects on its stack (`passed`), hence goes behind a value
whatever stands there (`skip_outline`). The other way round every run that
does not fail has an outline behind it (`exists_outline_of_skip`), where
`Within` says what the stack still asks of the text.

Therefore no text can be taken apart into outlines in two ways, and that is
what settles below which text a reader of some kind has read: a text that is
an outline is the one the skipper goes behind (`Outline.eq_of_append`).
-/

namespace TestTriage.Json

open Text (Bytes)

/-- The bracket that opens a list or an object. -/
def Frame.opening : Frame → UInt8
  | .list => code '['
  | .object => code '\x7b'

/-- What stands in front of a value: in an object its key and a colon. -/
inductive LabelText : Frame → Bytes → Prop where
  | list : LabelText .list []
  | object {k gap : Bytes} (hk : PiecesText k) (hgap : IsSpacing gap) :
      LabelText .object (code '"' :: k ++ code '"' :: gap ++ [code ':'])

/-- What a text may be the outline of: a value, or the items that are left of a
list or an object, with its closing bracket. -/
inductive Part where
  | value
  | row (frame : Frame) (first : Bool)

/-- The outline of a value or of what is left of one. -/
inductive Outline : Part → Bytes → Prop where
  | token {t : Bytes} (h : Token t) : Outline .value t
  | opened {frame : Frame} {r : Bytes} (h : Outline (.row frame true) r) :
      Outline .value (frame.opening :: r)
  | close {frame : Frame} {first : Bool} {gap : Bytes} (h : IsSpacing gap) :
      Outline (.row frame first) (gap ++ [frame.closing])
  | item {frame : Frame} {first : Bool} {l label before t r : Bytes} (hlead : Lead first l)
      (hlabel : LabelText frame label) (hbefore : IsSpacing before) (hvalue : Outline .value t)
      (hrest : Outline (.row frame false) r) :
      Outline (.row frame first) (l ++ label ++ before ++ t ++ r)

namespace Frame

theorem isSpace_opening (frame : Frame) : isSpace frame.opening = false := by cases frame <;> decide

theorem isSpace_closing (frame : Frame) : isSpace frame.closing = false := by cases frame <;> decide

theorem closing_eq (frame : Frame) :
    frame.closing = code ']' ∨ frame.closing = code '\x7d' := by
  cases frame <;> decide

theorem closing_ne_comma (frame : Frame) : frame.closing ≠ code ',' := by cases frame <;> decide

end Frame

/-- A value tells itself from white space and from what ends a list. -/
theorem Outline.begins {t : Bytes} (h : Outline .value t) :
    ∃ b bs, t = b :: bs ∧ isSpace b = false ∧ b ≠ code ']' := by
  cases h with
  | token h =>
      obtain ⟨b, bs, rfl, hspace, -, -, hclose⟩ := h.begins
      exact ⟨b, bs, rfl, hspace, hclose⟩
  | @opened frame => exact ⟨_, _, rfl, frame.isSpace_opening, by cases frame <;> decide⟩

theorem Outline.skipSpace {t : Bytes} (h : Outline .value t) (bs : Bytes) :
    skipSpace (t ++ bs) = t ++ bs := by
  obtain ⟨b, bs', rfl, hspace, -⟩ := h.begins
  exact skipSpace_cons hspace _

/-- What stands behind an item ends it. -/
theorem Outline.ends {frame : Frame} {r : Bytes} (h : Outline (.row frame false) r) (rest : Bytes) :
    Ends (r ++ rest) := by
  cases h with
  | close hgap =>
      rw [List.append_assoc]
      exact ends_closing hgap frame.closing_eq _
  | item hlead =>
      simp only [List.append_assoc]
      exact hlead.ends _

theorem Row.outline {α : Type} {closing : Char} {written : α → Bytes → Prop} {frame : Frame}
    (hclosing : code closing = frame.closing)
    (hitem : ∀ x t, written x t → ∃ label before v, LabelText frame label ∧ IsSpacing before
      ∧ Outline .value v ∧ t = label ++ before ++ v)
    {first : Bool} {xs : List α} {t : Bytes} (h : Row closing written first xs t) :
    Outline (.row frame first) t := by
  induction h with
  | close hgap =>
      rw [hclosing]
      exact .close hgap
  | item hlead hx _ ih =>
      obtain ⟨label, before, v, hlabel, hbefore, hv, rfl⟩ := hitem _ _ hx
      have h := Outline.item hlead hlabel hbefore hv ih
      simpa only [List.append_assoc] using h

/-! ## Rounds -/

section Rounds

variable {limit : Nat} {frame : Frame} {frames : List Frame} {b : UInt8} {bs gap rest : Bytes}

theorem skipWithin_done (limit : Nat) (bs : Bytes) : skipWithin limit true [] bs = .ok bs := by
  cases limit <;> rfl

theorem skipWithin_spacing (hgap : IsSpacing gap) (limit : Nat) (frames : List Frame) (bs : Bytes) :
    skipWithin (limit + 1) false frames (gap ++ bs) = skipWithin (limit + 1) false frames bs := by
  rw [skipWithin, skipWithin, skipSpace_spacing hgap]

theorem skipWithin_scalar (hspace : isSpace b = false) (hlist : b ≠ code '[')
    (hobject : b ≠ code '\x7b') :
    skipWithin (limit + 1) false frames (b :: bs)
      = (do skipWithin limit true frames (← skipScalar b bs)) := by
  rw [skipWithin, skipSpace_cons hspace]
  simp only [if_neg hlist, if_neg hobject, skipScalar,
    apply_ite fun x : Except Fault Bytes => x >>= skipWithin limit true frames]

/-- What is done behind an opening bracket. -/
theorem skipWithin_opening (limit : Nat) (frame : Frame) (frames : List Frame) (bs : Bytes) :
    skipWithin (limit + 1) false frames (frame.opening :: bs)
      = (match skipSpace bs with
        | [] => atEnd frame.unfinished
        | b :: behind =>
          if b = frame.closing then skipWithin limit true frames behind
          else do skipWithin limit false (frame :: frames) (← frame.toValue (b :: behind))) := by
  rw [skipWithin, skipSpace_cons frame.isSpace_opening]
  cases frame with
  | list => rfl
  | object => rfl

/-- Skipping what is left of a list or an object. While there is no item yet, the
opening bracket still has to be read. -/
def skipRow (limit : Nat) (frame : Frame) (frames : List Frame) :
    (first : Bool) → Bytes → Except Fault Bytes
  | true, bs => skipWithin limit false frames (frame.opening :: bs)
  | false, bs => skipWithin limit true (frame :: frames) bs

theorem skipRow_close (first : Bool) (hgap : IsSpacing gap) :
    skipRow (limit + 1) frame frames first (gap ++ frame.closing :: bs)
      = skipWithin limit true frames bs := by
  cases first with
  | true =>
      rw [skipRow, skipWithin_opening, skipSpace_spacing hgap, skipSpace_cons frame.isSpace_closing]
      exact if_pos rfl
  | false =>
      rw [skipRow, skipWithin, skipSpace_spacing hgap, skipSpace_cons frame.isSpace_closing]
      simp only [if_neg frame.closing_ne_comma, if_true]

theorem toValue_label {label : Bytes} (hlabel : LabelText frame label) (hgap : IsSpacing gap) :
    ∃ gap', IsSpacing gap' ∧ ∀ bs, frame.toValue (gap ++ (label ++ bs)) = .ok (gap' ++ bs) := by
  cases hlabel with
  | list => exact ⟨gap, hgap, fun bs => rfl⟩
  | @object k between hk hbetween =>
      refine ⟨[], isSpacing_nil, fun bs => ?_⟩
      have hlimit : k.length < (k ++ code '"' :: (between ++ code ':' :: bs)).length := by simp
      simp only [List.cons_append, List.append_assoc, List.nil_append]
      rw [Frame.toValue, skipSpace_spacing hgap, skipSpace_cons (by decide)]
      simp only [if_true, skipString_pieces hk hlimit, bind, Except.bind, colon_append hbetween]

theorem exists_of_toValue (h : frame.toValue bs = .ok rest) :
    ∃ gap label, IsSpacing gap ∧ LabelText frame label ∧ bs = gap ++ (label ++ rest) := by
  revert h
  fun_cases frame.toValue bs with
  | case1 =>
      rintro ⟨⟩
      exact ⟨[], [], isSpacing_nil, .list, rfl⟩
  | case3 behind hspace =>
      rw [bind_eq_ok]
      rintro ⟨after, hstring, hcolon⟩
      obtain ⟨gap, hgap, rfl⟩ := exists_spacing_cons hspace
      obtain ⟨k, hk, rfl⟩ := exists_pieces_of_skipString hstring
      obtain ⟨between, hbetween, rfl⟩ := exists_of_colon hcolon
      exact ⟨gap, _, hgap, .object hk hbetween, by simp⟩
  | case2 | case4 => rintro ⟨⟩

theorem skipRow_item {first : Bool} {l label before t : Bytes} (hlead : Lead first l)
    (hlabel : LabelText frame label) (hbefore : IsSpacing before) (ht : Outline .value t) :
    skipRow (limit + 2) frame frames first (l ++ (label ++ (before ++ (t ++ bs))))
      = skipWithin (limit + 1) false (frame :: frames) (t ++ bs) := by
  cases hlead with
  | comma hgap hbehind =>
      obtain ⟨gap', hgap', hvalue⟩ := toValue_label hlabel hbehind
      rw [skipRow, skipWithin, List.append_assoc, skipSpace_spacing hgap, List.cons_append,
        skipSpace_cons (by decide)]
      simp only [if_true, hvalue, bind, Except.bind]
      rw [skipWithin_spacing hgap', skipWithin_spacing hbefore]
  | first hgap =>
      rw [skipRow, skipWithin_opening, skipSpace_spacing hgap]
      cases hlabel with
      | list =>
          obtain ⟨b, t, rfl, hspace, hclose⟩ := ht.begins
          rw [List.nil_append, skipSpace_spacing hbefore, List.cons_append, skipSpace_cons hspace]
          exact if_neg hclose
      | object hk hbetween =>
          obtain ⟨gap', hgap', hvalue⟩ := toValue_label (.object hk hbetween) isSpacing_nil
          have hvalue := hvalue (before ++ (t ++ bs))
          simp only [List.cons_append, List.nil_append] at hvalue ⊢
          rw [skipSpace_cons (by decide)]
          simp only [Frame.closing, if_neg (show code '"' ≠ code '\x7d' by decide), hvalue, bind,
            Except.bind]
          rw [skipWithin_spacing hgap', skipWithin_spacing hbefore]

/-- What is left of a list or an object is its closing bracket, or what leads to a value. -/
theorem exists_of_skipRow {first : Bool}
    (h : skipRow (limit + 1) frame frames first bs = .ok rest) :
    (∃ gap behind, IsSpacing gap ∧ bs = gap ++ frame.closing :: behind
        ∧ skipWithin limit true frames behind = .ok rest)
      ∨ ∃ l label behind, Lead first l ∧ LabelText frame label ∧ bs = l ++ (label ++ behind)
          ∧ skipWithin limit false (frame :: frames) behind = .ok rest := by
  cases first with
  | true =>
      rw [skipRow, skipWithin_opening] at h
      split at h
      · cases h
      next b behind hspace =>
      obtain ⟨gap, hgap, rfl⟩ := exists_spacing_cons hspace
      split at h
      · next hclose => exact .inl ⟨gap, behind, hgap, by rw [hclose], h⟩
      · obtain ⟨after, hvalue, hskip⟩ := bind_eq_ok.mp h
        obtain ⟨gap', label, hgap', hlabel, hbehind⟩ := exists_of_toValue hvalue
        refine .inr ⟨gap ++ gap', label, after, ?_, hlabel, ?_, hskip⟩
        · exact .first (isSpacing_append.mpr ⟨hgap, hgap'⟩)
        · rw [hbehind, List.append_assoc]
  | false =>
      rw [skipRow, skipWithin] at h
      split at h
      · cases h
      next b behind hspace =>
      obtain ⟨gap, hgap, rfl⟩ := exists_spacing_cons hspace
      split at h
      · next hcomma =>
        obtain ⟨after, hvalue, hskip⟩ := bind_eq_ok.mp h
        obtain ⟨gap', label, hgap', hlabel, rfl⟩ := exists_of_toValue hvalue
        refine .inr ⟨gap ++ code ',' :: gap', label, after, .comma hgap hgap', hlabel, ?_, hskip⟩
        rw [hcomma, List.append_assoc, List.cons_append]
      split at h
      · next hclose => exact .inl ⟨gap, behind, hgap, by rw [hclose], h⟩
      · cases h

end Rounds

/-! ## Following outlines -/

/-- Skipping goes behind the text, in rounds that are not more than its bytes. -/
def Passed : Part → Bytes → Prop
  | .value, t => ∃ rounds < t.length, ∀ limit frames rest, (Numeral t → Ends rest) →
      skipWithin (limit + rounds + 1) false frames (t ++ rest) = skipWithin limit true frames rest
  | .row frame first, t => ∃ rounds < t.length + first.toNat, ∀ limit frames rest,
      skipRow (limit + rounds + 1) frame frames first (t ++ rest)
        = skipWithin limit true frames rest

theorem Lead.length_pos {first : Bool} {l : Bytes} (h : Lead first l) :
    0 < l.length + first.toNat := by
  cases h with
  | first => exact Nat.succ_pos _
  | comma =>
      rw [List.length_append, List.length_cons]
      omega

theorem passed {part : Part} {t : Bytes} (h : Outline part t) : Passed part t := by
  induction h with
  | token h =>
      obtain ⟨b, bs, rfl, hspace, hlist, hobject, -⟩ := h.begins
      refine ⟨0, Nat.succ_pos _, fun limit frames rest hrest => ?_⟩
      rw [List.cons_append, skipWithin_scalar hspace hlist hobject, h.skip hrest]
      rfl
  | opened _ ih =>
      obtain ⟨rounds, hlt, hskip⟩ := ih
      exact ⟨rounds, hlt, fun limit frames rest _ => hskip limit frames rest⟩
  | @close frame first gap hgap =>
      refine ⟨0, ?_, fun limit frames rest => ?_⟩
      · rw [List.length_append, List.length_singleton]
        omega
      · rw [List.append_assoc]
        exact skipRow_close first hgap
  | @item frame first l label before t r hlead hlabel hbefore ht hr iht ihr =>
      obtain ⟨rounds, hlt, hskip⟩ := iht
      obtain ⟨rounds', hlt', hskip'⟩ := ihr
      have hlead' := hlead.length_pos
      refine ⟨rounds + rounds' + 2, ?_, fun limit frames rest => ?_⟩
      · simp only [List.length_append, Bool.toNat_false] at hlt' ⊢
        omega
      have hends := hr.ends rest
      have hlimit : limit + (rounds + rounds' + 2) + 1 = limit + rounds' + 1 + rounds + 2 := by
        omega
      simp only [List.append_assoc]
      rw [hlimit, skipRow_item hlead hlabel hbefore ht, hskip _ _ _ fun _ => hends]
      exact hskip' limit frames rest

/-- Skipping goes behind a value, whatever stands there. -/
theorem skip_outline {gap t rest : Bytes} (hgap : IsSpacing gap) (h : Outline .value t)
    (hrest : Numeral t → Ends rest) : skip (gap ++ (t ++ rest)) = .ok rest := by
  obtain ⟨rounds, hlt, hskip⟩ := passed h
  obtain ⟨limit, hlimit⟩ : ∃ n, (gap ++ (t ++ rest)).length + 1 = n + rounds + 1 :=
    ⟨(gap ++ (t ++ rest)).length - rounds, by simp only [List.length_append]; omega⟩
  rw [skip, hlimit, skipWithin_spacing hgap, hskip _ _ _ hrest, skipWithin_done]

/-- No text is taken apart in two ways. -/
theorem Outline.eq_of_append {gap gap' t t' rest rest' : Bytes} (h : Outline .value t)
    (h' : Outline .value t') (hgap : IsSpacing gap) (hgap' : IsSpacing gap')
    (hrest : Numeral t → Ends rest) (hrest' : Numeral t' → Ends rest')
    (heq : gap ++ (t ++ rest) = gap' ++ (t' ++ rest')) : t = t' ∧ rest = rest' := by
  have hskip := skip_outline hgap h hrest
  rw [heq, skip_outline hgap' h' hrest', Except.ok.injEq] at hskip
  subst hskip
  have hspace := congrArg Json.skipSpace heq
  rw [skipSpace_spacing hgap, skipSpace_spacing hgap', h.skipSpace, h'.skipSpace] at hspace
  exact ⟨List.append_cancel_right hspace, rfl⟩

/-! ## What is skipped -/

/-- What the open lists and objects still ask of a text. -/
inductive Within : List Frame → Bytes → Prop where
  | nil : Within [] []
  | cons {frame : Frame} {frames : List Frame} {r s : Bytes} (hr : Outline (.row frame false) r)
      (hs : Within frames s) : Within (frame :: frames) (r ++ s)

/-- Runs of so many rounds that do not fail have outlines behind them. -/
structure Traced (limit : Nat) : Prop where
  done : ∀ {frames bs rest}, bs.length < limit → skipWithin limit true frames bs = .ok rest →
    ∃ s, Within frames s ∧ bs = s ++ rest
  value : ∀ {frames bs rest}, bs.length < limit → skipWithin limit false frames bs = .ok rest →
    ∃ gap t s, IsSpacing gap ∧ Outline .value t ∧ Within frames s ∧ bs = gap ++ (t ++ (s ++ rest))

section Traced

variable {limit : Nat} {frame : Frame} {frames : List Frame} {b : UInt8} {bs rest : Bytes}

/-- One round more is traced through what is left of a list or an object. -/
theorem Traced.row (h : Traced limit) (first : Bool)
    (hlimit : bs.length + first.toNat < limit + 1)
    (hrun : skipRow (limit + 1) frame frames first bs = .ok rest) :
    ∃ r s, Outline (.row frame first) r ∧ Within frames s ∧ bs = r ++ (s ++ rest) := by
  obtain ⟨gap, behind, hgap, rfl, hskip⟩ | ⟨l, label, behind, hlead, hlabel, rfl, hskip⟩ :=
    exists_of_skipRow hrun
  · simp only [List.length_append, List.length_cons] at hlimit
    obtain ⟨s, hs, rfl⟩ := h.done (by omega) hskip
    exact ⟨gap ++ [frame.closing], s, .close hgap, hs, by simp⟩
  · have hlead' := hlead.length_pos
    simp only [List.length_append] at hlimit
    obtain ⟨before, t, s, hbefore, ht, hs, rfl⟩ := h.value (by omega) hskip
    -- what the row itself still asks is the rest of it
    cases hs with
    | @cons _ _ r s hr hs => exact ⟨_, s, .item hlead hlabel hbefore ht hr, hs, by simp⟩

/-- One round more is traced through a value. -/
theorem Traced.begun (h : Traced limit) (hb : isSpace b = false)
    (hlimit : (b :: bs).length < limit + 1)
    (hrun : skipWithin (limit + 1) false frames (b :: bs) = .ok rest) :
    ∃ t s, Outline .value t ∧ Within frames s ∧ b :: bs = t ++ (s ++ rest) := by
  rw [List.length_cons] at hlimit
  have hopened : ∀ frame : Frame, b = frame.opening →
      ∃ t s, Outline .value t ∧ Within frames s ∧ b :: bs = t ++ (s ++ rest) := by
    rintro frame rfl
    obtain ⟨r, s, hr, hs, rfl⟩ := h.row true hlimit hrun
    exact ⟨_, s, .opened hr, hs, rfl⟩
  by_cases hlist : b = code '['
  · exact hopened .list hlist
  by_cases hobject : b = code '\x7b'
  · exact hopened .object hobject
  rw [skipWithin_scalar hb hlist hobject] at hrun
  obtain ⟨after, hscalar, hskip⟩ := bind_eq_ok.mp hrun
  obtain ⟨t, ht, rfl⟩ := exists_token_of_skipScalar hscalar
  rw [List.length_append] at hlimit
  obtain ⟨s, hs, rfl⟩ := h.done (by omega) hskip
  exact ⟨b :: t, s, .token ht, hs, rfl⟩

theorem traced (limit : Nat) : Traced limit := by
  induction limit with
  | zero => exact ⟨fun hlimit => absurd hlimit (Nat.not_lt_zero _),
      fun hlimit => absurd hlimit (Nat.not_lt_zero _)⟩
  | succ limit ih =>
      refine ⟨fun {frames bs rest} hlimit hskip => ?_, fun {frames bs rest} hlimit hskip => ?_⟩
      · cases frames with
        | nil =>
            cases hskip
            exact ⟨[], .nil, rfl⟩
        | cons frame frames =>
            obtain ⟨r, s, hr, hs, rfl⟩ := ih.row false hlimit hskip
            exact ⟨r ++ s, .cons hr hs, (List.append_assoc _ _ _).symm⟩
      · cases hspace : skipSpace bs with
        | nil =>
            rw [skipWithin, hspace] at hskip
            cases hskip
        | cons b behind =>
            obtain ⟨gap, hgap, rfl⟩ := exists_spacing_cons hspace
            rw [skipWithin_spacing hgap] at hskip
            rw [List.length_append] at hlimit
            obtain ⟨t, s, ht, hs, hbehind⟩ :=
              ih.begun (isSpace_of_skipSpace hspace) (by omega) hskip
            exact ⟨gap, t, s, hgap, ht, hs, congrArg (gap ++ ·) hbehind⟩

end Traced

theorem exists_outline_of_skip {bs rest : Bytes} (h : skip bs = .ok rest) :
    ∃ gap t, IsSpacing gap ∧ Outline .value t ∧ bs = gap ++ t ++ rest := by
  obtain ⟨gap, t, s, hgap, ht, hs, rfl⟩ := (traced _).value (Nat.lt_succ_self _) h
  cases hs
  exact ⟨gap, t, hgap, ht, by rw [List.nil_append, List.append_assoc]⟩

/-! ## Readers of one kind -/

/-- The reader reads the texts of one kind of value, and no others. -/
structure Exact {α : Type} (read : Read α) (written : α → Bytes → Prop) : Prop where
  spacing : ∀ {gap}, IsSpacing gap → ∀ bs, read (gap ++ bs) = read bs
  takes : ∀ {x t}, written x t → Takes read x t
  exists_text : ∀ {bs x rest}, read bs = .ok (x, rest) →
    ∃ gap t, IsSpacing gap ∧ written x t ∧ bs = gap ++ t ++ rest
  outline : ∀ {x t}, written x t → Outline .value t
  noNumeral : ∀ {x t}, written x t → ¬Numeral t

/-- A value is read just if its own text is one of the kind. -/
theorem Exact.read_eq_ok {α : Type} {read : Read α} {written : α → Bytes → Prop}
    (h : Exact read written) {gap t rest rest' : Bytes} {x : α} (ht : Outline .value t)
    (hgap : IsSpacing gap) (hrest : Ends rest) :
    read (gap ++ (t ++ rest)) = .ok (x, rest') ↔ written x t ∧ rest' = rest := by
  constructor
  · intro hread
    obtain ⟨gap', t', hgap', ht', heq⟩ := h.exists_text hread
    rw [List.append_assoc] at heq
    obtain ⟨rfl, rfl⟩ := ht.eq_of_append (h.outline ht') hgap hgap' (fun _ => hrest)
      (fun hnumeral => absurd hnumeral (h.noNumeral ht')) heq
    exact ⟨ht', rfl⟩
  · rintro ⟨hx, rfl⟩
    rw [h.spacing hgap]
    exact (h.takes hx).reads rest' hrest

/-- A text is written for one value only. -/
theorem Exact.inj {α : Type} {read : Read α} {written : α → Bytes → Prop}
    (h : Exact read written) {t : Bytes} {x y : α} (hx : written x t) (hy : written y t) :
    x = y := by
  have hread := (h.takes hx).reads [] ends_nil
  rw [(h.takes hy).reads [] ends_nil, Except.ok.injEq, Prod.mk.injEq] at hread
  exact hread.1.symm

theorem not_numeral {b : UInt8} {bs : Bytes} (hsign : b ≠ code '-') (hdigit : isDigit b = false) :
    ¬Numeral (b :: bs) := by
  intro h
  obtain ⟨b', bs', heq, hb⟩ := h.begins
  obtain ⟨rfl, -⟩ := List.cons.inj heq
  rcases hb with hb | hb
  · exact hsign hb
  · exact Bool.false_ne_true (hdigit.symm.trans hb)

/-- A value that is not of the expected type is never read. -/
theorem mismatch_ne_ok {α : Type} {expected : String} {bs rest : Bytes} {x : α} :
    mismatch expected bs ≠ .ok (x, rest) := by
  intro h
  rw [mismatch.eq_def] at h
  cases bs with
  | nil => cases h
  | cons b bs =>
      repeat' split at h
      -- words, numbers and strings are read before they are refused
      all_goals first
        | cases h
        | (obtain ⟨_, -, h⟩ := bind_eq_ok.mp h
           cases h)

theorem whole_eq_ok {α : Type} {read : Read α} {text : Bytes} {x : α} :
    whole read text = .ok x ↔ ∃ rest, read text = .ok (x, rest) ∧ IsSpacing rest := by
  rw [whole]
  cases hread : read text with
  | error fault => simp
  | ok result =>
      obtain ⟨y, behind⟩ := result
      simp only [Except.ok.injEq, Prod.mk.injEq]
      constructor
      · intro h
        split at h
        · next hspace =>
          cases h
          exact ⟨behind, ⟨rfl, rfl⟩, skipSpace_eq_nil.mp hspace⟩
        · cases h
      · rintro ⟨_, ⟨rfl, rfl⟩, hspacing⟩
        rw [skipSpace_eq_nil.mpr hspacing]

/-! ## Objects -/

/-- What stands behind a key: a colon and a value of any kind, of which this is the text. -/
inductive ColonText : Bytes → Bytes → Prop where
  | value {v gap before : Bytes} (hgap : IsSpacing gap) (hbefore : IsSpacing before)
      (hv : Outline .value v) : ColonText v (gap ++ code ':' :: (before ++ v))

/-- An object with white space around it; to each key belongs the text of its value. -/
inductive ObjectText : List (String × Bytes) → Bytes → Prop where
  | object {ms : List (String × Bytes)} {before r behind : Bytes} (hbefore : IsSpacing before)
      (hr : Row '\x7d' (Keyed ColonText) true ms r) (hbehind : IsSpacing behind) :
      ObjectText ms (before ++ code '\x7b' :: (r ++ behind))

end TestTriage.Json
