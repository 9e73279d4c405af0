import TestTriage.Json.Skip
import TestTriage.Proofs.Json.Rows

/-!
# Skipping values without parts

A word, a numeral or a string of which nothing is asked (`Token`). That its
escapes make characters is not asked either: a surrogate may stand alone.
Skipping goes behind a token whatever stands there (`Token.skip`), as long
as it does not carry a numeral on, and nothing but a token is skipped
(`exists_token_of_skipScalar`).
-/

namespace TestTriage.Json

open Text (Bytes)

/-- What may stand between the quotes of a string. -/
inductive PiecesText : Bytes → Prop where
  | nil : PiecesText []
  | plain {b : UInt8} {t : Bytes} (hb : IsPlain b) (h : PiecesText t) : PiecesText (b :: t)
  | letter {l c : Char} {t : Bytes} (hl : (l, c) ∈ escapeLetters) (h : PiecesText t) :
      PiecesText (code '\\' :: code l :: t)
  | byCode {n : Nat} {ds t : Bytes} (hds : HexText n ds) (h : PiecesText t) :
      PiecesText (code '\\' :: code 'u' :: (ds ++ t))

/-- The words that are values. -/
def words : List (List Char) :=
  [['n', 'u', 'l', 'l'], ['t', 'r', 'u', 'e'], ['f', 'a', 'l', 's', 'e']]

/-- A value without parts. -/
inductive Token : Bytes → Prop where
  | word {letters : List Char} (h : letters ∈ words) : Token (letters.map code)
  | numeral {t : Bytes} (h : Numeral t) : Token t
  | string {t : Bytes} (h : PiecesText t) : Token (code '"' :: t ++ [code '"'])

/-! ## Strings -/

theorem PiecesText.append {t t' : Bytes} (h : PiecesText t) (h' : PiecesText t') :
    PiecesText (t ++ t') := by
  induction h with
  | nil => exact h'
  | plain hb _ ih => exact .plain hb ih
  | letter hl _ ih => exact .letter hl ih
  | byCode hds _ ih =>
      rw [List.cons_append, List.cons_append, List.append_assoc]
      exact .byCode hds ih

theorem piecesText_of_plain {t : Bytes} (h : ∀ b ∈ t, IsPlain b) : PiecesText t := by
  induction t with
  | nil => exact .nil
  | cons b t ih =>
      obtain ⟨hb, ht⟩ := List.forall_mem_cons.mp h
      exact .plain hb (ih ht)

theorem CharText.piecesText {c : Char} {t : Bytes} (h : CharText c t) : PiecesText t := by
  cases h with
  | plain hcontrol hquote hbackslash =>
      exact piecesText_of_plain fun b hb =>
        isPlain_of_mem_utf8EncodeChar hcontrol hquote hbackslash hb
  | letter hl => exact .letter hl .nil
  | byCode hds =>
      have h := PiecesText.byCode hds .nil
      rwa [List.append_nil] at h
  | surrogates hhigh hlow =>
      have h := PiecesText.byCode hlow .nil
      rw [List.append_nil] at h
      exact .byCode hhigh h

theorem CharsText.piecesText {cs : List Char} {t : Bytes} (h : CharsText cs t) : PiecesText t := by
  induction h with
  | nil => exact .nil
  | cons hc _ ih => exact hc.piecesText.append ih

theorem StringText.token {s : String} {t : Bytes} (h : StringText s t) : Token t := by
  obtain ⟨h⟩ := h
  exact .string h.piecesText

theorem skipString_plain {b : UInt8} (hb : IsPlain b) (limit : Nat) (bs : Bytes) :
    skipString (limit + 1) (b :: bs) = skipString limit bs := by
  obtain ⟨hcontrol, hquote, hbackslash⟩ := hb
  rw [skipString.eq_def]
  cases bs <;> simp only [if_neg hquote, if_neg hbackslash, if_neg hcontrol]

theorem skipString_letter {l c : Char} (hl : (l, c) ∈ escapeLetters) (limit : Nat) (bs : Bytes) :
    skipString (limit + 1) (code '\\' :: code l :: bs) = skipString limit bs := by
  have hletter := shortEscape?_eq hl
  have hu : code l ≠ code 'u' := by
    intro hu
    have hnone : shortEscape? (code 'u') = none := by decide
    cases hnone.symm.trans (hu ▸ hletter)
  rw [skipString, if_neg (by decide), if_pos rfl, if_neg hu, hletter]
  rfl

theorem skipString_code {n : Nat} {ds : Bytes} (hds : HexText n ds) (limit : Nat) (bs : Bytes) :
    skipString (limit + 1) (code '\\' :: code 'u' :: (ds ++ bs)) = skipString limit bs := by
  rw [skipString, if_neg (by decide), if_pos rfl, if_pos rfl, hexFour_append hds]
  rfl

theorem skipString_pieces {t : Bytes} (h : PiecesText t) {limit : Nat} (hlimit : t.length < limit)
    (rest : Bytes) : skipString limit (t ++ code '"' :: rest) = .ok rest := by
  induction h generalizing limit with
  | nil =>
      obtain ⟨limit, rfl⟩ := Nat.exists_eq_add_of_lt hlimit
      cases rest <;> rfl
  | plain hb _ ih =>
      obtain ⟨limit, rfl⟩ : ∃ l, limit = l + 1 := ⟨limit - 1, by omega⟩
      rw [List.cons_append, skipString_plain hb, ih (Nat.lt_of_succ_lt_succ hlimit)]
  | letter hl _ ih =>
      obtain ⟨limit, rfl⟩ : ∃ l, limit = l + 1 := ⟨limit - 1, by omega⟩
      simp only [List.length_cons] at hlimit
      rw [List.cons_append, List.cons_append, skipString_letter hl, ih (by omega)]
  | byCode hds _ ih =>
      obtain ⟨limit, rfl⟩ : ∃ l, limit = l + 1 := ⟨limit - 1, by omega⟩
      simp only [List.length_cons, List.length_append] at hlimit
      rw [List.cons_append, List.cons_append, List.append_assoc, skipString_code hds,
        ih (by omega)]

theorem exists_pieces_of_skipString {limit : Nat} {bs rest : Bytes}
    (h : skipString limit bs = .ok rest) : ∃ t, PiecesText t ∧ bs = t ++ code '"' :: rest := by
  revert h
  fun_induction skipString limit bs with
  | case3 limit bs =>
      rintro ⟨⟩
      exact ⟨[], .nil, rfl⟩
  | case5 limit behind _ ih =>
      rw [bind_eq_ok]
      rintro ⟨⟨n, _⟩, hn, hskip⟩
      obtain ⟨ds, hds, rfl⟩ := exists_hexText_of_hexFour hn
      obtain ⟨t, ht, rfl⟩ := ih _ hskip
      exact ⟨_, .byCode hds ht, by simp⟩
  | case6 limit b behind _ hescape _ ih =>
      intro hskip
      obtain ⟨c, hc⟩ := Option.isSome_iff_exists.mp hescape
      obtain ⟨l, hl, rfl⟩ := exists_letter_of_shortEscape? hc
      obtain ⟨t, ht, rfl⟩ := ih hskip
      exact ⟨_, .letter hl ht, rfl⟩
  | case9 limit b bs hquote hbackslash hcontrol ih =>
      intro hskip
      obtain ⟨t, ht, rfl⟩ := ih hskip
      exact ⟨b :: t, .plain ⟨hcontrol, hquote, hbackslash⟩ ht, rfl⟩
  | _ => rintro ⟨⟩

/-! ## Numerals -/

section Numerals

variable {bs rest : Bytes}

theorem skipExponent_append {d : UInt8} {sign ds : Bytes} (hsign : SignText sign)
    (hds : AllDigits (d :: ds)) (hrest : NoDigit rest) :
    skipExponent (sign ++ (d :: ds ++ rest)) = .ok rest := by
  have hbehind : (ds ++ rest).dropWhile isDigit = rest := dropWhile_digits hds.tail hrest
  have hnoSign : ¬(d = code '+' ∨ d = code '-') := by
    have := isDigit_iff.mp hds.head
    simp only [eq_code_iff]
    simp
    omega
  cases hsign with
  | none =>
      simp only [skipExponent, List.nil_append, List.cons_append, if_neg hnoSign, if_pos hds.head,
        hbehind]
  | plus | minus =>
      simp only [skipExponent, List.nil_append, List.cons_append, true_or, or_true, if_true,
        if_pos hds.head, hbehind]

theorem exists_of_digits {b : UInt8} (hb : isDigit b = true) (bs : Bytes) :
    ∃ ds, AllDigits (b :: ds) ∧ b :: bs = b :: ds ++ bs.dropWhile isDigit := by
  refine ⟨bs.takeWhile isDigit, List.forall_mem_cons.mpr ⟨hb, ?_⟩, ?_⟩
  · exact List.all_eq_true.mp List.all_takeWhile
  · rw [List.cons_append, List.takeWhile_append_dropWhile]

theorem exists_of_skipExponent (h : skipExponent bs = .ok rest) :
    ∃ sign d ds, SignText sign ∧ AllDigits (d :: ds) ∧ bs = sign ++ (d :: ds ++ rest) := by
  have hdigits : ∀ (d : UInt8) (behind : Bytes),
      (if isDigit d then .ok (behind.dropWhile isDigit) else faultBefore .invalidNumber behind)
        = Except.ok rest → ∃ ds, AllDigits (d :: ds) ∧ d :: behind = d :: ds ++ rest := by
    intro d behind h
    split at h
    · next hd =>
      cases h
      exact exists_of_digits hd behind
    · cases h
  rw [skipExponent.eq_def] at h
  cases bs with
  | nil => cases h
  | cons b bs =>
      by_cases hsign : b = code '+' ∨ b = code '-'
      · simp only [if_pos hsign] at h
        cases bs with
        | nil => cases h
        | cons d behind =>
            obtain ⟨ds, hds, hbs⟩ := hdigits d behind h
            rw [hbs]
            rcases hsign with rfl | rfl
            · exact ⟨[code '+'], d, ds, .plus, hds, rfl⟩
            · exact ⟨[code '-'], d, ds, .minus, hds, rfl⟩
      · simp only [if_neg hsign] at h
        obtain ⟨ds, hds, hbs⟩ := hdigits b bs h
        exact ⟨[], b, ds, .none, hds, hbs⟩

theorem skipExponent?_append {e : Bytes} (he : ExponentText e) (hrest : Ends rest) :
    skipExponent? (e ++ rest) = .ok rest := by
  cases he with
  | none =>
      cases rest with
      | nil => rfl
      | cons b bs =>
          obtain ⟨-, hsmall, hcapital⟩ := hrest.ne_code
          simp only [skipExponent?, List.nil_append, hsmall, hcapital, or_self, if_false]
  | digits hletter hsign hds =>
      simp only [skipExponent?, List.cons_append, List.append_assoc, if_pos hletter]
      exact skipExponent_append hsign hds hrest.noDigit

theorem exists_of_skipExponent? (h : skipExponent? bs = .ok rest) :
    ∃ e, ExponentText e ∧ bs = e ++ rest := by
  revert h
  fun_cases skipExponent? bs with
  | case1 b behind hletter =>
      intro h
      obtain ⟨sign, d, ds, hsign, hds, rfl⟩ := exists_of_skipExponent h
      exact ⟨_, .digits hletter hsign hds, by simp⟩
  | case2 | case3 =>
      rintro ⟨⟩
      exact ⟨[], .none, rfl⟩

theorem skipFraction_of_ne {b : UInt8} (hb : b ≠ code '.') (bs : Bytes) :
    skipFraction (b :: bs) = skipExponent? (b :: bs) := by
  rw [skipFraction.eq_def]
  exact if_neg hb

theorem skipFraction_append {f e : Bytes} (hf : FractionText f) (he : ExponentText e)
    (hrest : Ends rest) : skipFraction (f ++ (e ++ rest)) = .ok rest := by
  cases hf with
  | none =>
      have hexponent := skipExponent?_append he hrest
      rw [List.nil_append]
      cases he with
      | none =>
          cases rest with
          | nil => rfl
          | cons b bs => exact (skipFraction_of_ne hrest.ne_code.1 bs).trans hexponent
      | digits hletter =>
          have hpoint : ∀ l, l = code 'e' ∨ l = code 'E' → l ≠ code '.' := by
            rintro _ (rfl | rfl) <;> decide
          exact (skipFraction_of_ne (hpoint _ hletter) _).trans hexponent
  | digits hds =>
      simp only [skipFraction, List.cons_append, if_true, if_pos hds.head,
        dropWhile_digits hds.tail (noDigit_exponent he hrest)]
      exact skipExponent?_append he hrest

theorem exists_of_skipFraction (h : skipFraction bs = .ok rest) :
    ∃ f e, FractionText f ∧ ExponentText e ∧ bs = f ++ (e ++ rest) := by
  revert h
  fun_cases skipFraction bs with
  | case2 d behind hd =>
      intro h
      obtain ⟨ds, hds, hdigits⟩ := exists_of_digits hd behind
      obtain ⟨e, he, hbehind⟩ := exists_of_skipExponent? h
      rw [hbehind] at hdigits
      exact ⟨code '.' :: d :: ds, e, .digits hds, he, congrArg (code '.' :: ·) hdigits⟩
  | case4 b behind =>
      intro h
      obtain ⟨e, he, hbs⟩ := exists_of_skipExponent? h
      exact ⟨[], e, .none, he, hbs⟩
  | case5 =>
      rintro ⟨⟩
      exact ⟨[], [], .none, .none, rfl⟩
  | case1 | case3 => rintro ⟨⟩

theorem skipNumber_append {i f e : Bytes} (hi : IntegerText i) (hf : FractionText f)
    (he : ExponentText e) (hrest : Ends rest) :
    skipNumber (i ++ (f ++ (e ++ rest))) = .ok rest := by
  have hnext := noDigit_fraction hf he hrest
  have hfraction := skipFraction_append hf he hrest
  cases hi with
  | zero =>
      rw [List.singleton_append]
      cases hbehind : f ++ (e ++ rest) with
      | nil =>
          rw [hbehind] at hfraction
          exact hfraction
      | cons b bs =>
          rw [hbehind] at hfraction hnext
          simp only [skipNumber, if_true, noDigit_cons.mp hnext, Bool.false_eq_true, if_false]
          exact hfraction
  | digits hd hzero hds =>
      simp only [skipNumber, List.cons_append, if_neg hzero, if_pos hd, dropWhile_digits hds hnext]
      exact hfraction

theorem exists_of_skipNumber (h : skipNumber bs = .ok rest) :
    ∃ i f e, IntegerText i ∧ FractionText f ∧ ExponentText e ∧ bs = i ++ (f ++ (e ++ rest)) := by
  revert h
  fun_cases skipNumber bs with
  | case3 b behind =>
      intro h
      obtain ⟨f, e, hf, he, hbehind⟩ := exists_of_skipFraction h
      exact ⟨[code '0'], f, e, .zero, hf, he, congrArg (code '0' :: ·) hbehind⟩
  | case4 =>
      rintro ⟨⟩
      exact ⟨[code '0'], [], [], .zero, .none, .none, rfl⟩
  | case5 d behind hzero hd =>
      intro h
      obtain ⟨ds, hds, hdigits⟩ := exists_of_digits hd behind
      obtain ⟨f, e, hf, he, hbehind⟩ := exists_of_skipFraction h
      exact ⟨d :: ds, f, e, .digits hd hzero hds.tail, hf, he, hbehind ▸ hdigits⟩
  | case1 | case2 | case6 => rintro ⟨⟩

end Numerals

/-! ## Tokens -/

theorem word_append (letters : List Char) (rest : Bytes) :
    word letters (letters.map code ++ rest) = .ok rest := by
  induction letters with
  | nil => rfl
  | cons c cs ih => rw [List.map_cons, List.cons_append, word, if_pos rfl, ih]

theorem eq_of_word {letters : List Char} {bs rest : Bytes} (h : word letters bs = .ok rest) :
    bs = letters.map code ++ rest := by
  induction letters generalizing bs with
  | nil => cases h; rfl
  | cons c cs ih =>
      cases bs with
      | nil => cases h
      | cons b bs =>
          rw [word] at h
          split at h
          · next hb => rw [ih h, hb]; rfl
          · cases h

/-- The bytes behind a token, of which the first byte has been read. -/
def skipScalar (b : UInt8) (rest : Bytes) : Except Fault Bytes :=
  if b = code 'n' then word ['u', 'l', 'l'] rest
  else if b = code 't' then word ['r', 'u', 'e'] rest
  else if b = code 'f' then word ['a', 'l', 's', 'e'] rest
  else if b = code '-' then skipNumber rest
  else if isDigit b then skipNumber (b :: rest)
  else if b = code '"' then skipString rest.length rest
  else faultBefore .expectedValue rest

theorem skipScalar_digit {b : UInt8} (hb : isDigit b = true) (rest : Bytes) :
    skipScalar b rest = skipNumber (b :: rest) := by
  have hrange := isDigit_iff.mp hb
  have hother : b ≠ code 'n' ∧ b ≠ code 't' ∧ b ≠ code 'f' ∧ b ≠ code '-' := by
    simp only [eq_code_iff, Ne]
    simp
    omega
  obtain ⟨hn, ht, hf, hsign⟩ := hother
  rw [skipScalar, if_neg hn, if_neg ht, if_neg hf, if_neg hsign, if_pos hb]

/-- A token tells itself from white space, from lists and objects and from what ends them. -/
theorem Token.begins {t : Bytes} (h : Token t) :
    ∃ b bs, t = b :: bs ∧ isSpace b = false ∧ b ≠ code '[' ∧ b ≠ code '\x7b' ∧ b ≠ code ']' := by
  cases h with
  | word h =>
      simp only [words, List.mem_cons, List.not_mem_nil, or_false] at h
      rcases h with rfl | rfl | rfl <;> exact ⟨_, _, rfl, by decide⟩
  | numeral h =>
      obtain ⟨b, bs, rfl, hb⟩ := h.begins
      refine ⟨b, bs, rfl, ?_⟩
      rw [← Bool.not_eq_true, isSpace_iff]
      simp only [isDigit_iff, eq_code_iff, Ne] at hb ⊢
      simp at hb ⊢
      omega
  | string => exact ⟨_, _, rfl, by decide⟩

/-- A token is skipped, whatever stands behind it. -/
theorem Token.skip {b : UInt8} {t rest : Bytes} (h : Token (b :: t))
    (hrest : Numeral (b :: t) → Ends rest) : skipScalar b (t ++ rest) = .ok rest := by
  generalize ht : b :: t = t' at h hrest
  cases h with
  | word h =>
      simp only [words, List.mem_cons, List.not_mem_nil, or_false] at h
      rcases h with rfl | rfl | rfl <;> cases ht <;> exact word_append _ rest
  | numeral h =>
      have hends := hrest h
      cases h with
      | negative hi hf he =>
          rw [List.cons_append, List.cons_append] at ht
          obtain ⟨rfl, rfl⟩ := List.cons.inj ht
          rw [List.append_assoc, List.append_assoc]
          exact skipNumber_append hi hf he hends
      | positive hi hf he =>
          have hskip := skipNumber_append hi hf he hends
          obtain ⟨d, ds, rfl, hd⟩ := hi.begins
          rw [List.cons_append, List.cons_append] at ht
          obtain ⟨rfl, rfl⟩ := List.cons.inj ht
          rw [skipScalar_digit hd]
          simpa only [List.append_assoc, List.cons_append] using hskip
  | @string t' h =>
      rw [List.cons_append] at ht
      obtain ⟨rfl, rfl⟩ := List.cons.inj ht
      have hlimit : t'.length < (t' ++ code '"' :: rest).length := by simp
      rw [List.append_assoc, List.singleton_append]
      exact skipString_pieces h hlimit rest

/-- Nothing but a token is skipped. -/
theorem exists_token_of_skipScalar {b : UInt8} {bs rest : Bytes}
    (h : skipScalar b bs = .ok rest) : ∃ t, Token (b :: t) ∧ bs = t ++ rest := by
  have hword : ∀ (c : Char) (cs : List Char), c :: cs ∈ words → b = code c →
      word cs bs = .ok rest → ∃ t, Token (b :: t) ∧ bs = t ++ rest := by
    rintro c cs hmem rfl h
    exact ⟨_, .word hmem, eq_of_word h⟩
  rw [skipScalar] at h
  split at h
  · next hb => exact hword 'n' _ (by decide) hb h
  split at h
  · next hb => exact hword 't' _ (by decide) hb h
  split at h
  · next hb => exact hword 'f' _ (by decide) hb h
  split at h
  · next hsign =>
    obtain ⟨i, f, e, hi, hf, he, rfl⟩ := exists_of_skipNumber h
    exact ⟨i ++ f ++ e, hsign ▸ .numeral (.negative hi hf he), by simp⟩
  split at h
  · obtain ⟨i, f, e, hi, hf, he, hbs⟩ := exists_of_skipNumber h
    obtain ⟨d, ds, rfl, hd⟩ := hi.begins
    obtain ⟨rfl, rfl⟩ := List.cons.inj hbs
    exact ⟨ds ++ f ++ e, .numeral (.positive hi hf he), by simp⟩
  split at h
  · next hquote =>
    obtain ⟨t, ht, rfl⟩ := exists_pieces_of_skipString h
    exact ⟨t ++ [code '"'], hquote ▸ .string ht, by simp⟩
  · cases h

end TestTriage.Json
