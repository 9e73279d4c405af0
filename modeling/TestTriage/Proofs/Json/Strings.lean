import TestTriage.Proofs.Failing
import TestTriage.Proofs.Json.Grammar
import TestTriage.Proofs.Text.Decoding

/-!
# Strings are read whole

However the characters of a string are written, each for itself, with its
letter or with its code, the reader decodes them to the same bytes, and
these bytes are UTF-8 of the string (`string_append`). The other way round
the bytes that are read spell a text byte by byte (`Spells`). Since no
character begins with a byte that goes on with one, an escape cannot stand
within a character, and so nothing but a string is read as one
(`exists_of_string`).
-/

namespace TestTriage.Json

open Text (Bytes encode)

/-! ## Escapes -/

theorem hexValue?_eq {b : UInt8} {v : Nat} (h : IsHexDigit b v) : hexValue? b = some v := by
  obtain ⟨hv, rfl | rfl⟩ := h <;> revert v <;> decide

theorem hexFour_append {n : Nat} {ds : Bytes} (h : HexText n ds) (rest : Bytes) :
    hexFour (ds ++ rest) = .ok (n, rest) := by
  obtain ⟨ha, hb, hc, hd⟩ := h
  simp [hexFour, hexValue?_eq ha, hexValue?_eq hb, hexValue?_eq hc, hexValue?_eq hd]

theorem shortEscape?_eq {l c : Char} (h : (l, c) ∈ escapeLetters) :
    shortEscape? (code l) = some c := by
  revert h
  simp only [escapeLetters, List.mem_cons, Prod.mk.injEq, List.not_mem_nil, or_false]
  rintro (⟨rfl, rfl⟩ | ⟨rfl, rfl⟩ | ⟨rfl, rfl⟩ | ⟨rfl, rfl⟩ | ⟨rfl, rfl⟩ | ⟨rfl, rfl⟩ | ⟨rfl, rfl⟩
    | ⟨rfl, rfl⟩) <;> decide

theorem escape_code (bs : Bytes) : escape (code 'u' :: bs) = unicodeEscape bs := rfl

/-- No character has the code of a surrogate. -/
theorem not_surrogate (c : Char) : ¬(0xd800 ≤ c.toNat ∧ c.toNat ≤ 0xdfff) := by
  have : c.toNat < 0xd800 ∨ 0xdfff < c.toNat ∧ c.toNat < 0x110000 := c.valid
  omega

theorem unicodeEscape_append {c : Char} {ds : Bytes} (h : HexText c.toNat ds) (rest : Bytes) :
    unicodeEscape (ds ++ rest) = .ok (c, rest) := by
  have hc := not_surrogate c
  have hlow : ¬(0xdc00 ≤ c.toNat ∧ c.toNat ≤ 0xdfff) := by omega
  have hhigh : ¬(0xd800 ≤ c.toNat ∧ c.toNat ≤ 0xdbff) := by omega
  simp only [unicodeEscape, hexFour_append h, bind, Except.bind, if_neg hlow, if_neg hhigh,
    Char.ofNat_toNat]
  rfl

/-- Two surrogates make one character. -/
theorem unicodeEscape_surrogates {c : Char} {high low : Nat} {ds es : Bytes}
    (hds : HexText (0xd800 + high) ds) (hes : HexText (0xdc00 + low) es) (hlt : low < 0x400)
    (hc : c.toNat = 0x10000 + high * 0x400 + low) (rest : Bytes) :
    unicodeEscape (ds ++ (code '\\' :: code 'u' :: (es ++ rest))) = .ok (c, rest) := by
  have hvalid := Text.toNat_lt_of_char c
  have hnotLow : ¬(0xdc00 ≤ 0xd800 + high ∧ 0xd800 + high ≤ 0xdfff) := by omega
  have hhigh : 0xd800 ≤ 0xd800 + high ∧ 0xd800 + high ≤ 0xdbff := by omega
  have hlow : 0xdc00 ≤ 0xdc00 + low ∧ 0xdc00 + low ≤ 0xdfff := by omega
  have hchar : Char.ofNat (0x10000 + (0xd800 + high - 0xd800) * 0x400 + (0xdc00 + low - 0xdc00))
      = c := by
    rw [Nat.add_sub_cancel_left, Nat.add_sub_cancel_left, ← hc, Char.ofNat_toNat]
  simp only [unicodeEscape, hexFour_append hds, bind, Except.bind, if_neg hnotLow, if_pos hhigh,
    lowSurrogate, hexFour_append hes, if_pos hlow, hchar]
  rfl

/-- A character is written for itself, or else as an escape. -/
theorem CharText.eq_plain_or_escape {c : Char} {t : Bytes} (h : CharText c t) :
    (t = String.utf8EncodeChar c ∧ ' ' ≤ c ∧ c ≠ '"' ∧ c ≠ '\\')
      ∨ ∃ e, t = code '\\' :: e ∧ ∀ rest, escape (e ++ rest) = .ok (c, rest) := by
  cases h with
  | plain hcontrol hquote hbackslash => exact .inl ⟨rfl, hcontrol, hquote, hbackslash⟩
  | letter h => exact .inr ⟨_, rfl, fun rest => by simp [escape, shortEscape?_eq h]⟩
  | byCode h => exact .inr ⟨_, rfl, fun rest => unicodeEscape_append h rest⟩
  | surrogates hhigh hlow hlt hc =>
      refine .inr ⟨_, rfl, fun rest => ?_⟩
      have := unicodeEscape_surrogates hhigh hlow hlt hc rest
      simpa [escape_code] using this

/-! ## The bytes of a string -/

variable {limit : Nat} {rest others behind : Bytes}

theorem stringBytes_plain {t : Bytes} (ht : ∀ b ∈ t, IsPlain b)
    (h : stringBytes limit rest = .ok (others, behind)) :
    stringBytes (limit + t.length) (t ++ rest) = .ok (t ++ others, behind) := by
  induction t with
  | nil => exact h
  | cons b t ih =>
      obtain ⟨hcontrol, hquote, hbackslash⟩ := ht b List.mem_cons_self
      have ih := ih fun b hb => ht b (List.mem_cons_of_mem _ hb)
      rw [List.length_cons, ← Nat.add_assoc, List.cons_append, stringBytes, if_neg hquote,
        if_neg hbackslash, if_neg hcontrol, ih]
      rfl

theorem stringBytes_escape {c : Char} {e : Bytes} (he : escape (e ++ rest) = .ok (c, rest))
    (h : stringBytes limit rest = .ok (others, behind)) :
    stringBytes (limit + 1) (code '\\' :: e ++ rest)
      = .ok (String.utf8EncodeChar c ++ others, behind) := by
  rw [List.cons_append, stringBytes, if_neg (by decide), if_pos rfl, he]
  simp only [bind, Except.bind, h]
  rfl

/-- A character takes at most as many rounds as it has bytes. -/
theorem stringBytes_char {c : Char} {t : Bytes} (hc : CharText c t) :
    ∃ rounds ≤ t.length, ∀ {limit rest others behind},
      stringBytes limit rest = .ok (others, behind) →
        stringBytes (limit + rounds) (t ++ rest)
          = .ok (String.utf8EncodeChar c ++ others, behind) := by
  obtain ⟨rfl, hcontrol, hquote, hbackslash⟩ | ⟨e, rfl, he⟩ := hc.eq_plain_or_escape
  · exact ⟨_, Nat.le_refl _, stringBytes_plain fun b hb =>
      isPlain_of_mem_utf8EncodeChar hcontrol hquote hbackslash hb⟩
  · exact ⟨1, Nat.succ_le_succ (Nat.zero_le _), stringBytes_escape (he _)⟩

theorem stringBytes_chars {cs : List Char} {t : Bytes} (h : CharsText cs t)
    (hlimit : t.length < limit) (rest : Bytes) :
    stringBytes limit (t ++ code '"' :: rest) = .ok (encode cs, rest) := by
  induction h generalizing limit with
  | nil =>
      obtain ⟨limit, rfl⟩ := Nat.exists_eq_add_of_lt hlimit
      simp [stringBytes]
  | @cons c cs t ts hc hcs ih =>
      obtain ⟨rounds, hle, hstep⟩ := stringBytes_char hc
      rw [List.length_append] at hlimit
      have hothers := hstep (@ih (limit - rounds) (by omega))
      rw [Nat.sub_add_cancel (by omega)] at hothers
      rw [List.append_assoc, hothers, Text.encode_cons]

/-- A string is read up to its closing quote. -/
theorem string_append {s : String} {t : Bytes} (h : CharsText s.toList t) (rest : Bytes) :
    string (t ++ code '"' :: rest) = .ok (s, rest) := by
  have hlimit : t.length < (t ++ code '"' :: rest).length := by simp
  simp only [string, stringBytes_chars h hlimit, bind, Except.bind, Text.decode_encode,
    String.ofList_toList]
  rfl

/-! ## What escapes are read from -/

theorem isHexDigit_of_hexValue? {b : UInt8} {v : Nat} (h : hexValue? b = some v) :
    IsHexDigit b v := by
  have hdigit : ∀ v < 10, UInt8.ofNat (v + 48) = code (Nat.digitChar v) := by decide
  have hsmall : ∀ v < 16, 10 ≤ v → UInt8.ofNat (v + 87) = code (Nat.digitChar v) := by decide
  have hcapital : ∀ v < 16, 10 ≤ v → UInt8.ofNat (v + 55) = code (Nat.digitChar v).toUpper := by
    decide
  have hbyte : ∀ {n : Nat}, b.toNat = n → b = UInt8.ofNat n := by
    rintro _ rfl
    exact UInt8.ofNat_toNat.symm
  revert h
  fun_cases hexValue? b with
  | case1 h =>
      rintro ⟨⟩
      have hrange := isDigit_iff.mp h
      have hvalue : b.toNat = digitValue b + 48 := (Nat.sub_add_cancel hrange.1).symm
      exact ⟨by omega, .inl ((hbyte hvalue).trans (hdigit _ (by omega)))⟩
  | case2 _ h =>
      rintro ⟨⟩
      have hmin : 97 ≤ b.toNat := UInt8.le_iff_toNat_le.mp h.1
      have hmax : b.toNat ≤ 102 := UInt8.le_iff_toNat_le.mp h.2
      have hvalue : b.toNat = b.toNat - 'a'.toNat + 10 + 87 := by
        rw [show 'a'.toNat = 97 from rfl]
        omega
      exact ⟨by omega, .inl ((hbyte hvalue).trans (hsmall _ (by omega) (by omega)))⟩
  | case3 _ _ h =>
      rintro ⟨⟩
      have hmin : 65 ≤ b.toNat := UInt8.le_iff_toNat_le.mp h.1
      have hmax : b.toNat ≤ 70 := UInt8.le_iff_toNat_le.mp h.2
      have hvalue : b.toNat = b.toNat - 'A'.toNat + 10 + 55 := by
        rw [show 'A'.toNat = 65 from rfl]
        omega
      exact ⟨by omega, .inr ((hbyte hvalue).trans (hcapital _ (by omega) (by omega)))⟩
  | case4 => rintro ⟨⟩

theorem exists_hexText_of_hexFour {bs rest : Bytes} {n : Nat} (h : hexFour bs = .ok (n, rest)) :
    ∃ ds, HexText n ds ∧ bs = ds ++ rest := by
  revert h
  fun_cases hexFour bs with
  | case1 a b c d rest digits n hdigits =>
      rintro ⟨⟩
      obtain ⟨w, ha, hdigits⟩ := Option.bind_eq_some_iff.mp hdigits
      obtain ⟨x, hb, hdigits⟩ := Option.bind_eq_some_iff.mp hdigits
      obtain ⟨y, hc, hdigits⟩ := Option.bind_eq_some_iff.mp hdigits
      obtain ⟨z, hd, ⟨⟩⟩ := Option.bind_eq_some_iff.mp hdigits
      exact ⟨[a, b, c, d], .digits (isHexDigit_of_hexValue? ha) (isHexDigit_of_hexValue? hb)
        (isHexDigit_of_hexValue? hc) (isHexDigit_of_hexValue? hd), rfl⟩
  | case2 | case3 => rintro ⟨⟩

theorem HexText.lt {n : Nat} {ds : Bytes} (h : HexText n ds) : n < 0x10000 := by
  obtain ⟨ha, hb, hc, hd⟩ := h
  have := ha.1
  have := hb.1
  have := hc.1
  have := hd.1
  omega

theorem exists_letter_of_shortEscape? {b : UInt8} {c : Char} (h : shortEscape? b = some c) :
    ∃ l, (l, c) ∈ escapeLetters ∧ b = code l := by
  revert h
  fun_cases shortEscape? b with
  | case9 => rintro ⟨⟩
  | _ =>
      rintro ⟨⟩
      refine ⟨_, ?_, by assumption⟩
      decide

theorem toNat_charOfNat {n : Nat} (h : n.isValidChar) : (Char.ofNat n).toNat = n := by
  rw [Char.ofNat, dif_pos h]
  rfl

theorem exists_hexText_of_lowSurrogate {bs rest : Bytes} {high : Nat} {c : Char}
    (h : lowSurrogate high bs = .ok (c, rest)) :
    ∃ low es, HexText (0xdc00 + low) es ∧ low < 0x400
      ∧ c = Char.ofNat (0x10000 + (high - 0xd800) * 0x400 + low)
      ∧ bs = code '\\' :: code 'u' :: es ++ rest := by
  revert h
  fun_cases lowSurrogate high bs with
  | case5 b hbackslash u behind hu =>
      rw [bind_eq_ok]
      rintro ⟨⟨n, _⟩, hn, h⟩
      obtain ⟨es, hes, rfl⟩ := exists_hexText_of_hexFour hn
      obtain rfl := Decidable.not_not.mp hbackslash
      obtain rfl := Decidable.not_not.mp hu
      dsimp only at h
      split at h
      · next hlow =>
        obtain ⟨low, rfl⟩ := Nat.exists_eq_add_of_le hlow.1
        rw [Nat.add_sub_cancel_left] at h
        obtain ⟨rfl, rfl⟩ := Prod.mk.inj (Except.ok.inj h)
        exact ⟨low, es, hes, by omega, rfl, rfl⟩
      · cases h
  | case1 | case2 | case3 | case4 => rintro ⟨⟩

/-- What is read as the code of a character is one, or two surrogates. -/
theorem exists_of_unicodeEscape {bs rest : Bytes} {c : Char}
    (h : unicodeEscape bs = .ok (c, rest)) :
    ∃ e, CharText c (code '\\' :: code 'u' :: e) ∧ bs = e ++ rest := by
  rw [unicodeEscape, bind_eq_ok] at h
  obtain ⟨⟨n, behind⟩, hn, h⟩ := h
  obtain ⟨ds, hds, rfl⟩ := exists_hexText_of_hexFour hn
  have hlt := hds.lt
  dsimp only at h
  split at h
  · cases h
  split at h
  · next hhigh =>
    obtain ⟨low, es, hes, hlow, rfl, rfl⟩ := exists_hexText_of_lowSurrogate h
    obtain ⟨high, rfl⟩ := Nat.exists_eq_add_of_le hhigh.1
    refine ⟨ds ++ code '\\' :: code 'u' :: es, .surrogates hds hes hlow ?_, by simp⟩
    rw [Nat.add_sub_cancel_left, toNat_charOfNat (by rw [Nat.isValidChar]; omega)]
  · cases h
    refine ⟨ds, .byCode ?_, rfl⟩
    rwa [toNat_charOfNat (by rw [Nat.isValidChar]; omega)]

theorem exists_of_escape {bs rest : Bytes} {c : Char} (h : escape bs = .ok (c, rest)) :
    ∃ e, CharText c (code '\\' :: e) ∧ bs = e ++ rest := by
  revert h
  fun_cases escape bs with
  | case2 b rest c hc =>
      rintro ⟨⟩
      obtain ⟨l, hl, rfl⟩ := exists_letter_of_shortEscape? hc
      exact ⟨[code l], .letter hl, rfl⟩
  | case3 rest =>
      intro h
      obtain ⟨e, he, rfl⟩ := exists_of_unicodeEscape h
      exact ⟨code 'u' :: e, he, rfl⟩
  | case1 | case4 => rintro ⟨⟩

/-! ## What strings are read from -/

/-- A text spells these bytes: each stands for itself, or the bytes of a character
for an escape of it. -/
inductive Spells : Bytes → Bytes → Prop where
  | nil : Spells [] []
  | plain {b : UInt8} {ds t : Bytes} (hb : IsPlain b) (h : Spells ds t) : Spells (b :: ds) (b :: t)
  | escape {c : Char} {e ds t : Bytes} (hc : CharText c (code '\\' :: e)) (h : Spells ds t) :
      Spells (String.utf8EncodeChar c ++ ds) (code '\\' :: e ++ t)

theorem exists_spells_of_stringBytes {limit : Nat} {bs ds rest : Bytes}
    (h : stringBytes limit bs = .ok (ds, rest)) :
    ∃ t, Spells ds t ∧ bs = t ++ code '"' :: rest := by
  induction limit generalizing bs ds with
  | zero => cases h
  | succ limit ih =>
      cases bs with
      | nil => cases h
      | cons b bs =>
          rw [stringBytes] at h
          split at h
          · next hquote =>
            cases h
            exact ⟨[], .nil, by rw [hquote]; rfl⟩
          split at h
          · next hbackslash =>
            obtain ⟨⟨c, behind⟩, hc, h⟩ := bind_eq_ok.mp h
            obtain ⟨⟨others, _⟩, hothers, ⟨⟩⟩ := bind_eq_ok.mp h
            obtain ⟨e, he, rfl⟩ := exists_of_escape hc
            obtain ⟨t, ht, rfl⟩ := ih hothers
            exact ⟨code '\\' :: e ++ t, .escape he ht, by simp [hbackslash]⟩
          split at h
          · cases h
          · next hquote hbackslash hcontrol =>
            obtain ⟨⟨others, _⟩, hothers, ⟨⟩⟩ := bind_eq_ok.mp h
            obtain ⟨t, ht, rfl⟩ := ih hothers
            exact ⟨b :: t, .plain ⟨hcontrol, hquote, hbackslash⟩ ht, rfl⟩

/-- The bytes that go on with a character stand for themselves. -/
theorem exists_spells_of_tail {tail ds t : Bytes} (htail : ∀ b ∈ tail, Text.IsTail b)
    (h : Spells (tail ++ ds) t) : ∃ t', Spells ds t' ∧ t = tail ++ t' := by
  induction tail generalizing t with
  | nil => exact ⟨t, h, rfl⟩
  | cons b tail ih =>
      obtain ⟨hb, htail⟩ := List.forall_mem_cons.mp htail
      rw [List.cons_append] at h
      generalize hds : b :: (tail ++ ds) = ds' at h
      cases h with
      | nil => cases hds
      | plain _ h =>
          cases hds
          obtain ⟨t', ht', rfl⟩ := ih htail h
          exact ⟨t', ht', rfl⟩
      | @escape c =>
          obtain ⟨b', tail', hc, hfirst, -⟩ := Text.exists_tail_utf8EncodeChar c
          rw [hc] at hds
          obtain ⟨rfl, -⟩ := List.cons.inj hds
          exact absurd hb hfirst

/-- A character whose first byte stands for itself stands for itself. -/
theorem charText_of_isPlain {c : Char} {b : UInt8} {tail : Bytes}
    (h : String.utf8EncodeChar c = b :: tail) (hb : IsPlain b) :
    CharText c (String.utf8EncodeChar c) := by
  have hplain : ' '.toNat ≤ c.toNat ∧ c.toNat ≠ '"'.toNat ∧ c.toNat ≠ '\\'.toNat := by
    simp only [IsPlain, eq_code_iff, UInt8.lt_iff_toNat_lt, Ne] at hb
    by_cases hascii : c.toNat < 0x80
    · rw [Text.utf8EncodeChar_of_ascii hascii] at h
      obtain ⟨rfl, -⟩ := List.cons.inj h
      simp at hb ⊢
      omega
    · simp
      omega
  exact .plain hplain.1 (fun h => hplain.2.1 (h ▸ rfl)) fun h => hplain.2.2 (h ▸ rfl)

theorem charsText_of_spells {cs : List Char} {t : Bytes} (h : Spells (encode cs) t) :
    CharsText cs t := by
  induction cs generalizing t with
  | nil =>
      generalize hds : encode [] = ds at h
      cases h with
      | nil => exact .nil
      | plain => cases hds
      | @escape c =>
          rw [Text.encode_nil, eq_comm, List.append_eq_nil_iff] at hds
          exact absurd hds.1 (Text.utf8EncodeChar_ne_nil c)
  | cons c cs ih =>
      obtain ⟨b, tail, hc, -, htail⟩ := Text.exists_tail_utf8EncodeChar c
      generalize hds : encode (c :: cs) = ds at h
      cases h with
      | nil => simp [hc] at hds
      | plain hb h =>
          rw [Text.encode_cons, hc, List.cons_append] at hds
          cases hds
          obtain ⟨t, ht, rfl⟩ := exists_spells_of_tail htail h
          have hchar := charText_of_isPlain hc hb
          rw [hc] at hchar
          exact .cons hchar (ih ht)
      | escape he h =>
          obtain ⟨rfl, rfl⟩ := Text.utf8EncodeChar_append_inj hds
          exact .cons he (ih h)

/-- Only a string is read as one. -/
theorem exists_of_string {bs rest : Bytes} {s : String} (h : string bs = .ok (s, rest)) :
    ∃ t, CharsText s.toList t ∧ bs = t ++ code '"' :: rest := by
  rw [string, bind_eq_ok] at h
  obtain ⟨⟨ds, behind⟩, hds, h⟩ := h
  dsimp only at h
  split at h
  · next cs hcs =>
    cases h
    obtain ⟨t, ht, rfl⟩ := exists_spells_of_stringBytes hds
    rw [Text.eq_encode_of_decode hcs] at ht
    exact ⟨t, by rw [String.toList_ofList]; exact charsText_of_spells ht, rfl⟩
  · cases h

end TestTriage.Json
