import TestTriage.Proofs.Text.Encoding

/-!
# What UTF-8 is read from

Only the bytes of a character are read as the character
(`eq_append_of_decodeChar?`), and only the bytes of a text as the text
(`eq_encode_of_decode`): an overlong form, a surrogate or a code beyond the
last one is not read at all. A byte that goes on with a character begins
none, so that in the bytes of a text every character can be found from its
first byte on (`exists_tail_utf8EncodeChar`).
-/

namespace TestTriage.Text

/-- Is the byte one that goes on with a character? -/
def IsTail (b : UInt8) : Prop := 0x80 ≤ b.toNat ∧ b.toNat < 0xc0

/-! ## Shares of a code -/

theorem toNat_of_continuation? {b : UInt8} {n : Nat} (h : continuation? b = some n) :
    b.toNat = n + 0x80 ∧ n < 0x40 := by
  rw [continuation?] at h
  split at h
  · next htail =>
    rw [Option.some.injEq] at h
    omega
  · cases h

theorem toNat_of_charAtLeast? {least n : Nat} {c : Char} (h : charAtLeast? least n = some c) :
    c.toNat = n ∧ least ≤ n := by
  rw [charAtLeast?] at h
  split at h
  · next hn =>
    rw [Option.some.injEq] at h
    rw [← h, Char.ofNat, dif_pos hn.2]
    exact ⟨rfl, hn.1⟩
  · cases h

/-! ## How many bytes a character has -/

variable {c : Char}

theorem utf8EncodeChar_two (hmin : 0x80 ≤ c.toNat) (hmax : c.toNat < 0x800) :
    String.utf8EncodeChar c
      = [UInt8.ofNat (c.toNat / 64 + 0xc0), UInt8.ofNat (c.toNat % 64 + 0x80)] := by
  have hval : c.val.toNat = c.toNat := rfl
  have hfirst : c.toNat / 64 % 32 + 0xc0 = c.toNat / 64 + 0xc0 := by omega
  rw [String.utf8EncodeChar]
  simp only [hval, if_neg (show ¬c.toNat ≤ 127 by omega), if_pos (show c.toNat ≤ 2047 by omega),
    hfirst]

theorem utf8EncodeChar_three (hmin : 0x800 ≤ c.toNat) (hmax : c.toNat < 0x10000) :
    String.utf8EncodeChar c
      = [UInt8.ofNat (c.toNat / 4096 + 0xe0), UInt8.ofNat (c.toNat / 64 % 64 + 0x80),
          UInt8.ofNat (c.toNat % 64 + 0x80)] := by
  have hval : c.val.toNat = c.toNat := rfl
  have hfirst : c.toNat / 4096 % 16 + 0xe0 = c.toNat / 4096 + 0xe0 := by omega
  rw [String.utf8EncodeChar]
  simp only [hval, if_neg (show ¬c.toNat ≤ 127 by omega), if_neg (show ¬c.toNat ≤ 2047 by omega),
    if_pos (show c.toNat ≤ 65535 by omega), hfirst]

theorem utf8EncodeChar_four (hmin : 0x10000 ≤ c.toNat) :
    String.utf8EncodeChar c
      = [UInt8.ofNat (c.toNat / 262144 + 0xf0), UInt8.ofNat (c.toNat / 4096 % 64 + 0x80),
          UInt8.ofNat (c.toNat / 64 % 64 + 0x80), UInt8.ofNat (c.toNat % 64 + 0x80)] := by
  have hval : c.val.toNat = c.toNat := rfl
  have hmax := toNat_lt_of_char c
  have hfirst : c.toNat / 262144 % 8 + 0xf0 = c.toNat / 262144 + 0xf0 := by omega
  rw [String.utf8EncodeChar]
  simp only [hval, if_neg (show ¬c.toNat ≤ 127 by omega), if_neg (show ¬c.toNat ≤ 2047 by omega),
    if_neg (show ¬c.toNat ≤ 65535 by omega), hfirst]

/-- A character has a first byte, and all others go on with it. -/
theorem exists_tail_utf8EncodeChar (c : Char) :
    ∃ b tail, String.utf8EncodeChar c = b :: tail ∧ ¬IsTail b ∧ ∀ b' ∈ tail, IsTail b' := by
  have hmax := toNat_lt_of_char c
  have htail : ∀ n, IsTail (UInt8.ofNat (n % 64 + 0x80)) := by
    intro n
    rw [IsTail, UInt8.toNat_ofNat']
    omega
  have hfirst : ∀ n, n < 0x80 ∨ 0xc0 ≤ n → n < 0x100 → ¬IsTail (UInt8.ofNat n) := by
    intro n hn hlt
    rw [IsTail, UInt8.toNat_ofNat']
    omega
  by_cases h₁ : c.toNat < 0x80
  · exact ⟨_, _, utf8EncodeChar_of_ascii h₁, hfirst _ (.inl h₁) (by omega), List.forall_mem_nil _⟩
  by_cases h₂ : c.toNat < 0x800
  · refine ⟨_, _, utf8EncodeChar_two (by omega) h₂, hfirst _ (.inr (by omega)) (by omega), ?_⟩
    simpa only [List.forall_mem_cons, htail, true_and] using List.forall_mem_nil _
  by_cases h₃ : c.toNat < 0x10000
  · refine ⟨_, _, utf8EncodeChar_three (by omega) h₃, hfirst _ (.inr (by omega)) (by omega), ?_⟩
    simpa only [List.forall_mem_cons, htail, true_and] using List.forall_mem_nil _
  · refine ⟨_, _, utf8EncodeChar_four (by omega), hfirst _ (.inr (by omega)) (by omega), ?_⟩
    simpa only [List.forall_mem_cons, htail, true_and] using List.forall_mem_nil _

/-! ## Reading back -/

/-- Two characters at the front of the same bytes are the same. -/
theorem utf8EncodeChar_append_inj {d : Char} {bs cs : Bytes}
    (h : String.utf8EncodeChar c ++ bs = String.utf8EncodeChar d ++ cs) : c = d ∧ bs = cs := by
  have hread := decodeChar?_append c bs
  rw [h, decodeChar?_append, Option.some.injEq, Prod.mk.injEq] at hread
  exact ⟨hread.1.symm, hread.2.symm⟩

/-- What is read as a character are its bytes. -/
theorem eq_append_of_decodeChar? {bs rest : Bytes} (h : decodeChar? bs = some (c, rest)) :
    bs = String.utf8EncodeChar c ++ rest := by
  have hbyte : ∀ {b : UInt8} {n : Nat}, b.toNat = n → b = UInt8.ofNat n := by
    rintro b _ rfl
    exact UInt8.ofNat_toNat.symm
  revert h
  fun_cases decodeChar? bs with
  | case2 b bs n hone =>
      rintro ⟨⟩
      have hcode : (Char.ofNat n).toNat = n := by
        rw [Char.ofNat, dif_pos (.inl (by omega))]
        rfl
      rw [utf8EncodeChar_of_ascii (hcode.symm ▸ hone), hcode]
      exact congrArg (· :: _) (hbyte rfl)
  | case3 b n hone htwo b₁ bs =>
      intro h
      obtain ⟨n₁, h₁, h⟩ := Option.bind_eq_some_iff.mp h
      obtain ⟨_, hchar, h⟩ := Option.bind_eq_some_iff.mp h
      obtain ⟨⟨⟩, hfirst, ⟨⟩⟩ := Option.bind_eq_some_iff.mp h
      obtain ⟨htail₁, hlt₁⟩ := toNat_of_continuation? h₁
      obtain ⟨hcode, hleast⟩ := toNat_of_charAtLeast? hchar
      have hfirst : 0xc0 ≤ n := by
        refine Decidable.byContradiction fun hno => ?_
        have hfails : (guard (0xc0 ≤ n) : Option Unit) = none := if_neg hno
        cases hfails.symm.trans hfirst
      rw [utf8EncodeChar_two (by omega) (by omega),
        hbyte (show b.toNat = c.toNat / 64 + 0xc0 by omega),
        hbyte (show b₁.toNat = c.toNat % 64 + 0x80 by omega)]
      rfl
  | case5 b n hone htwo hthree b₁ b₂ bs =>
      intro h
      obtain ⟨n₁, h₁, h⟩ := Option.bind_eq_some_iff.mp h
      obtain ⟨n₂, h₂, h⟩ := Option.bind_eq_some_iff.mp h
      obtain ⟨_, hchar, ⟨⟩⟩ := Option.bind_eq_some_iff.mp h
      obtain ⟨htail₁, hlt₁⟩ := toNat_of_continuation? h₁
      obtain ⟨htail₂, hlt₂⟩ := toNat_of_continuation? h₂
      obtain ⟨hcode, hleast⟩ := toNat_of_charAtLeast? hchar
      rw [utf8EncodeChar_three (by omega) (by omega),
        hbyte (show b.toNat = c.toNat / 4096 + 0xe0 by omega),
        hbyte (show b₁.toNat = c.toNat / 64 % 64 + 0x80 by omega),
        hbyte (show b₂.toNat = c.toNat % 64 + 0x80 by omega)]
      rfl
  | case7 b n hone htwo hthree hfour b₁ b₂ b₃ bs =>
      intro h
      obtain ⟨n₁, h₁, h⟩ := Option.bind_eq_some_iff.mp h
      obtain ⟨n₂, h₂, h⟩ := Option.bind_eq_some_iff.mp h
      obtain ⟨n₃, h₃, h⟩ := Option.bind_eq_some_iff.mp h
      obtain ⟨_, hchar, ⟨⟩⟩ := Option.bind_eq_some_iff.mp h
      obtain ⟨htail₁, hlt₁⟩ := toNat_of_continuation? h₁
      obtain ⟨htail₂, hlt₂⟩ := toNat_of_continuation? h₂
      obtain ⟨htail₃, hlt₃⟩ := toNat_of_continuation? h₃
      obtain ⟨hcode, hleast⟩ := toNat_of_charAtLeast? hchar
      rw [utf8EncodeChar_four (by omega), hbyte (show b.toNat = c.toNat / 262144 + 0xf0 by omega),
        hbyte (show b₁.toNat = c.toNat / 4096 % 64 + 0x80 by omega),
        hbyte (show b₂.toNat = c.toNat / 64 % 64 + 0x80 by omega),
        hbyte (show b₃.toNat = c.toNat % 64 + 0x80 by omega)]
      rfl
  | case1 | case4 | case6 | case8 | case9 => rintro ⟨⟩

/-- What is read as a text, with nothing left, are its bytes. -/
theorem eq_encode_of_decode {bs : Bytes} {cs : List Char} (h : decode bs = (cs, [])) :
    bs = encode cs := by
  have hupTo : ∀ limit bs cs, decodeUpTo limit bs = (cs, []) → bs = encode cs := by
    intro limit
    induction limit with
    | zero =>
        rintro bs _ ⟨⟩
        rfl
    | succ limit ih =>
        intro bs cs h
        rw [decodeUpTo] at h
        split at h
        · obtain ⟨rfl, rfl⟩ := Prod.mk.inj h
          rfl
        · next c rest hc =>
          obtain ⟨rfl, hrest⟩ := Prod.mk.inj h
          rw [eq_append_of_decodeChar? hc, encode_cons, ← ih rest _ (Prod.ext rfl hrest)]
  exact hupTo _ bs cs h

end TestTriage.Text
