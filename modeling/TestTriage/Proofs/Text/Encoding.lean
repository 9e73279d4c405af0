import TestTriage.Text.Utf8

/-!
# Reading UTF-8 back

The bytes of a character are read back as the character, whatever stands
behind them (`decodeChar?_append`), and so the bytes of a text as the text
(`decode_encode`). Below the last byte of ASCII a character is its own
byte; above it no byte of a character is one of ASCII
(`le_of_mem_utf8EncodeChar`), so that a byte of ASCII in a text always is
the character itself.
-/

namespace TestTriage.Text

@[simp] theorem encode_nil : encode [] = [] := rfl

@[simp] theorem encode_cons (c : Char) (cs : List Char) :
    encode (c :: cs) = String.utf8EncodeChar c ++ encode cs := rfl

@[simp] theorem encode_append (cs ds : List Char) : encode (cs ++ ds) = encode cs ++ encode ds :=
  List.flatMap_append

@[simp] theorem utf8_append (s t : String) : utf8 (s ++ t) = utf8 s ++ utf8 t := by
  rw [utf8, String.toList_append, encode_append]
  rfl

@[simp] theorem utf8_ofList (cs : List Char) : utf8 (String.ofList cs) = encode cs := by
  rw [utf8, String.toList_ofList]

/-! ## Single characters -/

theorem utf8EncodeChar_of_ascii {c : Char} (h : c.toNat < 0x80) :
    String.utf8EncodeChar c = [c.toNat.toUInt8] := by
  have hval : c.val.toNat ≤ 127 := Nat.le_of_lt_succ h
  rw [String.utf8EncodeChar, if_pos hval]
  rfl

/-- The bytes of a character outside ASCII lie outside it, too. -/
theorem le_of_mem_utf8EncodeChar {c : Char} (h : 0x80 ≤ c.toNat) {b : UInt8}
    (hb : b ∈ String.utf8EncodeChar c) : 0x80 ≤ b.toNat := by
  have hval : ¬c.val.toNat ≤ 127 := Nat.not_le.mpr h
  rw [String.utf8EncodeChar, if_neg hval] at hb
  split at hb
  · simp only [List.mem_cons, List.not_mem_nil, or_false] at hb
    rcases hb with rfl | rfl <;> simp only [UInt8.toNat_ofNat'] <;> omega
  · split at hb
    · simp only [List.mem_cons, List.not_mem_nil, or_false] at hb
      rcases hb with rfl | rfl | rfl <;> simp only [UInt8.toNat_ofNat'] <;> omega
    · simp only [List.mem_cons, List.not_mem_nil, or_false] at hb
      rcases hb with rfl | rfl | rfl | rfl <;> simp only [UInt8.toNat_ofNat'] <;> omega

theorem utf8EncodeChar_ne_nil (c : Char) : String.utf8EncodeChar c ≠ [] := by
  rw [String.utf8EncodeChar]
  repeat' split
  all_goals exact List.cons_ne_nil _ _

/-! ## Reading back -/

theorem continuation?_eq {b : UInt8} {n : Nat} (h : b.toNat = n + 0x80) (hn : n < 0x40) :
    continuation? b = some n := by
  rw [continuation?, h, if_pos (by omega), Nat.add_sub_cancel]

theorem charAtLeast?_toNat {c : Char} {least : Nat} (h : least ≤ c.toNat) :
    charAtLeast? least c.toNat = some c := by
  rw [charAtLeast?, if_pos ⟨h, c.valid⟩, Char.ofNat_toNat]

theorem toNat_lt_of_char (c : Char) : c.toNat < 0x110000 := by
  rcases c.valid with h | ⟨-, h⟩
  · exact Nat.lt_trans h (by decide)
  · exact h

/-! The first byte tells how many follow, and every byte its share of the code. -/

theorem decodeChar?_one {b : UInt8} (h : b.toNat < 0x80) (bs : Bytes) :
    decodeChar? (b :: bs) = some (Char.ofNat b.toNat, bs) :=
  if_pos h

theorem decodeChar?_two {b b₁ : UInt8} {n n₁ : Nat} (h : b.toNat = n + 0xc0) (hn : n < 0x20)
    (h₁ : continuation? b₁ = some n₁) (bs : Bytes) :
    decodeChar? (b :: b₁ :: bs) = (charAtLeast? 0x80 (n * 64 + n₁)).map (·, bs) := by
  have hfirst : ¬b.toNat < 0x80 := by omega
  have hsecond : b.toNat < 0xe0 := by omega
  have hleast : (guard (0xc0 ≤ b.toNat) : Option Unit) = some () := if_pos (by omega)
  have hread : decodeChar? (b :: b₁ :: bs)
      = (continuation? b₁).bind fun n₁ => (charAtLeast? 0x80 ((b.toNat - 0xc0) * 64 + n₁)).bind
          fun c => (guard (0xc0 ≤ b.toNat) : Option Unit).bind fun _ => some (c, bs) :=
    (if_neg hfirst).trans (if_pos hsecond)
  rw [hread, h₁, hleast, h, Nat.add_sub_cancel, Option.bind_some]
  cases charAtLeast? 0x80 (n * 64 + n₁) <;> rfl

theorem decodeChar?_three {b b₁ b₂ : UInt8} {n n₁ n₂ : Nat} (h : b.toNat = n + 0xe0) (hn : n < 0x10)
    (h₁ : continuation? b₁ = some n₁) (h₂ : continuation? b₂ = some n₂) (bs : Bytes) :
    decodeChar? (b :: b₁ :: b₂ :: bs)
      = (charAtLeast? 0x800 (n * 4096 + n₁ * 64 + n₂)).map (·, bs) := by
  have hfirst : ¬b.toNat < 0x80 := by omega
  have hsecond : ¬b.toNat < 0xe0 := by omega
  have hthird : b.toNat < 0xf0 := by omega
  have hread : decodeChar? (b :: b₁ :: b₂ :: bs)
      = (continuation? b₁).bind fun n₁ => (continuation? b₂).bind fun n₂ =>
          (charAtLeast? 0x800 ((b.toNat - 0xe0) * 4096 + n₁ * 64 + n₂)).bind
            fun c => some (c, bs) :=
    (if_neg hfirst).trans <| (if_neg hsecond).trans (if_pos hthird)
  rw [hread, h₁, h₂, h, Nat.add_sub_cancel, Option.bind_some, Option.bind_some]
  cases charAtLeast? 0x800 (n * 4096 + n₁ * 64 + n₂) <;> rfl

theorem decodeChar?_four {b b₁ b₂ b₃ : UInt8} {n n₁ n₂ n₃ : Nat} (h : b.toNat = n + 0xf0)
    (hn : n < 0x8) (h₁ : continuation? b₁ = some n₁) (h₂ : continuation? b₂ = some n₂)
    (h₃ : continuation? b₃ = some n₃) (bs : Bytes) :
    decodeChar? (b :: b₁ :: b₂ :: b₃ :: bs)
      = (charAtLeast? 0x10000 (n * 262144 + n₁ * 4096 + n₂ * 64 + n₃)).map (·, bs) := by
  have hfirst : ¬b.toNat < 0x80 := by omega
  have hsecond : ¬b.toNat < 0xe0 := by omega
  have hthird : ¬b.toNat < 0xf0 := by omega
  have hfourth : b.toNat < 0xf8 := by omega
  have hread : decodeChar? (b :: b₁ :: b₂ :: b₃ :: bs)
      = (continuation? b₁).bind fun n₁ => (continuation? b₂).bind fun n₂ =>
          (continuation? b₃).bind fun n₃ =>
            (charAtLeast? 0x10000 ((b.toNat - 0xf0) * 262144 + n₁ * 4096 + n₂ * 64 + n₃)).bind
              fun c => some (c, bs) :=
    (if_neg hfirst).trans <| (if_neg hsecond).trans <| (if_neg hthird).trans (if_pos hfourth)
  rw [hread, h₁, h₂, h₃, h, Nat.add_sub_cancel, Option.bind_some, Option.bind_some,
    Option.bind_some]
  cases charAtLeast? 0x10000 (n * 262144 + n₁ * 4096 + n₂ * 64 + n₃) <;> rfl

/-- A character is read back, whatever stands behind it. -/
theorem decodeChar?_append (c : Char) (bs : Bytes) :
    decodeChar? (String.utf8EncodeChar c ++ bs) = some (c, bs) := by
  have hmax := toNat_lt_of_char c
  have hval : c.val.toNat = c.toNat := rfl
  have hshare : ∀ n : Nat, continuation? (UInt8.ofNat (n % 64 + 128)) = some (n % 64) := fun n =>
    continuation?_eq (by rw [UInt8.toNat_ofNat']; omega) (by omega)
  rw [String.utf8EncodeChar]
  simp only [hval]
  split
  · next h1 =>
    have hfirst : (UInt8.ofNat c.toNat).toNat = c.toNat := by rw [UInt8.toNat_ofNat']; omega
    rw [List.singleton_append, decodeChar?_one (by omega), hfirst, Char.ofNat_toNat]
  split
  · next h1 h2 =>
    have hfirst : (UInt8.ofNat (c.toNat / 64 % 32 + 192)).toNat = c.toNat / 64 + 0xc0 := by
      rw [UInt8.toNat_ofNat']; omega
    have hcode : c.toNat / 64 * 64 + c.toNat % 64 = c.toNat := by omega
    simp only [List.cons_append, List.nil_append]
    rw [decodeChar?_two hfirst (by omega) (hshare _), hcode, charAtLeast?_toNat (by omega)]
    rfl
  split
  · next h1 h2 h3 =>
    have hfirst : (UInt8.ofNat (c.toNat / 4096 % 16 + 224)).toNat = c.toNat / 4096 + 0xe0 := by
      rw [UInt8.toNat_ofNat']; omega
    have hcode : c.toNat / 4096 * 4096 + c.toNat / 64 % 64 * 64 + c.toNat % 64 = c.toNat := by
      omega
    simp only [List.cons_append, List.nil_append]
    rw [decodeChar?_three hfirst (by omega) (hshare _) (hshare _), hcode,
      charAtLeast?_toNat (by omega)]
    rfl
  · next h1 h2 h3 =>
    have hfirst : (UInt8.ofNat (c.toNat / 262144 % 8 + 240)).toNat = c.toNat / 262144 + 0xf0 := by
      rw [UInt8.toNat_ofNat']; omega
    have hcode : c.toNat / 262144 * 262144 + c.toNat / 4096 % 64 * 4096
        + c.toNat / 64 % 64 * 64 + c.toNat % 64 = c.toNat := by omega
    simp only [List.cons_append, List.nil_append]
    rw [decodeChar?_four hfirst (by omega) (hshare _) (hshare _) (hshare _), hcode,
      charAtLeast?_toNat (by omega)]
    rfl

/-! ## Texts -/

theorem length_le_length_encode (cs : List Char) : cs.length ≤ (encode cs).length := by
  induction cs with
  | nil => exact Nat.le_refl _
  | cons c cs ih =>
      rw [encode_cons, List.length_append, List.length_cons]
      have := List.length_pos_iff.mpr (utf8EncodeChar_ne_nil c)
      omega

theorem decodeUpTo_encode {limit : Nat} {cs : List Char} (h : cs.length ≤ limit) :
    decodeUpTo limit (encode cs) = (cs, []) := by
  induction limit generalizing cs with
  | zero =>
      rw [List.length_eq_zero_iff.mp (Nat.le_zero.mp h)]
      rfl
  | succ limit ih =>
      cases cs with
      | nil => rfl
      | cons c cs =>
          rw [decodeUpTo, encode_cons, decodeChar?_append]
          simp only [ih (Nat.le_of_succ_le_succ h)]

/-- The bytes of a text are read back as the text. -/
theorem decode_encode (cs : List Char) : decode (encode cs) = (cs, []) :=
  decodeUpTo_encode (length_le_length_encode cs)

end TestTriage.Text
