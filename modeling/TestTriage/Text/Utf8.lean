/-!
# UTF-8

Texts as bytes and back.  Decoding goes as far as the bytes are well formed: no overlong forms, no
surrogates, nothing beyond the last code point.
-/

namespace TestTriage.Text

abbrev Bytes := List UInt8

/-- The bytes of some characters. -/
def encode (cs : List Char) : Bytes := cs.flatMap String.utf8EncodeChar

/-- The bytes of a text. -/
def utf8 (s : String) : Bytes := encode s.toList

/-- Different texts have different bytes. -/
theorem utf8_inj {s t : String} : utf8 s = utf8 t ↔ s = t := by
  refine ⟨fun h => ?_, fun h => h ▸ rfl⟩
  have bytes (u : String) : u.toByteArray = (utf8 u).toByteArray := by
    conv => lhs; rw [← String.ofList_toList (s := u), String.toByteArray_ofList]
    rfl
  rw [← String.toByteArray_inj, bytes, bytes, h]

/-- Of two texts with different bytes one comes first. -/
theorem utf8_lt_of_ne_of_not_lt {s t : String} (hne : s ≠ t) (h : ¬utf8 s < utf8 t) :
    utf8 t < utf8 s := by
  refine Decidable.byContradiction fun h' => hne ?_
  exact utf8_inj.1 (List.le_antisymm (List.not_lt.1 h') (List.not_lt.1 h))

/-- The six bits a byte that goes on with a character carries. -/
def continuation? (b : UInt8) : Option Nat :=
  if 0x80 ≤ b.toNat ∧ b.toNat < 0xc0 then some (b.toNat - 0x80) else none

/-- The character with this code, if there is one and its code is at least `least`. -/
def charAtLeast? (least code : Nat) : Option Char :=
  if least ≤ code ∧ code.isValidChar then some (Char.ofNat code) else none

/-- The character at the front, and the bytes behind it. -/
def decodeChar? : Bytes → Option (Char × Bytes)
  | [] => none
  | b :: bs =>
    let n := b.toNat
    if n < 0x80 then some (Char.ofNat n, bs)
    else if n < 0xe0 then
      match bs with
      | b₁ :: bs => do
        let c ← charAtLeast? 0x80 ((n - 0xc0) * 64 + (← continuation? b₁))
        guard (0xc0 ≤ n)
        return (c, bs)
      | _ => none
    else if n < 0xf0 then
      match bs with
      | b₁ :: b₂ :: bs => do
        let c ← charAtLeast? 0x800
          ((n - 0xe0) * 4096 + (← continuation? b₁) * 64 + (← continuation? b₂))
        return (c, bs)
      | _ => none
    else if n < 0xf8 then
      match bs with
      | b₁ :: b₂ :: b₃ :: bs => do
        let c ← charAtLeast? 0x10000
          ((n - 0xf0) * 262144 + (← continuation? b₁) * 4096 + (← continuation? b₂) * 64
            + (← continuation? b₃))
        return (c, bs)
      | _ => none
    else none

/-- At most `limit` characters from the front, and the bytes behind them. -/
def decodeUpTo : (limit : Nat) → Bytes → List Char × Bytes
  | 0, bs => ([], bs)
  | limit + 1, bs =>
    match decodeChar? bs with
    | none => ([], bs)
    | some (c, rest) =>
      let (cs, rest) := decodeUpTo limit rest
      (c :: cs, rest)

/-- The characters at the front, as long as the bytes are well formed, and the bytes behind them. -/
def decode (bs : Bytes) : List Char × Bytes := decodeUpTo bs.length bs

end TestTriage.Text
