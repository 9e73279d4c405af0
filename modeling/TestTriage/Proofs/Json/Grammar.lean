import TestTriage.Json.Reader
import TestTriage.Proofs.Text.Encoding

/-!
# JSON on one line

How values may be written without a line end, as a relation between values
and bytes. It is as loose as JSON is. Tabs, carriage returns and spaces may
stand between tokens (`IsGap`). A character of a string stands for itself,
or behind a backslash for its letter or its code (`CharText`). Numbers are
well formed and within the range of the reader (`NumberText`), and lists
and objects nest as deep as is said (`ValueText`).

No line feed can get into such a text (`oneLine_of_valueText`): a string
has to write it behind a backslash, and it is no character of anything
else.
-/

namespace TestTriage.Json

open Text (Bytes)

/-! ## White space -/

/-- White space between tokens, line feeds apart. -/
def IsGap (gap : Bytes) : Prop := ∀ b ∈ gap, b = code ' ' ∨ b = code '\t' ∨ b = code '\r'

/-- A text with white space around it. -/
inductive Padded (written : Bytes → Prop) : Bytes → Prop where
  | pad {before text behind : Bytes} (hbefore : IsGap before) (h : written text)
      (hbehind : IsGap behind) : Padded written (before ++ text ++ behind)

/-! ## Strings -/

/-- A hexadecimal digit, small or capital, with its value. -/
def IsHexDigit (b : UInt8) (v : Nat) : Prop :=
  v < 16 ∧ (b = code (Nat.digitChar v) ∨ b = code (Nat.digitChar v).toUpper)
  deriving Decidable

/-- A code in four hexadecimal digits. -/
inductive HexText : Nat → Bytes → Prop where
  | digits {a b c d : UInt8} {w x y z : Nat} (ha : IsHexDigit a w) (hb : IsHexDigit b x)
      (hc : IsHexDigit c y) (hd : IsHexDigit d z) :
      HexText (((w * 16 + x) * 16 + y) * 16 + z) [a, b, c, d]

/-- The letters that may stand behind a backslash, with what they stand for. -/
def escapeLetters : List (Char × Char) :=
  [('"', '"'), ('\\', '\\'), ('/', '/'), ('b', '\x08'), ('f', '\x0c'), ('n', '\n'), ('r', '\r'),
    ('t', '\t')]

/-- How a character may be written within a string. -/
inductive CharText : Char → Bytes → Prop where
  | plain {c : Char} (hcontrol : ' ' ≤ c) (hquote : c ≠ '"') (hbackslash : c ≠ '\\') :
      CharText c (String.utf8EncodeChar c)
  | letter {l c : Char} (h : (l, c) ∈ escapeLetters) : CharText c [code '\\', code l]
  | byCode {c : Char} {ds : Bytes} (h : HexText c.toNat ds) :
      CharText c (code '\\' :: code 'u' :: ds)
  /-- Beyond sixteen bits the code is split into two surrogates. -/
  | surrogates {c : Char} {high low : Nat} {ds es : Bytes} (hhigh : HexText (0xd800 + high) ds)
      (hlow : HexText (0xdc00 + low) es) (hlt : low < 0x400)
      (hc : c.toNat = 0x10000 + high * 0x400 + low) :
      CharText c (code '\\' :: code 'u' :: ds ++ code '\\' :: code 'u' :: es)

/-- Characters one after the other. -/
inductive CharsText : List Char → Bytes → Prop where
  | nil : CharsText [] []
  | cons {c : Char} {cs : List Char} {t ts : Bytes} (hc : CharText c t) (hcs : CharsText cs ts) :
      CharsText (c :: cs) (t ++ ts)

/-- A string with its quotes. -/
inductive StringText : String → Bytes → Prop where
  | quotes {s : String} {t : Bytes} (h : CharsText s.toList t) :
      StringText s (code '"' :: t ++ [code '"'])

/-! ## Numbers -/

def AllDigits (ds : Bytes) : Prop := ∀ b ∈ ds, isDigit b = true

/-- The digits in front of the point; a zero stands alone. -/
inductive IntegerText : Bytes → Prop where
  | zero : IntegerText [code '0']
  | digits {d : UInt8} {ds : Bytes} (hd : isDigit d = true) (hzero : d ≠ code '0')
      (hds : AllDigits ds) : IntegerText (d :: ds)

/-- A point with digits, or nothing. -/
inductive FractionText : Bytes → Prop where
  | none : FractionText []
  | digits {d : UInt8} {ds : Bytes} (hds : AllDigits (d :: ds)) :
      FractionText (code '.' :: d :: ds)

/-- The sign of an exponent. -/
inductive SignText : Bytes → Prop where
  | none : SignText []
  | plus : SignText [code '+']
  | minus : SignText [code '-']

/-- An exponent, or nothing. -/
inductive ExponentText : Bytes → Prop where
  | none : ExponentText []
  | digits {letter d : UInt8} {sign ds : Bytes} (hletter : letter = code 'e' ∨ letter = code 'E')
      (hsign : SignText sign) (hds : AllDigits (d :: ds)) :
      ExponentText (letter :: sign ++ d :: ds)

/-- A number as JSON writes it. -/
inductive Numeral : Bytes → Prop where
  | positive {i f e : Bytes} (hi : IntegerText i) (hf : FractionText f) (he : ExponentText e) :
      Numeral (i ++ f ++ e)
  | negative {i f e : Bytes} (hi : IntegerText i) (hf : FractionText f) (he : ExponentText e) :
      Numeral (code '-' :: i ++ f ++ e)

/-- A number within the range of the reader. -/
structure NumberText (n : Number) (t : Bytes) : Prop where
  numeral : Numeral t
  inRange : number t = .ok (n, [])

/-! ## Lists and objects -/

/-- Items parted by commas, with white space around each. -/
inductive Listed {α : Type} (item : α → Bytes → Prop) : List α → Bytes → Prop where
  | one {x : α} {t : Bytes} (h : Padded (item x) t) : Listed item [x] t
  | cons {x : α} {xs : List α} {t ts : Bytes} (h : Padded (item x) t) (hs : Listed item xs ts) :
      Listed item (x :: xs) (t ++ code ',' :: ts)

/-- Items between brackets, or nothing between them. -/
inductive Enclosed {α : Type} (opening closing : Char) (item : α → Bytes → Prop) :
    List α → Bytes → Prop where
  | empty {gap : Bytes} (h : IsGap gap) :
      Enclosed opening closing item [] (code opening :: gap ++ [code closing])
  | items {xs : List α} {t : Bytes} (h : Listed item xs t) :
      Enclosed opening closing item xs (code opening :: t ++ [code closing])

/-- A key, a colon and what belongs to the key. -/
inductive MemberText {α : Type} (value : α → Bytes → Prop) : String × α → Bytes → Prop where
  | member {key : String} {x : α} {k before behind t : Bytes} (hkey : StringText key k)
      (hbefore : IsGap before) (hbehind : IsGap behind) (hx : value x t) :
      MemberText value (key, x) (k ++ before ++ code ':' :: behind ++ t)

/-! ## Values -/

/-- How a value that has no parts may be written. -/
inductive ScalarText : Value → Bytes → Prop where
  | null : ScalarText .null (['n', 'u', 'l', 'l'].map code)
  | true : ScalarText (.boolean true) (['t', 'r', 'u', 'e'].map code)
  | false : ScalarText (.boolean false) (['f', 'a', 'l', 's', 'e'].map code)
  | number {n : Number} {t : Bytes} (h : NumberText n t) : ScalarText (.number n) t
  | string {s : String} {t : Bytes} (h : StringText s t) : ScalarText (.string s) t

/-- How a value may be written whose parts are written so. -/
inductive CompoundText (part : Value → Bytes → Prop) : Value → Bytes → Prop where
  | scalar {v : Value} {t : Bytes} (h : ScalarText v t) : CompoundText part v t
  | array {xs : List Value} {t : Bytes} (h : Enclosed '[' ']' part xs t) :
      CompoundText part (.array xs) t
  | object {ms : List (String × Value)} {t : Bytes}
      (h : Enclosed '\x7b' '\x7d' (MemberText part) ms t) : CompoundText part (.object ms) t

/-- How a value may be written in which lists and objects nest at most so deep. -/
def ValueText : (depth : Nat) → Value → Bytes → Prop
  | 0 => ScalarText
  | depth + 1 => CompoundText (ValueText depth)

/-! ## Bytes of ASCII -/

theorem eq_code_iff {b : UInt8} {c : Char} : b = code c ↔ b.toNat = c.toNat % 256 := by
  rw [← UInt8.toNat_inj]
  rfl

theorem isSpace_iff {b : UInt8} :
    isSpace b = true ↔ b.toNat = 32 ∨ b.toNat = 10 ∨ b.toNat = 9 ∨ b.toNat = 13 := by
  simp [isSpace, eq_code_iff, or_assoc]

theorem isDigit_iff {b : UInt8} : isDigit b = true ↔ 48 ≤ b.toNat ∧ b.toNat ≤ 57 := by
  simp [isDigit, UInt8.le_iff_toNat_le, code]

/-! ## Plain characters -/

/-- Is the byte part of a character that stands for itself? -/
def IsPlain (b : UInt8) : Prop := ¬b < 0x20 ∧ b ≠ code '"' ∧ b ≠ code '\\'

theorem isPlain_of_mem_utf8EncodeChar {c : Char} (hcontrol : ' ' ≤ c) (hquote : c ≠ '"')
    (hbackslash : c ≠ '\\') {b : UInt8} (hb : b ∈ String.utf8EncodeChar c) : IsPlain b := by
  simp only [IsPlain, eq_code_iff, UInt8.lt_iff_toNat_lt, Ne]
  by_cases hascii : c.toNat < 0x80
  · rw [Text.utf8EncodeChar_of_ascii hascii, List.mem_singleton] at hb
    have hc : 32 ≤ c.toNat := hcontrol
    have hquote : c.toNat ≠ '"'.toNat := fun h => hquote (Char.toNat_inj.mp h)
    have hbackslash : c.toNat ≠ '\\'.toNat := fun h => hbackslash (Char.toNat_inj.mp h)
    subst hb
    simp at hquote hbackslash ⊢
    omega
  · have := Text.le_of_mem_utf8EncodeChar (Nat.not_lt.mp hascii) hb
    simp
    omega

/-! ## No line feed -/

/-- The text has no line feed. -/
def OneLine (t : Bytes) : Prop := code '\n' ∉ t
  deriving Decidable

@[simp] theorem oneLine_nil : OneLine [] := List.not_mem_nil

@[simp] theorem oneLine_append {s t : Bytes} : OneLine (s ++ t) ↔ OneLine s ∧ OneLine t := by
  simp [OneLine]

@[simp] theorem oneLine_cons {b : UInt8} {t : Bytes} :
    OneLine (b :: t) ↔ b ≠ code '\n' ∧ OneLine t := by
  simp [OneLine, eq_comm]

theorem oneLine_of_forall {t : Bytes} (h : ∀ b ∈ t, b ≠ code '\n') : OneLine t :=
  fun hmem => h _ hmem rfl

theorem oneLine_of_gap {gap : Bytes} (h : IsGap gap) : OneLine gap :=
  oneLine_of_forall fun b hb => by rcases h b hb with rfl | rfl | rfl <;> decide

theorem oneLine_of_padded {written : Bytes → Prop} {t : Bytes} (h : Padded written t)
    (hwritten : ∀ t, written t → OneLine t) : OneLine t := by
  obtain ⟨hbefore, htext, hbehind⟩ := h
  simp [oneLine_of_gap hbefore, hwritten _ htext, oneLine_of_gap hbehind]

theorem oneLine_of_hexText {n : Nat} {ds : Bytes} (h : HexText n ds) : OneLine ds := by
  have hdigit : ∀ {b : UInt8} {v : Nat}, IsHexDigit b v → b ≠ code '\n' := by
    rintro b v ⟨hv, rfl | rfl⟩ <;> revert v <;> decide
  obtain ⟨ha, hb, hc, hd⟩ := h
  simp [hdigit ha, hdigit hb, hdigit hc, hdigit hd]

theorem oneLine_of_charText {c : Char} {t : Bytes} (h : CharText c t) : OneLine t := by
  cases h with
  | plain hcontrol hquote hbackslash =>
      refine oneLine_of_forall fun b hb => ?_
      rintro rfl
      exact (isPlain_of_mem_utf8EncodeChar hcontrol hquote hbackslash hb).1 (by decide)
  | @letter l _ h =>
      have hl : code l ≠ code '\n' := by
        revert h
        simp only [escapeLetters, List.mem_cons, Prod.mk.injEq, List.not_mem_nil, or_false]
        rintro (⟨rfl, -⟩ | ⟨rfl, -⟩ | ⟨rfl, -⟩ | ⟨rfl, -⟩ | ⟨rfl, -⟩ | ⟨rfl, -⟩ | ⟨rfl, -⟩
          | ⟨rfl, -⟩) <;> decide
      simpa [hl] using by decide
  | byCode h => simpa [oneLine_of_hexText h] using by decide
  | surrogates hhigh hlow =>
      simpa [oneLine_of_hexText hhigh, oneLine_of_hexText hlow] using by decide

theorem oneLine_of_stringText {s : String} {t : Bytes} (h : StringText s t) : OneLine t := by
  have hchars : ∀ {cs : List Char} {t : Bytes}, CharsText cs t → OneLine t := by
    intro cs t h
    induction h with
    | nil => exact oneLine_nil
    | cons hc _ ih => exact oneLine_append.mpr ⟨oneLine_of_charText hc, ih⟩
  obtain ⟨h⟩ := h
  simpa [hchars h] using by decide

theorem oneLine_of_allDigits {ds : Bytes} (h : AllDigits ds) : OneLine ds :=
  oneLine_of_forall fun b hb => by
    have := isDigit_iff.mp (h b hb)
    rw [Ne, eq_code_iff]
    simp
    omega

theorem oneLine_of_numeral {t : Bytes} (h : Numeral t) : OneLine t := by
  have hinteger : ∀ {i : Bytes}, IntegerText i → OneLine i := by
    rintro i (- | ⟨hd, -, hds⟩)
    · decide
    · refine oneLine_of_allDigits fun b hb => ?_
      rcases List.mem_cons.mp hb with rfl | hb
      · exact hd
      · exact hds b hb
  have hfraction : ∀ {f : Bytes}, FractionText f → OneLine f := by
    rintro f (- | hds)
    · exact oneLine_nil
    · exact oneLine_cons.mpr ⟨by decide, oneLine_of_allDigits hds⟩
  have hexponent : ∀ {e : Bytes}, ExponentText e → OneLine e := by
    rintro e (- | ⟨hletter, hsign, hds⟩)
    · exact oneLine_nil
    · rw [List.cons_append, oneLine_cons, oneLine_append]
      refine ⟨?_, ?_, oneLine_of_allDigits hds⟩
      · rcases hletter with rfl | rfl <;> decide
      · cases hsign with
        | none => exact oneLine_nil
        | plus => decide
        | minus => decide
  cases h with
  | positive hi hf he => simp [hinteger hi, hfraction hf, hexponent he]
  | negative hi hf he => simpa [hinteger hi, hfraction hf, hexponent he] using by decide

theorem oneLine_of_enclosed {α : Type} {opening closing : Char} {item : α → Bytes → Prop}
    {xs : List α} {t : Bytes} (h : Enclosed opening closing item xs t)
    (hopening : code opening ≠ code '\n') (hclosing : code closing ≠ code '\n')
    (hitem : ∀ x t, item x t → OneLine t) : OneLine t := by
  have hlisted : ∀ {xs : List α} {t : Bytes}, Listed item xs t → OneLine t := by
    intro xs t h
    induction h with
    | one h => exact oneLine_of_padded h (hitem _)
    | cons h _ ih => simpa [oneLine_of_padded h (hitem _), ih] using by decide
  cases h with
  | empty h => simp [hopening, hclosing, oneLine_of_gap h]
  | items h => simp [hopening, hclosing, hlisted h]

theorem oneLine_of_memberText {α : Type} {value : α → Bytes → Prop} {m : String × α} {t : Bytes}
    (h : MemberText value m t) (hvalue : ∀ x t, value x t → OneLine t) : OneLine t := by
  obtain ⟨hkey, hbefore, hbehind, hx⟩ := h
  simpa [oneLine_of_stringText hkey, oneLine_of_gap hbefore, oneLine_of_gap hbehind, hvalue _ _ hx]
    using by decide

theorem oneLine_of_scalarText {v : Value} {t : Bytes} (h : ScalarText v t) : OneLine t := by
  cases h with
  | null => decide
  | true => decide
  | false => decide
  | number h => exact oneLine_of_numeral h.numeral
  | string h => exact oneLine_of_stringText h

/-- There is no line feed in the text of a value. -/
theorem oneLine_of_valueText {depth : Nat} {v : Value} {t : Bytes} (h : ValueText depth v t) :
    OneLine t := by
  induction depth generalizing v t with
  | zero => exact oneLine_of_scalarText h
  | succ depth ih =>
      cases h with
      | scalar h => exact oneLine_of_scalarText h
      | array h => exact oneLine_of_enclosed h (by decide) (by decide) fun x t hx => ih hx
      | object h =>
          exact oneLine_of_enclosed h (by decide) (by decide) fun m t hm =>
            oneLine_of_memberText hm fun x t hx => ih hx

end TestTriage.Json
