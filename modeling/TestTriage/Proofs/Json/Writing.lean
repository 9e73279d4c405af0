import TestTriage.Json.Quoted
import TestTriage.Proofs.Json.Grammar

/-!
# What is written is JSON

A text between quotes, with its characters behind backslashes where they
have to be, is one of the ways in which the text may be written
(`stringText_quoted`), and pieces joined by commas are listed
(`listed_intercalate`).
-/

namespace TestTriage.Json

open Text (Bytes encode utf8)

/-! ## Characters -/

theorem hexText_control {n : Nat} (h : n < 32) :
    HexText n (encode (['0', '0'] ++ twoDigits n)) := by
  have hdigit : ∀ v < 16, IsHexDigit (code (Nat.digitChar v)) v := fun v hv => ⟨hv, .inl rfl⟩
  have hbytes : encode (['0', '0'] ++ twoDigits n)
      = [code '0', code '0', code (Nat.digitChar (n / 16)), code (Nat.digitChar (n % 16))] := by
    revert n
    decide
  have hcode : n = ((0 * 16 + 0) * 16 + n / 16) * 16 + n % 16 := by omega
  have htext := HexText.digits (hdigit 0 (by decide)) (hdigit 0 (by decide))
    (hdigit (n / 16) (by omega)) (hdigit (n % 16) (by omega))
  rw [← hcode] at htext
  rw [hbytes]
  exact htext

theorem charText_writeChar (c : Char) : CharText c (encode (writeChar c)) := by
  have hletter : ∀ {l c : Char}, (l, c) ∈ escapeLetters → encode ['\\', l] = [code '\\', code l] →
      CharText c (encode ['\\', l]) := fun h heq => heq ▸ .letter h
  rw [writeChar]
  iterate 7
    split
    · next h => subst h; exact hletter (by decide) rfl
  split
  · next hcontrol => exact .byCode (hexText_control hcontrol)
  · next hquote hbackslash _ _ _ _ _ hcontrol =>
      rw [Text.encode_cons, Text.encode_nil, List.append_nil]
      exact .plain (Char.not_lt.mp hcontrol) hquote hbackslash

theorem charsText_plain {cs : List Char} (h : ∀ c ∈ cs, ' ' ≤ c ∧ c ≠ '"' ∧ c ≠ '\\') :
    CharsText cs (encode cs) := by
  induction cs with
  | nil => exact .nil
  | cons c cs ih =>
      obtain ⟨hcontrol, hquote, hbackslash⟩ := h c List.mem_cons_self
      exact .cons (.plain hcontrol hquote hbackslash)
        (ih fun d hd => h d (List.mem_cons_of_mem _ hd))

/-- A quoted text is a text of the string. -/
theorem stringText_quoted (s : String) : StringText s (utf8 (quoted s)) := by
  have hchars : ∀ cs, CharsText cs (encode (cs.flatMap writeChar)) := by
    intro cs
    induction cs with
    | nil => exact .nil
    | cons c cs ih =>
        rw [List.flatMap_cons, Text.encode_append]
        exact .cons (charText_writeChar c) ih
  have h := StringText.quotes (hchars s.toList)
  rw [quoted, Text.utf8_ofList, Text.encode_append, Text.encode_cons]
  exact h

/-! ## Pieces -/

theorem padded_self {written : Bytes → Prop} {t : Bytes} (h : written t) : Padded written t := by
  have := Padded.pad (List.forall_mem_nil _) h (List.forall_mem_nil _)
  rwa [List.nil_append, List.append_nil] at this

theorem listed_intercalate {α β : Type} {item : α → Bytes → Prop} {f : β → α} {write : β → String}
    (h : ∀ y, item (f y) (utf8 (write y))) (y : β) (ys : List β) :
    Listed item ((y :: ys).map f) (utf8 (",".intercalate ((y :: ys).map write))) := by
  induction ys generalizing y with
  | nil =>
      rw [List.map_singleton, List.map_singleton, String.intercalate_singleton]
      exact .one (padded_self (h y))
  | cons z zs ih =>
      simp only [List.map_cons] at ih ⊢
      rw [String.intercalate_cons_cons, Text.utf8_append, Text.utf8_append, List.append_assoc]
      exact .cons (padded_self (h y)) (ih z)

theorem utf8_braces (s : String) :
    utf8 ("\x7b" ++ s ++ "\x7d") = code '\x7b' :: utf8 s ++ [code '\x7d'] := by
  have hopening : utf8 "\x7b" = [code '\x7b'] := by decide
  have hclosing : utf8 "\x7d" = [code '\x7d'] := by decide
  rw [Text.utf8_append, Text.utf8_append, hopening, hclosing, List.singleton_append]

theorem oneLine_intercalate {ss : List String} (h : ∀ s ∈ ss, OneLine (utf8 s)) :
    OneLine (utf8 (",".intercalate ss)) := by
  induction ss with
  | nil => exact oneLine_nil
  | cons s ss ih =>
      obtain ⟨hs, hss⟩ := List.forall_mem_cons.mp h
      cases ss with
      | nil => rwa [String.intercalate_singleton]
      | cons s' ss =>
          have hcomma : OneLine (utf8 ",") := by decide
          simp [String.intercalate_cons_cons, hs, hcomma, ih hss]

theorem enclosed_quotedList (ss : List String) :
    Enclosed '[' ']' StringText ss (utf8 (quotedList ss)) := by
  rw [quotedList, Text.utf8_append, Text.utf8_append]
  cases ss with
  | nil => exact .empty (List.forall_mem_nil _)
  | cons s ss =>
      have h : Listed StringText ((s :: ss).map id) _ := listed_intercalate stringText_quoted s ss
      rw [List.map_id] at h
      exact .items h

/-- A key and a text, both between quotes. -/
theorem memberText_quoted {value : Value → Bytes → Prop} (key s : String)
    (h : ∀ t, StringText s t → value (.string s) t) :
    MemberText value (key, .string s) (utf8 (quoted key ++ ":" ++ quoted s)) := by
  have hmember := MemberText.member (stringText_quoted key) (List.forall_mem_nil _)
    (List.forall_mem_nil _) (h _ (stringText_quoted s))
  rw [List.append_nil, List.append_assoc] at hmember
  rw [Text.utf8_append, Text.utf8_append, List.append_assoc]
  exact hmember

theorem valueText_string (depth : Nat) {s : String} {t : Bytes} (h : StringText s t) :
    ValueText depth (.string s) t := by
  cases depth with
  | zero => exact .string h
  | succ => exact .scalar (.string h)

end TestTriage.Json
