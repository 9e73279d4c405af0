import TestTriage.Proofs.Json.Rows

/-!
# Values are read back

A text of the grammar is read as the value it was written for, wherever it
stands (`takes_value`). The loops for lists and for objects are treated once
for any reader of items (`items_enclosed`) and of members
(`members_gathers`), so that what is said of them serves records with known
fields too.
-/

namespace TestTriage.Json

open Text (Bytes)

/-! ## Lists -/

/-- Listed items are a row, behind the opening bracket as well as behind a comma. -/
theorem row_listed {α : Type} {closing : Char} {written : α → Bytes → Prop} {first : Bool}
    {xs : List α} {l t : Bytes} (hlead : Lead first l) (h : Listed written xs t) :
    Row closing written first xs (l ++ (t ++ [code closing])) := by
  induction h generalizing first l with
  | one h =>
      obtain ⟨hbefore, htext, hbehind⟩ := h
      have hrow : Row closing written first _ _ :=
        .item (hlead.append hbefore.isSpacing) htext (.close hbehind.isSpacing)
      simpa only [List.append_assoc] using hrow
  | cons h _ ih =>
      obtain ⟨hbefore, htext, hbehind⟩ := h
      have hrow : Row closing written first _ _ :=
        .item (hlead.append hbefore.isSpacing) htext (ih (.comma hbehind.isSpacing isSpacing_nil))
      simpa only [List.append_assoc, List.cons_append, List.nil_append] using hrow

/-- The items of a list are all there, in the order of the text. -/
theorem items_enclosed {α : Type} {item : Read α} {written : α → Bytes → Prop} {xs : List α}
    (hitem : ∀ x t, written x t → Takes item x t) {t : Bytes} (h : Enclosed '[' ']' written xs t) :
    ∃ inner, t = code '[' :: inner
      ∧ ∀ rest, items item ((inner ++ rest).length + 1) true (inner ++ rest) = .ok (xs, rest) := by
  have hlimit : ∀ inner rest : Bytes, inner.length < (inner ++ rest).length + 1 := by
    intro inner rest
    rw [List.length_append]
    omega
  cases h with
  | empty hgap =>
      exact ⟨_ ++ [code ']'], rfl, fun rest =>
        items_row hitem (.close hgap.isSpacing) rest (hlimit _ rest)⟩
  | @items _ t h =>
      exact ⟨t ++ [code ']'], rfl, fun rest =>
        items_row hitem (row_listed (.first isSpacing_nil) h) rest (hlimit _ rest)⟩

/-! ## Objects -/

section Members

variable {σ : Type} (member : σ → String → Read σ)

/-- A member that takes what has been gathered from `g` to `g'`. -/
inductive Adds (g g' : σ) : Bytes → Prop where
  | member {key : String} {k after : Bytes} (hkey : StringText key k)
      (h : ∀ rest, Ends rest → member g key (after ++ rest) = .ok (g', rest)) :
      Adds g g' (k ++ after)

/-- Members parted by commas, with white space around each, that take what has
been gathered from the one to the other. -/
inductive Gathers : (g g' : σ) → Bytes → Prop where
  | one {g g' : σ} {t : Bytes} (h : Padded (Adds member g g') t) : Gathers g g' t
  | cons {g g' g'' : σ} {t ts : Bytes} (h : Padded (Adds member g g') t)
      (hs : Gathers g' g'' ts) : Gathers g g'' (t ++ code ',' :: ts)

variable {member} {g g' g'' : σ} {limit : Nat} {text after behind : Bytes}

theorem members_adds {first : Bool} {l : Bytes} (hlead : Lead first l) (h : Adds member g g' text)
    (hafter : Ends after) (hothers : members member limit false g' after = .ok (g'', behind)) :
    members member (limit + 1) first g (l ++ (text ++ after)) = .ok (g'', behind) := by
  obtain ⟨hkey, hmember⟩ := h
  rw [List.append_assoc, members_lead hlead hkey, hmember after hafter]
  exact hothers

/-- Members are read up to the closing brace, behind the opening one as well as
behind a comma. -/
theorem members_gathers {first : Bool} {l t : Bytes} (hlead : Lead first l)
    (h : Gathers member g g' t) (rest : Bytes) (hlimit : t.length + 1 < limit) :
    members member limit first g (l ++ (t ++ code '\x7d' :: rest)) = .ok (g', rest) := by
  induction h generalizing limit first l with
  | @one g g' t h =>
      obtain ⟨hbefore, htext, hbehind⟩ := h
      obtain ⟨limit, rfl⟩ : ∃ l, limit = l + 2 := ⟨limit - 2, by omega⟩
      have hends : Ends (code '\x7d' :: rest) := ends_cons.mpr (by simp)
      have hothers : members member (limit + 1) false g' _ = .ok (g', rest) :=
        members_close member limit false g' hbehind.isSpacing
      simp only [List.append_assoc]
      rw [← List.append_assoc]
      exact members_adds (hlead.append hbefore.isSpacing) htext
        (ends_spacing hbehind.isSpacing hends) hothers
  | cons h _ ih =>
      obtain ⟨hbefore, htext, hbehind⟩ := h
      obtain ⟨limit, rfl⟩ : ∃ l, limit = l + 1 := ⟨limit - 1, by omega⟩
      simp only [List.length_append, List.length_cons] at hlimit
      have hothers := @ih limit _ _ (.comma hbehind.isSpacing isSpacing_nil) (by omega)
      simp only [List.append_assoc, List.cons_append, List.nil_append] at hothers ⊢
      rw [← List.append_assoc]
      exact members_adds (hlead.append hbefore.isSpacing) htext
        (ends_spacing hbehind.isSpacing (ends_comma _)) hothers

end Members

/-! ## Values -/

/-- White space in front of a value is passed over. -/
theorem valueWith_gap {gap : Bytes} (hgap : IsGap gap) (inner : Option (Read Value)) (bs : Bytes) :
    valueWith inner (gap ++ bs) = valueWith inner bs := by
  rw [valueWith, valueWith, skipSpace_spacing hgap.isSpacing]

/-! What a value begins with says how it is read. -/

theorem valueWith_quote (inner : Option (Read Value)) (bs : Bytes) :
    valueWith inner (code '"' :: bs) = (do
      let (s, rest) ← string bs
      return (.string s, rest)) := rfl

theorem valueWith_bracket (item : Read Value) (bs : Bytes) :
    valueWith (some item) (code '[' :: bs) = (do
      let (xs, rest) ← items item (bs.length + 1) true bs
      return (.array xs, rest)) := rfl

theorem valueWith_brace (value : Read Value) (bs : Bytes) :
    valueWith (some value) (code '\x7b' :: bs) = (do
      let (ms, rest) ← objectMembers value bs
      return (.object ms, rest)) := rfl

theorem takes_scalar (inner : Option (Read Value)) {v : Value} {t : Bytes} (h : ScalarText v t) :
    Takes (valueWith inner) v t := by
  cases h with
  | null => exact ⟨⟨_, _, rfl, by decide, by decide⟩, fun rest _ => rfl⟩
  | true => exact ⟨⟨_, _, rfl, by decide, by decide⟩, fun rest _ => rfl⟩
  | false => exact ⟨⟨_, _, rfl, by decide, by decide⟩, fun rest _ => rfl⟩
  | string h =>
      obtain ⟨h⟩ := h
      refine ⟨⟨_, _, rfl, by decide, by decide⟩, fun rest _ => ?_⟩
      simp only [List.cons_append, List.append_assoc, List.nil_append]
      rw [valueWith_quote, string_append h]
      rfl
  | number h =>
      obtain ⟨b, bs, rfl, hb⟩ := h.numeral.begins
      have hletter : b ≠ code 'n' ∧ b ≠ code 't' ∧ b ≠ code 'f' ∧ b ≠ code ']'
          ∧ isSpace b = false := by
        rw [← Bool.not_eq_true, isSpace_iff]
        simp only [isDigit_iff, eq_code_iff, Ne] at hb ⊢
        simp at hb ⊢
        omega
      refine ⟨⟨b, bs, rfl, hletter.2.2.2.2, hletter.2.2.2.1⟩, fun rest hrest => ?_⟩
      have hread := h.read hrest
      rw [List.cons_append] at hread ⊢
      rw [valueWith, skipSpace_cons hletter.2.2.2.2]
      simp only [if_neg hletter.1, if_neg hletter.2.1, if_neg hletter.2.2.1, if_pos hb, hread, bind,
        Except.bind]
      rfl

theorem takes_array {value : Read Value} {written : Value → Bytes → Prop}
    (hvalue : ∀ v t, written v t → Takes value v t) {xs : List Value} {t : Bytes}
    (h : Enclosed '[' ']' written xs t) : Takes (valueWith (some value)) (.array xs) t := by
  obtain ⟨inner, rfl, hread⟩ := items_enclosed hvalue h
  refine ⟨⟨_, _, rfl, by decide, by decide⟩, fun rest _ => ?_⟩
  rw [List.cons_append, valueWith_bracket, hread rest]
  rfl

section Objects

variable {value : Read Value} {written : Value → Bytes → Prop}
  (hskip : ∀ {gap}, IsGap gap → ∀ bs, value (gap ++ bs) = value bs)
  (hvalue : ∀ v t, written v t → Takes value v t)

include hskip hvalue

theorem adds_member {m : String × Value} {t : Bytes} (h : MemberText written m t)
    (g : List (String × Value)) : Adds (anyMember value) g (m :: g) t := by
  obtain ⟨hkey, hbefore, hbehind, hx⟩ := h
  rw [List.append_assoc, List.cons_append, List.append_assoc]
  refine .member hkey fun rest hrest => ?_
  simp only [List.append_assoc, List.cons_append]
  simp only [anyMember, colon_append hbefore.isSpacing, bind, Except.bind, hskip hbehind,
    (hvalue _ _ hx).reads rest hrest]
  rfl

theorem gathers_members {ms : List (String × Value)} {t : Bytes}
    (h : Listed (MemberText written) ms t) (g : List (String × Value)) :
    Gathers (anyMember value) g (ms.reverse ++ g) t := by
  induction h generalizing g with
  | one h =>
      obtain ⟨hbefore, htext, hbehind⟩ := h
      exact .one (.pad hbefore (adds_member hskip hvalue htext g) hbehind)
  | cons h _ ih =>
      obtain ⟨hbefore, htext, hbehind⟩ := h
      rw [List.reverse_cons, List.append_assoc, List.singleton_append]
      exact .cons (.pad hbefore (adds_member hskip hvalue htext g) hbehind) (ih _)

/-- The members of an object are all there, in the order of the text. -/
theorem objectMembers_enclosed {ms : List (String × Value)} {t : Bytes}
    (h : Enclosed '\x7b' '\x7d' (MemberText written) ms t) :
    ∃ inner, t = code '\x7b' :: inner
      ∧ ∀ rest, objectMembers value (inner ++ rest) = .ok (ms, rest) := by
  cases h with
  | empty hgap =>
      refine ⟨_ ++ [code '\x7d'], rfl, fun rest => ?_⟩
      rw [List.append_assoc, List.singleton_append]
      simp only [objectMembers, members_close (anyMember value) _ true [] hgap.isSpacing, bind,
        Except.bind]
      rfl
  | @items _ t h =>
      refine ⟨t ++ [code '\x7d'], rfl, fun rest => ?_⟩
      rw [List.append_assoc, List.singleton_append]
      have hlimit : t.length + 1 < (t ++ code '\x7d' :: rest).length + 1 := by simp
      have hgathered := members_gathers (.first isSpacing_nil) (gathers_members hskip hvalue h [])
        rest hlimit
      rw [List.nil_append] at hgathered
      simp only [objectMembers, hgathered, bind, Except.bind, List.append_nil, List.reverse_reverse]
      rfl

theorem takes_object {ms : List (String × Value)} {t : Bytes}
    (h : Enclosed '\x7b' '\x7d' (MemberText written) ms t) :
    Takes (valueWith (some value)) (.object ms) t := by
  obtain ⟨inner, rfl, hread⟩ := objectMembers_enclosed hskip hvalue h
  refine ⟨⟨_, _, rfl, by decide, by decide⟩, fun rest _ => ?_⟩
  rw [List.cons_append, valueWith_brace, hread rest]
  rfl

end Objects

theorem value_gap (depth : Nat) {gap : Bytes} (hgap : IsGap gap) (bs : Bytes) :
    value depth (gap ++ bs) = value depth bs := by
  cases depth with
  | zero => exact valueWith_gap hgap none bs
  | succ depth => exact valueWith_gap hgap (some (value depth)) bs

/-- Every text of a value is read as this value. -/
theorem takes_value {depth : Nat} {v : Value} {t : Bytes} (h : ValueText depth v t) :
    Takes (value depth) v t := by
  induction depth generalizing v t with
  | zero => exact takes_scalar none h
  | succ depth ih =>
      cases h with
      | scalar h => exact takes_scalar _ h
      | array h => exact takes_array (fun _ _ h => ih h) h
      | object h => exact takes_object (value_gap depth) (fun _ _ h => ih h) h

/-! ## Whole texts -/

/-- An object with white space around it is read with all its members. -/
theorem readObject_padded {ms : List (String × Value)} {text : Bytes}
    (h : Padded (ValueText depthLimit (.object ms)) text) : readObject text = .ok ms := by
  obtain ⟨hbefore, htext, hbehind⟩ := h
  have htext : CompoundText (ValueText (depthLimit - 1)) (.object ms) _ := htext
  cases htext with
  | scalar h => cases h
  | object h =>
      obtain ⟨inner, rfl, hread⟩ :=
        objectMembers_enclosed (value_gap (depthLimit - 1)) (fun _ _ h => takes_value h) h
      have hend := skipSpace_spacing hbehind.isSpacing []
      rw [List.append_nil] at hend
      rw [readObject, whole, object, List.append_assoc, skipSpace_spacing hbefore.isSpacing,
        List.cons_append, skipSpace_cons (by decide)]
      simp only [if_true, hread, hend]
      rfl

end TestTriage.Json
