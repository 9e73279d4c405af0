import TestTriage.Proofs.Json.Grammar

/-!
# Numerals are read whole

The reader of numbers looks ahead: a digit more might belong to what it
has collected, and an exponent to the digits in front of it. What stands
behind a value in JSON is none of these (`Ends`), so a numeral is judged by
itself. It is a number, the same in front of everything that may follow it,
or else it is out of range (`judged_number`).
-/

namespace TestTriage.Json

open Text (Bytes)

/-! ## What may follow -/

/-- What may stand behind a value: white space, a comma, a closing bracket or
the end. -/
def Ends (rest : Bytes) : Prop :=
  ∀ b ∈ rest.head?, isSpace b = true ∨ b = code ',' ∨ b = code ']' ∨ b = code '\x7d'

def NoDigit (bs : Bytes) : Prop := ∀ b ∈ bs.head?, isDigit b = false

theorem ends_nil : Ends [] := fun _ hb => nomatch hb

theorem ends_cons {b : UInt8} {bs : Bytes} :
    Ends (b :: bs) ↔ isSpace b = true ∨ b = code ',' ∨ b = code ']' ∨ b = code '\x7d' := by
  simp [Ends]

theorem noDigit_cons {b : UInt8} {bs : Bytes} : NoDigit (b :: bs) ↔ isDigit b = false := by
  simp [NoDigit]

theorem Ends.noDigit {rest : Bytes} (h : Ends rest) : NoDigit rest := by
  intro b hb
  have hb := h b hb
  rw [← Bool.not_eq_true, isDigit_iff]
  simp [isSpace_iff, eq_code_iff] at hb
  omega

/-- What may follow a value carries no number on. -/
theorem Ends.ne_code {b : UInt8} {rest : Bytes} (h : Ends (b :: rest)) :
    b ≠ code '.' ∧ b ≠ code 'e' ∧ b ≠ code 'E' := by
  have hb := ends_cons.mp h
  simp only [Ne, eq_code_iff, isSpace_iff] at hb ⊢
  simp at hb ⊢
  omega

theorem noDigit_exponent {e rest : Bytes} (he : ExponentText e) (h : Ends rest) :
    NoDigit (e ++ rest) := by
  cases he with
  | none => exact h.noDigit
  | digits hletter =>
      refine noDigit_cons.mpr ?_
      rcases hletter with rfl | rfl <;> decide

theorem noDigit_fraction {f e rest : Bytes} (hf : FractionText f) (he : ExponentText e)
    (h : Ends rest) : NoDigit (f ++ (e ++ rest)) := by
  cases hf with
  | none =>
      rw [List.nil_append]
      exact noDigit_exponent he h
  | digits => exact noDigit_cons.mpr (by decide)

/-! ## Digits -/

theorem AllDigits.head {d : UInt8} {ds : Bytes} (h : AllDigits (d :: ds)) : isDigit d = true :=
  h d List.mem_cons_self

theorem AllDigits.tail {d : UInt8} {ds : Bytes} (h : AllDigits (d :: ds)) : AllDigits ds :=
  fun b hb => h b (List.mem_cons_of_mem _ hb)

theorem dropWhile_digits {ds rest : Bytes} (hds : AllDigits ds) (h : NoDigit rest) :
    (ds ++ rest).dropWhile isDigit = rest := by
  induction ds with
  | nil =>
      cases rest with
      | nil => rfl
      | cons b bs => rw [List.nil_append, List.dropWhile_cons, noDigit_cons.mp h]; rfl
  | cons d ds ih =>
      rw [List.cons_append, List.dropWhile_cons, if_pos hds.head, ih hds.tail]

/-- How many digits are collected is told by the digits alone. -/
theorem exists_collect (limit significand : Nat) {ds : Bytes} (hds : AllDigits ds) :
    ∃ collected others, AllDigits others ∧ others.length ≤ ds.length
      ∧ ∀ rest, NoDigit rest →
          collect limit significand (ds ++ rest) = (collected, others ++ rest) := by
  induction ds generalizing significand with
  | nil =>
      refine ⟨significand, [], hds, Nat.le_refl _, fun rest h => ?_⟩
      cases rest with
      | nil => rfl
      | cons b bs => simp [collect, noDigit_cons.mp h]
  | cons d ds ih =>
      by_cases hlimit : significand * 10 + digitValue d < limit
      · obtain ⟨collected, others, hothers, hle, h⟩ :=
          ih (significand * 10 + digitValue d) hds.tail
        refine ⟨collected, others, hothers, Nat.le_succ_of_le hle, fun rest hrest => ?_⟩
        rw [List.cons_append, collect, if_pos ⟨hds.head, hlimit⟩, h rest hrest]
      · refine ⟨significand, d :: ds, hds, Nat.le_refl _, fun rest _ => ?_⟩
        rw [List.cons_append, collect, if_neg fun h => hlimit h.2]

/-! ## Judging by itself -/

/-- Whatever follows a text, the reader takes the text for one number, or for
out of range. -/
inductive Judged (read : Read Number) (t : Bytes) : Prop where
  | number (n : Number) (h : ∀ rest, Ends rest → read (t ++ rest) = .ok (n, rest))
  | outOfRange (h : ∀ rest, Ends rest → ∃ left, read (t ++ rest) = .error ⟨.numberOutOfRange, left⟩)

theorem Judged.congr {read read' : Read Number} {t t' : Bytes} (h : Judged read t)
    (heq : ∀ rest, Ends rest → read' (t' ++ rest) = read (t ++ rest)) : Judged read' t' := by
  cases h with
  | number n h => exact .number n fun rest hrest => (heq rest hrest).trans (h rest hrest)
  | outOfRange h =>
      refine .outOfRange fun rest hrest => ?_
      rw [heq rest hrest]
      exact h rest hrest

variable (negative : Bool) (significand : Nat) (exponent : Int)

theorem judged_float : Judged (float negative significand exponent) [] := by
  cases h : floatOf significand exponent with
  | some v => exact .number (.float negative v) fun rest _ => by simp [float, h]
  | none => exact .outOfRange fun rest _ => ⟨rest.length, by simp [float, h, faultBefore]⟩

/-- Behind the sign only the digits that are left over are looked at. -/
theorem exponentPart_append {d : UInt8} {sign ds others : Bytes} {e : Nat} (hsign : SignText sign)
    (hds : AllDigits (d :: ds))
    (hcollect : ∀ rest, NoDigit rest →
      collect exponentLimit (digitValue d) (ds ++ rest) = (e, others ++ rest)) :
    ∃ down : Bool, ∀ rest, NoDigit rest →
      exponentPart negative significand exponent (sign ++ d :: ds ++ rest)
        = match others ++ rest with
          | d :: behind =>
            if isDigit d then
              if significand ≠ 0 ∧ !down then faultBefore .numberOutOfRange behind
              else .ok (.float negative .zero, behind.dropWhile isDigit)
            else float negative significand (if down then exponent - e else exponent + e)
              (d :: behind)
          | [] => float negative significand (if down then exponent - e else exponent + e) [] := by
  have hplus : d ≠ code '+' ∧ d ≠ code '-' := by
    have := isDigit_iff.mp hds.head
    simp [eq_code_iff]
    omega
  cases hsign with
  | none =>
      refine ⟨false, fun rest hrest => ?_⟩
      simp only [exponentPart, List.nil_append, List.cons_append, if_neg hplus.1, if_neg hplus.2,
        hds.head, Bool.not_true, Bool.false_eq_true, if_false, hcollect rest hrest]
      cases others ++ rest <;> rfl
  | plus =>
      refine ⟨false, fun rest hrest => ?_⟩
      simp only [exponentPart, List.nil_append, List.cons_append, if_pos, hds.head,
        Bool.not_true, Bool.false_eq_true, if_false, hcollect rest hrest]
      cases others ++ rest <;> rfl
  | minus =>
      refine ⟨true, fun rest hrest => ?_⟩
      simp only [exponentPart, List.nil_append, List.cons_append, if_pos, hds.head,
        show code '-' ≠ code '+' by decide, Bool.not_true, Bool.false_eq_true, if_false,
        hcollect rest hrest]
      cases others ++ rest <;> rfl

theorem judged_exponentPart {d : UInt8} {sign ds : Bytes} (hsign : SignText sign)
    (hds : AllDigits (d :: ds)) :
    Judged (exponentPart negative significand exponent) (sign ++ d :: ds) := by
  obtain ⟨e, others, hothers, -, hcollect⟩ :=
    exists_collect exponentLimit (digitValue d) hds.tail
  obtain ⟨down, hbehind⟩ :=
    exponentPart_append negative significand exponent hsign hds hcollect
  cases others with
  | nil =>
      refine (judged_float negative significand (if down then exponent - e
        else exponent + e)).congr fun rest hrest => ?_
      rw [hbehind rest hrest.noDigit]
      cases rest with
      | nil => rfl
      | cons b bs => simp [noDigit_cons.mp hrest.noDigit]
  | cons o os =>
      -- the exponent has more digits than are collected
      by_cases hover : significand ≠ 0 ∧ (!down) = true
      · refine .outOfRange fun rest hrest => ⟨(os ++ rest).length, ?_⟩
        rw [hbehind rest hrest.noDigit, List.cons_append]
        simp only [hothers.head, if_true, if_pos hover]
        rfl
      · refine .number (.float negative .zero) fun rest hrest => ?_
        rw [hbehind rest hrest.noDigit, List.cons_append]
        simp only [hothers.head, if_true, if_neg hover]
        rw [dropWhile_digits hothers.tail hrest.noDigit]

theorem judged_exponent {e : Bytes} (he : ExponentText e) :
    Judged (exponentOrEnd negative significand exponent) e := by
  cases he with
  | none =>
      refine (judged_float negative significand exponent).congr fun rest hrest => ?_
      cases rest with
      | nil => rfl
      | cons b bs =>
          obtain ⟨-, hsmall, hcapital⟩ := hrest.ne_code
          simp [exponentOrEnd, hsmall, hcapital]
  | digits hletter hsign hds =>
      refine (judged_exponentPart negative significand exponent hsign hds).congr fun rest _ => ?_
      simp [exponentOrEnd, hletter]

theorem judged_fractionPart {d : UInt8} {ds e : Bytes} (hds : AllDigits (d :: ds))
    (he : ExponentText e) : Judged (fractionPart negative significand exponent) (d :: ds ++ e) := by
  obtain ⟨collected, others, hothers, hle, hcollect⟩ :=
    exists_collect significandLimit significand hds
  have hexponent : Judged (exponentOrEnd negative collected
      (exponent - ((d :: ds).length - others.length : Nat))) e := judged_exponent _ _ _ he
  refine hexponent.congr fun rest hrest => ?_
  have hnext := noDigit_exponent he hrest
  have hplaces : (d :: ds ++ (e ++ rest)).length - (others ++ (e ++ rest)).length
      = (d :: ds).length - others.length := by
    simp only [List.length_append]
    omega
  rw [List.append_assoc]
  rw [List.cons_append] at hplaces ⊢
  simp only [fractionPart, hds.head, Bool.not_true, Bool.false_eq_true, if_false]
  rw [← List.cons_append, hcollect _ hnext]
  simp only [dropWhile_digits hothers hnext]
  rw [List.cons_append, hplaces]

/-- What follows the integer digits, of which some may not have been collected. -/
theorem judged_afterInteger {ds f e : Bytes} (hds : AllDigits ds) (hf : FractionText f)
    (he : ExponentText e) : Judged (afterInteger negative significand) (ds ++ f ++ e) := by
  have hbehind : ∀ rest, Ends rest →
      (ds ++ f ++ e ++ rest).dropWhile isDigit = f ++ (e ++ rest) := by
    intro rest hrest
    rw [List.append_assoc, List.append_assoc, dropWhile_digits hds (noDigit_fraction hf he hrest)]
  have hdropped : ∀ rest,
      (ds ++ f ++ e ++ rest).length - (f ++ (e ++ rest)).length = ds.length := by
    intro rest
    simp only [List.length_append]
    omega
  cases hf with
  | digits hfraction =>
      refine (judged_fractionPart negative significand ds.length hfraction he).congr
        fun rest hrest => ?_
      simp only [afterInteger, hbehind rest hrest, hdropped rest]
      simp
  | none =>
      cases he with
      | digits hletter hsign hexponent =>
          refine (judged_exponentPart negative significand ds.length hsign hexponent).congr
            fun rest hrest => ?_
          have hpoint : ∀ l, l = code 'e' ∨ l = code 'E' → l ≠ code '.' := by
            rintro _ (rfl | rfl) <;> decide
          simp only [afterInteger, hbehind rest hrest, hdropped rest]
          simp [hpoint _ hletter, hletter]
      | none =>
          -- neither a fraction nor an exponent: an integer, unless digits were dropped
          have hplain : ∀ rest, Ends rest →
              afterInteger negative significand (ds ++ [] ++ [] ++ rest)
                = if ds.length = 0 then .ok (integerOf negative significand, rest)
                  else float negative significand ds.length rest := by
            intro rest hrest
            simp only [afterInteger, hbehind rest hrest, hdropped rest]
            simp only [List.nil_append]
            cases rest with
            | nil => rfl
            | cons b bs =>
                obtain ⟨hpoint, hsmall, hcapital⟩ := hrest.ne_code
                simp only [hpoint, hsmall, hcapital, or_self, if_false]
          by_cases hempty : ds.length = 0
          · refine .number (integerOf negative significand) fun rest hrest => ?_
            rw [hplain rest hrest, if_pos hempty]
          · refine (judged_float negative significand ds.length).congr fun rest hrest => ?_
            rw [hplain rest hrest, if_neg hempty, List.nil_append]

/-! ## Whole numerals -/

theorem IntegerText.begins {i : Bytes} (h : IntegerText i) :
    ∃ d ds, i = d :: ds ∧ isDigit d = true := by
  cases h with
  | zero => exact ⟨code '0', [], rfl, by decide⟩
  | digits hd => exact ⟨_, _, rfl, hd⟩

/-- A numeral begins with its sign or a digit. -/
theorem Numeral.begins {t : Bytes} (h : Numeral t) :
    ∃ b bs, t = b :: bs ∧ (b = code '-' ∨ isDigit b = true) := by
  cases h with
  | negative => exact ⟨_, _, rfl, .inl rfl⟩
  | positive hi =>
      obtain ⟨d, ds, rfl, hd⟩ := hi.begins
      exact ⟨d, _, rfl, .inr hd⟩

theorem judged_unsigned {i f e : Bytes} (hi : IntegerText i) (hf : FractionText f)
    (he : ExponentText e) : Judged (unsigned negative) (i ++ f ++ e) := by
  cases hi with
  | zero =>
      have hafter : Judged (afterInteger negative 0) ([] ++ f ++ e) :=
        judged_afterInteger negative 0 (List.forall_mem_nil _) hf he
      refine hafter.congr fun rest hrest => ?_
      have hnext := noDigit_fraction hf he hrest
      simp only [List.cons_append, List.nil_append, List.append_assoc, unsigned, if_true]
      cases hbehind : f ++ (e ++ rest) with
      | nil => rfl
      | cons b bs => simp [noDigit_cons.mp (hbehind ▸ hnext)]
  | @digits d ds hd hzero hds =>
      obtain ⟨collected, others, hothers, -, hcollect⟩ :=
        exists_collect significandLimit (digitValue d) hds
      have hafter : Judged (afterInteger negative collected) (others ++ f ++ e) :=
        judged_afterInteger negative collected hothers hf he
      refine hafter.congr fun rest hrest => ?_
      have hnext := noDigit_fraction hf he hrest
      simp only [List.cons_append, List.append_assoc, unsigned, if_neg hzero, if_pos hd,
        hcollect _ hnext]

/-- A numeral is judged by itself, whatever follows it. -/
theorem judged_number {t : Bytes} (h : Numeral t) : Judged number t := by
  cases h with
  | negative hi hf he =>
      refine (judged_unsigned true hi hf he).congr fun rest _ => ?_
      simp [number]
  | positive hi hf he =>
      refine (judged_unsigned false hi hf he).congr fun rest _ => ?_
      obtain ⟨d, ds, rfl, hd⟩ := hi.begins
      have hsign : d ≠ code '-' := by
        have := isDigit_iff.mp hd
        simp [eq_code_iff]
        omega
      simp [number, hsign]

/-- A number within the range is read off what it stands in front of. -/
theorem NumberText.read {n : Number} {t : Bytes} (h : NumberText n t) {rest : Bytes}
    (hrest : Ends rest) : number (t ++ rest) = .ok (n, rest) := by
  cases judged_number h.numeral with
  | number m hm =>
      have halone := hm [] ends_nil
      rw [List.append_nil, h.inRange] at halone
      cases halone
      exact hm rest hrest
  | outOfRange hout =>
      obtain ⟨left, halone⟩ := hout [] ends_nil
      rw [List.append_nil, h.inRange] at halone
      cases halone

end TestTriage.Json
