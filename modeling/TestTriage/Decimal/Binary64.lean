/-!
# Numbers with 53 significant bits

The values of the 64-bit binary floating-point format, without their sign, in exact arithmetic.
Every operation rounds its exact result to the nearest value, a tie to the even mantissa.
-/

namespace TestTriage.Decimal

/-- The value `mantissa · 2 ^ exponent`.  A value that rounding yields has a mantissa below `2 ^ 53`
and an exponent of at least `-1074`. -/
structure Binary64 where
  mantissa : Nat
  exponent : Int
  deriving Repr, DecidableEq

/-- Numerator and denominator of `num / den` divided by `base ^ exponent`. -/
def scaleBy (base num den : Nat) (exponent : Int) : Nat × Nat :=
  if 0 ≤ exponent then (num, den * Nat.pow base exponent.toNat)
  else (num * Nat.pow base (-exponent).toNat, den)

/-- The integer nearest to a quotient, a tie going to the even one. -/
def roundHalfEven (num den : Nat) : Nat :=
  let q := num / den
  let r := num % den
  if den < 2 * r ∨ (2 * r = den ∧ q % 2 = 1) then q + 1 else q

namespace Binary64

def zero : Binary64 := ⟨0, -1074⟩

/-- The exponent at which `num / den` has 53 bits in front of the point, or the least one. -/
def exponentOf (num den : Nat) : Int :=
  let guess : Int := (Nat.log2 num : Int) - Nat.log2 den - 52
  let (n, d) := scaleBy 2 num den guess
  max (if n < d * Nat.pow 2 52 then guess - 1 else guess) (-1074)

/-- The value nearest to `num / den`; none if it lies beyond the largest one. -/
def ofRatio (num den : Nat) : Option Binary64 :=
  if num = 0 then some zero
  else
    let e := exponentOf num den
    let (n, d) := scaleBy 2 num den e
    let m := roundHalfEven n d
    let v : Binary64 := if m = Nat.pow 2 53 then ⟨Nat.pow 2 52, e + 1⟩ else ⟨m, e⟩
    if 971 < v.exponent then none else some v

/-- The value as numerator and denominator. -/
def ratio (v : Binary64) : Nat × Nat := scaleBy 2 v.mantissa 1 (-v.exponent)

/-- The value nearest to `mantissa · 10 ^ exponent`. -/
def ofDecimal (mantissa : Nat) (exponent : Int) : Option Binary64 :=
  let (n, d) := scaleBy 10 mantissa 1 (-exponent)
  ofRatio n d

/-- The rounded product. -/
def mul (v w : Binary64) : Option Binary64 :=
  let (a, b) := v.ratio
  let (c, d) := w.ratio
  ofRatio (a * c) (b * d)

/-- The rounded quotient. -/
def div (v w : Binary64) : Option Binary64 :=
  let (a, b) := v.ratio
  let (c, d) := w.ratio
  ofRatio (a * d) (b * c)

end Binary64

end TestTriage.Decimal
