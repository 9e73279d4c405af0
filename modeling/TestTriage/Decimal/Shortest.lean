import TestTriage.Decimal.Binary64

/-!
# The shortest decimal that reads back

A value is written with the fewest decimal digits that read back as the same value, and of those
with the digits nearest to it.  The two written forms differ only in when they use an exponent.
-/

namespace TestTriage.Decimal

namespace Binary64

/-- The power of ten of the first decimal digit. -/
def leadingPower (v : Binary64) : Int :=
  let (a, b) := v.ratio
  let atMost (p : Int) : Bool :=
    let (n, d) := scaleBy 10 a b p
    d ≤ n
  ((List.range 640).map fun (k : Nat) => (309 : Int) - k).find? atMost |>.getD (-324)

/-- The neighbour of the value on the grid of the multiples of `10 ^ power` that reads back, the
nearer one if both do. -/
def onGrid? (v : Binary64) (power : Int) : Option Nat :=
  let (a, b) := v.ratio
  let (n, d) := scaleBy 10 a b power
  let low := n / d
  let readsBack (c : Nat) : Bool := ofDecimal c power == some v
  let nearer := if 2 * (n % d) ≤ d then [low, low + 1] else [low + 1, low]
  nearer.find? readsBack

/-- Digits and power of ten of the shortest decimal that reads back. -/
def shortest (v : Binary64) : Nat × Int :=
  if v.mantissa = 0 then (0, 0)
  else
    let top := v.leadingPower
    let grids := (List.range 17).map fun (k : Nat) => top - k
    match grids.findSome? fun power => (v.onGrid? power).map (·, power) with
    -- just below a power of ten the upper neighbour may be that power
    | some (10, power) => (1, power + 1)
    | found => found.getD (0, 0)

end Binary64

/-- Decimal digits of a number. -/
def digits (n : Nat) : List Char := Nat.toDigits 10 n

/-- Digits and a power of ten, written without exponent and with a point. -/
def positional (mantissa : Nat) (power : Int) : List Char :=
  let ds := digits mantissa
  if 0 ≤ power then ds ++ List.replicate power.toNat '0' ++ ['.', '0']
  else
    let places := (-power).toNat
    if places < ds.length then ds.take (ds.length - places) ++ '.' :: ds.drop (ds.length - places)
    else '0' :: '.' :: List.replicate (places - ds.length) '0' ++ ds

/-- Digits and a power of ten, written with one digit in front of the point and an exponent. -/
def scientific (mantissa : Nat) (power : Int) : List Char :=
  let ds := digits mantissa
  let exponent := power + (ds.length - 1 : Nat)
  let fraction := if ds.length ≤ 1 then [] else '.' :: ds.drop 1
  ds.take 1 ++ fraction ++ 'e' :: (if exponent < 0 then '-' else '+') :: digits exponent.natAbs

/-- The shortest decimal: positional if the point falls within or near the first sixteen digits,
with an exponent otherwise. -/
def short (v : Binary64) : List Char :=
  let (mantissa, power) := v.shortest
  let point := power + (digits mantissa).length
  if -5 < point ∧ point ≤ 16 then positional mantissa power else scientific mantissa power

/-- The shortest decimal, always positional. -/
def long (v : Binary64) : List Char :=
  let (mantissa, power) := v.shortest
  positional mantissa power

end TestTriage.Decimal
