/-!
Finite binary64 numbers in exact arithmetic: rounding a quotient to the nearest double, half to
even, and the shortest digits that read back.
-/

set_option autoImplicit false

namespace SwaggerProvider

/-- The number `± mantissa · 2 ^ exponent`. Rounding gives the canonical form: the exponent is at
least -1074, and the mantissa has 53 bits unless the exponent is that least one. -/
structure Double where
  negative : Bool
  mantissa : Nat
  exponent : Int
  deriving DecidableEq

namespace Double

def zero (negative : Bool) : Double := ⟨negative, 0, -1074⟩

def roundQuotient (num den : Nat) : Nat :=
  let q := num / den
  let r := num % den
  if 2 * r > den then q + 1 else if 2 * r < den then q else q + q % 2

def scaledDown (num den : Nat) (e : Int) : Nat × Nat :=
  if 0 ≤ e then (num, den * Nat.pow 2 e.toNat) else (num * Nat.pow 2 (-e).toNat, den)

/-- The double next to `num / den`; none when that is beyond the largest one. -/
def ofRatio (negative : Bool) (num den : Nat) : Option Double :=
  if num = 0 then some (zero negative)
  else
    let guess : Int := (Nat.log2 num : Int) - Nat.log2 den - 53
    let scaled := scaledDown num den guess
    let fitted := if scaled.1 / scaled.2 ≥ Nat.pow 2 53 then guess + 1 else guess
    let e := max fitted (-1074)
    let final := scaledDown num den e
    let m := roundQuotient final.1 final.2
    let canonical : Double :=
      if m = Nat.pow 2 53 then ⟨negative, Nat.pow 2 52, e + 1⟩ else ⟨negative, m, e⟩
    if canonical.exponent > 971 then none else some canonical

def ratio (d : Double) : Nat × Nat :=
  if 0 ≤ d.exponent then (d.mantissa * Nat.pow 2 d.exponent.toNat, 1)
  else (d.mantissa, Nat.pow 2 (-d.exponent).toNat)

def isZero (d : Double) : Bool := d.mantissa == 0

def same (a b : Double) : Bool := a = b || (a.isZero && b.isZero)

/-- The double next to `digits · 10 ^ exponent`. Exponents far outside the range are settled by
their size alone. -/
def ofDecimal (negative : Bool) (digits : Nat) (exponent : Int) : Option Double :=
  if digits = 0 then some (zero negative)
  else
    let size : Int := (Nat.log2 digits : Int) * 3 / 10 + exponent
    if size > 400 then none
    else if size < -500 then some (zero negative)
    else if 0 ≤ exponent then ofRatio negative (digits * Nat.pow 10 exponent.toNat) 1
    else ofRatio negative digits (Nat.pow 10 (-exponent).toNat)

def gridLe (digits : Nat) (e : Int) (quarters : Nat) (q : Int) : Bool :=
  digits * Nat.pow 10 e.toNat * Nat.pow 2 (2 - q).toNat ≤
    quarters * Nat.pow 2 (q - 2).toNat * Nat.pow 10 (-e).toNat

def gridGe (digits : Nat) (e : Int) (quarters : Nat) (q : Int) : Bool :=
  quarters * Nat.pow 2 (q - 2).toNat * Nat.pow 10 (-e).toNat ≤
    digits * Nat.pow 10 e.toNat * Nat.pow 2 (2 - q).toNat

/-- Decides whether the decimal rounds to the positive double `m · 2 ^ q`: it lies between the
midpoints to both neighbours, ends included when the mantissa is even. -/
def readsBack (m : Nat) (q : Int) (digits : Nat) (e : Int) : Bool :=
  let low := if m = Nat.pow 2 52 ∧ q > -1074 then 4 * m - 1 else 4 * m - 2
  let high := 4 * m + 2
  if m % 2 = 0 then gridGe digits e low q && gridLe digits e high q
  else !gridLe digits e low q && !gridGe digits e high q

def magnitude (m : Nat) (q : Int) : Int :=
  let guess := ((Nat.log2 m : Int) + q) * 30103 / 100000
  if gridLe 1 (guess + 1) (4 * m) q then guess + 1
  else if gridLe 1 guess (4 * m) q then guess
  else guess - 1

def gridFloor (m : Nat) (q : Int) (e : Int) : Nat :=
  (m * Nat.pow 2 q.toNat * Nat.pow 10 (-e).toNat) / (Nat.pow 2 (-q).toNat * Nat.pow 10 e.toNat)

def onGrid (m : Nat) (q : Int) (e : Int) : Option Nat :=
  let lower := gridFloor m q e
  let lowerFits := readsBack m q lower e
  let upperFits := readsBack m q (lower + 1) e
  if lowerFits && upperFits then
    let belowMiddle := gridGe (2 * lower + 1) e (8 * m) q
    let aboveMiddle := gridLe (2 * lower + 1) e (8 * m) q
    if belowMiddle && aboveMiddle then some (lower + lower % 2)
    else some (if belowMiddle then lower else lower + 1)
  else if lowerFits then some lower
  else if upperFits then some (lower + 1)
  else none

def shortestFrom (m : Nat) (q : Int) (top : Int) : Nat → Nat → Nat × Int
  | 0, n => (gridFloor m q (top + 1 - n), top + 1 - n)
  | tries + 1, n =>
    match onGrid m q (top + 1 - n) with
    | some digits => (digits, top + 1 - n)
    | none => shortestFrom m q top tries (n + 1)

/-- Moves final zeros into the exponent; they arise where a neighbour carries. -/
def withoutZeros : Nat → Nat × Int → Nat × Int
  | 0, d => d
  | steps + 1, (digits, e) =>
    if digits ≠ 0 ∧ digits % 10 = 0 then withoutZeros steps (digits / 10, e + 1) else (digits, e)

/-- The fewest digits, with their exponent, that round to a positive double. -/
def shortest (m : Nat) (q : Int) : Nat × Int :=
  withoutZeros 17 (shortestFrom m q (magnitude m q) 17 1)

end Double

end SwaggerProvider
