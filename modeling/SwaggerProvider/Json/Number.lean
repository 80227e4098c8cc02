import SwaggerProvider.Json.Basic

/-!
Reading and writing the numbers of JSON texts. Of a number that is not whole, the leading digits
that fit in 64 bits are rounded to a double, which is then scaled by rounded powers of ten.
-/

set_option autoImplicit false

namespace SwaggerProvider

namespace Number

def digitValue? (c : Char) : Option Nat :=
  if '0' ≤ c ∧ c ≤ '9' then some (c.toNat - 48) else none

def leadingDigits : List Char → List Nat × List Char
  | [] => ([], [])
  | c :: rest =>
    match digitValue? c with
    | some d => let (ds, tail) := leadingDigits rest; (d :: ds, tail)
    | none => ([], c :: rest)

/-- Extends a significand by digits as long as it fits in 64 bits; the digits that do not fit are
left over. -/
def absorb (significand : Nat) : List Nat → Nat × List Nat
  | [] => (significand, [])
  | d :: ds =>
    if 10 * significand + d < Nat.pow 2 64 then absorb (10 * significand + d) ds
    else (significand, d :: ds)

def timesPower (d : Double) (exponent : Nat) : Option Double := do
  let power ← Double.ofDecimal false 1 exponent
  Double.ofRatio d.negative (d.ratio.1 * power.ratio.1) (d.ratio.2 * power.ratio.2)

def overPower (d : Double) (exponent : Nat) : Option Double := do
  let power ← Double.ofDecimal false 1 exponent
  Double.ofRatio d.negative (d.ratio.1 * power.ratio.2) (d.ratio.2 * power.ratio.1)

/-- Steps of 308 places lead into the range where one power of ten is enough. After three of them
nothing is left of a significand of 64 bits. -/
def scaleSteps : Nat → Double → Int → Option Double
  | 0, d, _ => some d
  | steps + 1, d, exponent =>
    if exponent.natAbs ≤ 308 then
      if 0 ≤ exponent then timesPower d exponent.toNat else overPower d exponent.natAbs
    else if d.isZero then some d
    else if 0 ≤ exponent then none
    else (overPower d 308).bind fun smaller => scaleSteps steps smaller (exponent + 308)

def scaled (negative : Bool) (significand : Nat) (exponent : Int) : Option Double :=
  (Double.ofRatio negative significand 1).bind fun d => scaleSteps 4 d exponent

/-- Reads the part from `e` on; `none` inside means that no exponent follows. -/
def readExponent : List Char → Option (Option (Bool × Nat) × List Char)
  | 'e' :: rest => signed rest
  | 'E' :: rest => signed rest
  | cs => some (none, cs)
where
  signed (cs : List Char) : Option (Option (Bool × Nat) × List Char) :=
    let (positive, body) := match cs with
      | '+' :: rest => (true, rest)
      | '-' :: rest => (false, rest)
      | _ => (true, cs)
    match leadingDigits body with
    | ([], _) => none
    | (ds, rest) => some (some (positive, ds.foldl (fun n d => 10 * n + d) 0), rest)

def applyExponent (negative : Bool) (significand : Nat) (start : Int) :
    Option (Bool × Nat) → Option Double
  | none => scaled negative significand start
  | some (positive, e) =>
    if e ≤ 2147483647 then scaled negative significand (if positive then start + e else start - e)
    else if significand ≠ 0 ∧ positive then none
    else some (Double.zero negative)

def whole (negative : Bool) (significand : Nat) : Option Number :=
  if !negative then some (.int significand)
  else if 0 < significand ∧ significand ≤ Nat.pow 2 63 then some (.int (-(significand : Int)))
  else (Double.ofRatio true significand 1).map .double

def readUnsigned (negative : Bool) (cs : List Char) : Option (Number × List Char) := do
  let (ds, rest) := leadingDigits cs
  if ds.isEmpty || (ds.head? == some 0 && ds.length > 1) then none
  let (significand, dropped) := absorb 0 ds
  match rest with
  | '.' :: tail =>
    let (fs, rest) := leadingDigits tail
    if fs.isEmpty then none
    let (significand, left) := absorb significand fs
    let start : Int := dropped.length - (fs.length - left.length : Nat)
    let (exponent, rest) ← readExponent rest
    let d ← applyExponent negative significand start exponent
    some (.double d, rest)
  | _ =>
    let (exponent, tail) ← readExponent rest
    if exponent.isNone && dropped.isEmpty then
      (whole negative significand).map fun n => (n, tail)
    else
      (applyExponent negative significand dropped.length exponent).map fun d => (.double d, tail)

def read : List Char → Option (Number × List Char)
  | '-' :: rest => readUnsigned true rest
  | cs => readUnsigned false cs

def zeros (n : Nat) : String := String.ofList (List.replicate n '0')

def digitsText (n : Nat) : List Char := Nat.toDigits 10 n

/-- The shortest digits that read back, positional from 1e-5 up to 1e16 and with an exponent
outside. -/
def doubleText (d : Double) : String :=
  let sign := if d.negative then "-" else ""
  if d.isZero then sign ++ "0.0"
  else
    let (digits, e) := Double.shortest d.mantissa d.exponent
    let ds := digitsText digits
    let point : Int := ds.length + e
    let text :=
      if 0 ≤ e ∧ point ≤ 16 then String.ofList ds ++ zeros e.toNat ++ ".0"
      else if 0 < point ∧ point ≤ 16 then
        String.ofList (ds.take point.toNat) ++ "." ++ String.ofList (ds.drop point.toNat)
      else if -5 < point ∧ point ≤ 0 then "0." ++ zeros (-point).toNat ++ String.ofList ds
      else
        let fraction := ds.drop 1
        let mark := if point - 1 < 0 then "e-" else "e+"
        String.ofList (ds.take 1) ++
          (if fraction.isEmpty then "" else "." ++ String.ofList fraction) ++
          mark ++ toString (point - 1).natAbs
    sign ++ text

/-- The shortest digits that read back, always positional and without a needless point. -/
def plainText (d : Double) : String :=
  let sign := if d.negative then "-" else ""
  if d.isZero then sign ++ "0"
  else
    let (digits, e) := Double.shortest d.mantissa d.exponent
    let ds := digitsText digits
    let point : Int := ds.length + e
    let text :=
      if 0 ≤ e then String.ofList ds ++ zeros e.toNat
      else if 0 < point then
        String.ofList (ds.take point.toNat) ++ "." ++ String.ofList (ds.drop point.toNat)
      else "0." ++ zeros (-point).toNat ++ String.ofList ds
    sign ++ text

def intText (n : Int) : String :=
  (if n < 0 then "-" else "") ++ String.ofList (digitsText n.natAbs)

def text : Number → String
  | .int n => intText n
  | .double d => doubleText d

end Number

end SwaggerProvider
