import SwaggerProvider.Decimal.Double
import SwaggerProvider.Json.Number
import SwaggerProvider.Text.Basic
import SwaggerProvider.Text.Word

/-!
Spans of time in whole nanoseconds, and the timeout values of documents: a decimal number with the
unit `s`, `m` or `h`. The number is read as a double, multiplied as a double, and then rounded to
the nearest nanosecond, half to even.
-/

set_option autoImplicit false

namespace SwaggerProvider

structure Duration where
  nanos : Nat
  deriving DecidableEq

inductive TimeoutFault where
  | empty
  | noUnit
  | notNumber
  | outOfRange
  deriving DecidableEq

def TimeoutFault.reason : TimeoutFault → String
  | .empty => "timeout cannot be empty"
  | .noUnit => "expected a unit suffix of 's', 'm' or 'h'"
  | .notNumber => "expected a non-negative decimal number"
  | .outOfRange =>
    "out of range: cannot convert float seconds to Duration: value is either too big or NaN"

namespace Duration

instance : Add Duration := ⟨fun a b => ⟨a.nanos + b.nanos⟩⟩

def ofSeconds (n : Nat) : Duration := ⟨n * 1000000000⟩

def ofMillis (n : Nat) : Duration := ⟨n * 1000000⟩

def seconds (d : Duration) : Nat := d.nanos / 1000000000

def millis (d : Duration) : Nat := d.nanos / 1000000

/-- The seconds that a final unit letter stands for, and the text before it. -/
def splitUnit (cs : List Char) : Option (List Char × Nat) :=
  match cs.reverse with
  | 's' :: front => some (front.reverse, 1)
  | 'm' :: front => some (front.reverse, 60)
  | 'h' :: front => some (front.reverse, 3600)
  | _ => none

/-- Digits with at most one point among them, as a significand and a count of decimals. -/
def decimal? (cs : List Char) : Option (Nat × Nat) :=
  let (whole, rest) := Number.leadingDigits cs
  match rest with
  | [] => if whole.isEmpty then none else some (value whole, 0)
  | '.' :: tail =>
    let (fraction, rest) := Number.leadingDigits tail
    if rest.isEmpty && !(whole.isEmpty && fraction.isEmpty) then
      some (value (whole ++ fraction), fraction.length)
    else none
  | _ => none
where
  value (ds : List Nat) : Nat := ds.foldl (fun n d => 10 * n + d) 0

def ofDouble? (d : Double) : Option Duration :=
  let (num, den) := d.ratio
  if num < Nat.pow 2 64 * den then some ⟨Double.roundQuotient (num * 1000000000) den⟩ else none

def scale (d : Double) (factor : Nat) : Option Double :=
  Double.ofRatio d.negative (d.ratio.1 * factor) d.ratio.2

def parseTrimmed (cs : List Char) : Except TimeoutFault Duration :=
  if cs.isEmpty then .error .empty
  else match splitUnit cs with
    | none => .error .noUnit
    | some (front, factor) =>
      match decimal? (Text.trimBy Text.isBlank front) with
      | none => .error .notNumber
      | some (significand, decimals) =>
        match (Double.ofDecimal false significand (-(decimals : Int))).bind fun d =>
            (scale d factor).bind ofDouble? with
        | some duration => .ok duration
        | none => .error .outOfRange

/-- Reads a timeout; blanks around the value and before the unit do not matter. -/
def parse (text : String) : Except TimeoutFault Duration :=
  parseTrimmed (Text.trimBy Text.isBlank text.toList)

def fractionText (value places : Nat) : String :=
  let digits := Number.digitsText value
  let padded := List.replicate (places - digits.length) '0' ++ digits
  let kept := Text.trimEndBy (· == '0') padded
  if kept.isEmpty then "" else "." ++ String.ofList kept

def text (d : Duration) : String :=
  if d.nanos ≥ 1000000000 then
    toString (d.nanos / 1000000000) ++ fractionText (d.nanos % 1000000000) 9 ++ "s"
  else if d.nanos ≥ 1000000 then
    toString (d.nanos / 1000000) ++ fractionText (d.nanos % 1000000) 6 ++ "ms"
  else if d.nanos ≥ 1000 then
    toString (d.nanos / 1000) ++ fractionText (d.nanos % 1000) 3 ++ "µs"
  else toString d.nanos ++ "ns"

/-- Whole seconds and the fraction are rounded apart, then their sum is rounded. -/
def toDouble (d : Duration) : Option Double := do
  let whole ← Double.ofRatio false d.seconds 1
  let fraction ← Double.ofRatio false (d.nanos % 1000000000) 1000000000
  let (a, b) := whole.ratio
  let (p, q) := fraction.ratio
  Double.ofRatio false (a * q + p * b) (b * q)

end Duration

end SwaggerProvider
