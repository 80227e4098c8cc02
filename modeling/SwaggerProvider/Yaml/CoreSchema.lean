import SwaggerProvider.Json.Number
import SwaggerProvider.Text.Basic

/-!
What the text of a plain scalar stands for: null, a flag, a whole number in one of four bases, a
number with a fraction, or else the text itself.
-/

set_option autoImplicit false

namespace SwaggerProvider.Yaml

/-- Finite doubles, and the three numbers that JSON cannot write. -/
inductive Real where
  | finite (value : Double)
  | infinite (negative : Bool)
  | notANumber

def Real.same : Real → Real → Bool
  | .finite a, .finite b => a.same b
  | .infinite a, .infinite b => a == b
  | .notANumber, .notANumber => true
  | _, _ => false

def Real.text : Real → String
  | .finite d => Number.plainText d
  | .infinite negative => if negative then "-.inf" else ".inf"
  | .notANumber => ".nan"

inductive Plain where
  | null
  | bool (value : Bool)
  | int (value : Int)
  | real (value : Real)
  | text

namespace Plain

def isNull (s : String) : Bool := ["", "null", "Null", "NULL", "~"].contains s

def bool? (s : String) : Option Bool :=
  if ["true", "True", "TRUE"].contains s then some true
  else if ["false", "False", "FALSE"].contains s then some false
  else none

def inBase (base : Nat) (cs : List Char) : Option Nat :=
  if cs.isEmpty then none
  else cs.foldl (fun value c => do
    let n ← value
    let d ← Text.hexValue? c
    if d < base then some (base * n + d) else none) (some 0)

def dropSign (cs : List Char) : List Char :=
  match cs with
  | '+' :: rest => rest
  | '-' :: rest => rest
  | _ => cs

def hasLeadingZero (cs : List Char) : Bool :=
  match dropSign cs with
  | '0' :: d :: rest => (d :: rest).all fun c => '0' ≤ c && c ≤ '9'
  | _ => false

def magnitude? : List Char → Option Nat
  | '0' :: 'x' :: rest => inBase 16 rest
  | '0' :: 'o' :: rest => inBase 8 rest
  | '0' :: 'b' :: rest => inBase 2 rest
  | cs => if hasLeadingZero cs then none else inBase 10 cs

def whole? : List Char → Option Int
  | '-' :: rest => (magnitude? rest).map fun n => -(n : Int)
  | '+' :: rest => (magnitude? rest).map fun n => (n : Int)
  | cs => (magnitude? cs).map fun n => (n : Int)

/-- The exponent at the end of a number, zero when there is none. -/
def exponent? : List Char → Option Int
  | [] => some 0
  | c :: rest =>
    if c == 'e' || c == 'E' then
      match rest with
      | '-' :: digits => (Text.natural? digits).map fun n => -(n : Int)
      | '+' :: digits => (Text.natural? digits).map fun n => (n : Int)
      | digits => (Text.natural? digits).map fun n => (n : Int)
    else none

/-- A decimal number without its sign; a point needs a digit on one side. -/
def decimal? (negative : Bool) (cs : List Char) : Option Double := do
  let (whole, rest) := Number.leadingDigits cs
  let (fraction, rest) := match rest with
    | '.' :: tail => Number.leadingDigits tail
    | _ => ([], rest)
  if whole.isEmpty && fraction.isEmpty then none
  else
    let exponent ← exponent? rest
    let digits := (whole ++ fraction).foldl (fun n d => 10 * n + d) 0
    Double.ofDecimal negative digits (exponent - fraction.length)

def real? (cs : List Char) : Option Real :=
  let (negative, body) := match cs with
    | '-' :: rest => (true, rest)
    | '+' :: rest => (false, rest)
    | _ => (false, cs)
  let word := String.ofList body
  if [".inf", ".Inf", ".INF"].contains word then some (.infinite negative)
  else if [".nan", ".NaN", ".NAN"].contains (String.ofList cs) then some .notANumber
  else (decimal? negative body).map .finite

/-- What a text stands for. Whole numbers of more than 64 and up to 128 bits are refused. -/
def read (s : String) : Option Plain :=
  let cs := s.toList
  if isNull s then some .null
  else match bool? s with
    | some b => some (.bool b)
    | none =>
      let inexact : Plain := match if hasLeadingZero cs then none else real? cs with
        | some r => .real r
        | none => .text
      match whole? cs with
      | none => some inexact
      | some n =>
        if -Nat.pow 2 63 ≤ n ∧ n < Nat.pow 2 64 then some (.int n)
        else if -Nat.pow 2 127 ≤ n ∧ n < Nat.pow 2 128 then none
        else some inexact

end Plain

end SwaggerProvider.Yaml
