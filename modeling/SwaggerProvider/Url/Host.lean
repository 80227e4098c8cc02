import SwaggerProvider.Error
import SwaggerProvider.Text.Case
import SwaggerProvider.Url.Percent

/-!
Hosts of URLs in their normal form: domain names in lower case and ASCII, IPv4 addresses in four
decimal parts, IPv6 addresses in brackets with their longest run of zeros left out.
-/

set_option autoImplicit false

namespace SwaggerProvider.Url

/-- A number in an IPv4 address; `0x` means base 16 and a leading zero base 8. -/
def ipv4Number? (cs : List Char) : Option Nat :=
  match cs with
  | [] => none
  | ['0'] => some 0
  | '0' :: 'x' :: digits | '0' :: 'X' :: digits => inBase 16 digits
  | '0' :: digits => inBase 8 digits
  | digits => inBase 10 digits
where
  inBase (base : Nat) (digits : List Char) : Option Nat :=
    digits.foldl (fun value c => do
      let n ← value
      let d ← Text.hexValue? c
      if d < base then some (base * n + d) else none) (some 0)

def labels (domain : List Char) : List (List Char) :=
  let all := Text.pieces '.' domain
  match all.reverse with
  | [] :: (front :: more) => (front :: more).reverse
  | _ => all

/-- A domain whose last label is a number has to be an IPv4 address. -/
def endsInNumber (domain : List Char) : Bool :=
  match (labels domain).getLast? with
  | some label =>
    !label.isEmpty && (label.all Text.isAsciiDigit ||
      (label.length ≥ 2 && (Text.startsWith ['0', 'x'] label || Text.startsWith ['0', 'X'] label) &&
        (ipv4Number? label).isSome))
  | none => false

def ipv4? (domain : List Char) : Option Nat := do
  let numbers ← (labels domain).mapM ipv4Number?
  let last ← numbers.getLast?
  let front := numbers.dropLast
  if 3 < front.length ∨ front.any (255 < ·) ∨ Nat.pow 256 (4 - front.length) ≤ last then none
  else some (front.foldl (fun n byte => 256 * n + byte) 0 * Nat.pow 256 (4 - front.length) + last)

def ipv4Text (address : Nat) : String :=
  ".".intercalate ([3, 2, 1, 0].map fun i => toString (address / Nat.pow 256 i % 256))

/-- The two groups that four decimal bytes at the end of an IPv6 address stand for. -/
def ipv4Groups? (cs : List Char) : Option (List Nat) := do
  let bytes ← (Text.pieces '.' cs).mapM fun part =>
    if part.length ≠ 1 ∧ part.head? = some '0' then none
    else (Text.natural? part).filter (· ≤ 255)
  match bytes with
  | [a, b, c, d] => some [256 * a + b, 256 * c + d]
  | _ => none

def group? (cs : List Char) : Option Nat :=
  if cs.isEmpty ∨ 4 < cs.length then none else ipv4Number?.inBase 16 cs

/-- The groups of one side of an IPv6 address; only the last one may be in IPv4 form. -/
def groups? : List (List Char) → Option (List Nat)
  | [] => some []
  | [last] => if last.contains '.' then ipv4Groups? last else (group? last).map fun g => [g]
  | part :: rest => do
    let g ← group? part
    let gs ← groups? rest
    some (g :: gs)

def cutDouble : List Char → Option (List Char × List Char)
  | ':' :: ':' :: rest => some ([], rest)
  | c :: rest => (cutDouble rest).map fun (before, after) => (c :: before, after)
  | [] => none

def side? (cs : List Char) : Option (List Nat) :=
  if cs.isEmpty then some [] else groups? (Text.pieces ':' cs)

def ipv6? (cs : List Char) : Option (List Nat) :=
  match cutDouble cs with
  | none => (groups? (Text.pieces ':' cs)).filter fun gs => gs.length = 8
  | some (before, after) => do
    if before.contains '.' then none
    else
      let front ← side? before
      let back ← side? after
      let given := front.length + back.length
      if given ≤ 7 then some (front ++ List.replicate (8 - given) 0 ++ back) else none

def zeroRun (groups : List Nat) : Nat := (groups.takeWhile (· == 0)).length

def longestZeros (groups : List Nat) : Option (Nat × Nat) :=
  (List.range groups.length).foldl (fun best i =>
    let run := zeroRun (groups.drop i)
    if 2 ≤ run ∧ (best.all fun b => b.2 < run) then some (i, run) else best) none

def groupsText (groups : List Nat) : String :=
  ":".intercalate (groups.map fun g => String.ofList (Nat.toDigits 16 g))

def ipv6Text (groups : List Nat) : String :=
  match longestZeros groups with
  | some (i, run) => groupsText (groups.take i) ++ "::" ++ groupsText (groups.drop (i + run))
  | none => groupsText groups

namespace Punycode

def adapt (delta points : Nat) (first : Bool) : Nat :=
  let scaled := if first then delta / 700 else delta / 2
  go 20 (scaled + scaled / points) 0
where
  go : Nat → Nat → Nat → Nat
    | 0, delta, k => k + 36 * delta / (delta + 38)
    | fuel + 1, delta, k =>
      if 455 < delta then go fuel (delta / 35) (k + 36) else k + 36 * delta / (delta + 38)

def digit (n : Nat) : Char := if n < 26 then Char.ofNat (97 + n) else Char.ofNat (22 + n)

def number (bias : Nat) : Nat → Nat → Nat → List Char
  | 0, _, _ => []
  | fuel + 1, q, k =>
    let t := if k ≤ bias then 1 else if bias + 26 ≤ k then 26 else k - bias
    if q < t then [digit q]
    else digit (t + (q - t) % (36 - t)) :: number bias fuel ((q - t) / (36 - t)) (k + 36)

structure State where
  delta : Nat
  bias : Nat
  handled : Nat
  basic : Nat
  out : List Char

def pass (m : Nat) (label : List Char) (state : State) : State :=
  label.foldl (fun state c =>
    if c.toNat < m then { state with delta := state.delta + 1 }
    else if c.toNat = m then
      { state with
        out := state.out ++ number state.bias 40 state.delta 36
        bias := adapt state.delta (state.handled + 1) (state.handled == state.basic)
        delta := 0
        handled := state.handled + 1 }
    else state) state

def wideCodes (label : List Char) : List Nat :=
  ((label.map Char.toNat).filter (128 ≤ ·)).eraseDups.mergeSort (· ≤ ·)

def passes (label : List Char) : List Nat → Nat → State → State
  | [], _, state => state
  | m :: rest, n, state =>
    let state :=
      pass m label { state with delta := state.delta + (m - n) * (state.handled + 1) }
    passes label rest (m + 1) { state with delta := state.delta + 1 }

def encode (label : List Char) : List Char :=
  let basic := label.filter fun c => c.toNat < 128
  if basic.length = label.length then label
  else
    let start := if basic.isEmpty then [] else basic ++ ['-']
    let state := passes label (wideCodes label) 128 ⟨0, 72, basic.length, basic.length, start⟩
    ['x', 'n', '-', '-'] ++ state.out

end Punycode

/-- Wide forms of ASCII characters count as these, and ideographic full stops separate labels. -/
def plainForm (c : Char) : Char :=
  if 0xFF01 ≤ c.toNat ∧ c.toNat ≤ 0xFF5E then Char.ofNat (c.toNat - 0xFEE0)
  else if c.toNat = 0x3002 ∨ c.toNat = 0xFF61 then '.'
  else c

def isForbidden (c : Char) : Bool :=
  c.toNat ≤ 0x20 || c.toNat == 0x7F ||
    ['#', '/', ':', '<', '>', '?', '@', '[', '\\', ']', '^', '|', '%'].contains c

def domain (cs : List Char) : Except UrlFault String := do
  let decoded := (String.fromUTF8? (ByteArray.mk (decodeBytes cs).toArray)).map String.toList
  match decoded with
  | none => .error .invalidDomain
  | some decoded =>
    let folded := (decoded.map plainForm).flatMap Text.toLower
    let ascii := Text.join ['.'] ((Text.pieces '.' folded).map Punycode.encode)
    if ascii.any isForbidden then .error .invalidDomain
    else if ascii.isEmpty then .error .emptyHost
    else if endsInNumber ascii then
      match ipv4? ascii with
      | some address => .ok (ipv4Text address)
      | none => .error .invalidIpv4
    else .ok (String.ofList ascii)

def normalHost (cs : List Char) : Except UrlFault String :=
  match cs with
  | '[' :: rest =>
    match rest.reverse with
    | ']' :: inner =>
      match ipv6? inner.reverse with
      | some groups => .ok ("[" ++ ipv6Text groups ++ "]")
      | none => .error .invalidIpv6
    | _ => .error .invalidIpv6
  | _ => domain cs

end SwaggerProvider.Url
