/-!
Text from bytes. Every longest beginning of a character that does not go on as it should becomes
one replacement character, and reading goes on with the byte that did not fit.
-/

set_option autoImplicit false

namespace SwaggerProvider.Text.Utf8

def replacement : Char := Char.ofNat 0xFFFD

/-- A character of which some bytes are still to come: its bits so far, the range in which the next
byte has to lie, and how many bytes follow that one. -/
structure Pending where
  bits : Nat
  low : Nat
  high : Nat
  more : Nat

/-- A byte that begins a character: the character itself or what it starts. -/
def start (b : Nat) : List Char × Option Pending :=
  if b < 0x80 then ([Char.ofNat b], none)
  else if b < 0xC2 then ([replacement], none)
  else if b < 0xE0 then ([], some ⟨b - 0xC0, 0x80, 0xBF, 0⟩)
  else if b < 0xF0 then
    ([], some ⟨b - 0xE0, if b = 0xE0 then 0xA0 else 0x80, if b = 0xED then 0x9F else 0xBF, 1⟩)
  else if b < 0xF5 then
    ([], some ⟨b - 0xF0, if b = 0xF0 then 0x90 else 0x80, if b = 0xF4 then 0x8F else 0xBF, 2⟩)
  else ([replacement], none)

def decodeFrom : Option Pending → List UInt8 → List Char
  | none, [] => []
  | some _, [] => [replacement]
  | none, b :: rest =>
    let (done, pending) := start b.toNat
    done ++ decodeFrom pending rest
  | some p, b :: rest =>
    if p.low ≤ b.toNat ∧ b.toNat ≤ p.high then
      let bits := p.bits * 64 + (b.toNat - 0x80)
      if p.more = 0 then Char.ofNat bits :: decodeFrom none rest
      else decodeFrom (some ⟨bits, 0x80, 0xBF, p.more - 1⟩) rest
    else
      let (done, pending) := start b.toNat
      replacement :: done ++ decodeFrom pending rest

def decode (bytes : List UInt8) : String := String.ofList (decodeFrom none bytes)

end SwaggerProvider.Text.Utf8
