import SwaggerProvider.Text.Basic
import SwaggerProvider.Text.Word

/-!
Percent encoding. A byte is written as `%` and two capital hexadecimal digits; which characters
pass unchanged depends on where the text goes.
-/

set_option autoImplicit false

namespace SwaggerProvider.Url

def upperHexDigit (n : Nat) : Char :=
  if n < 10 then Char.ofNat (48 + n) else Char.ofNat (55 + n)

def escapeByte (b : UInt8) : List Char :=
  ['%', upperHexDigit (b.toNat / 16), upperHexDigit (b.toNat % 16)]

def escapeChar (c : Char) : List Char := (String.utf8EncodeChar c).flatMap escapeByte

/-- The characters that stand for themselves everywhere in a URL. -/
def isUnreserved (c : Char) : Bool :=
  Text.isAsciiAlnum c || c == '-' || c == '.' || c == '_' || c == '~'

def encodeChar (c : Char) : List Char := if isUnreserved c then [c] else escapeChar c

def encodeChars (cs : List Char) : List Char := cs.flatMap encodeChar

def formChar (c : Char) : List Char :=
  if c == ' ' then ['+']
  else if Text.isAsciiAlnum c || c == '*' || c == '-' || c == '.' || c == '_' then [c]
  else escapeChar c

def formChars (cs : List Char) : List Char := cs.flatMap formChar

def decodeBytes : List Char → List UInt8
  | [] => []
  | '%' :: a :: b :: rest =>
    match Text.hexValue? a, Text.hexValue? b with
    | some high, some low => UInt8.ofNat (16 * high + low) :: decodeBytes rest
    | _, _ => String.utf8EncodeChar '%' ++ decodeBytes (a :: b :: rest)
  | c :: rest => String.utf8EncodeChar c ++ decodeBytes rest

end SwaggerProvider.Url
