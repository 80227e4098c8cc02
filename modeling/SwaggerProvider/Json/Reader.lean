import SwaggerProvider.Json.Number
import SwaggerProvider.Text.Basic

/-!
The reader of JSON texts. It refuses what the grammar refuses, nesting beyond a bound, numbers
beyond the doubles, and escapes that name half of a surrogate pair. Of members with the same name
the last value counts, in the place of the first.
-/

set_option autoImplicit false

namespace SwaggerProvider.Json

def skipBlanks : List Char → List Char
  | c :: rest => if c = ' ' ∨ c = '\n' ∨ c = '\t' ∨ c = '\r' then skipBlanks rest else c :: rest
  | [] => []

def readHex4 : List Char → Option (Nat × List Char)
  | a :: b :: c :: d :: rest => do
    let a ← Text.hexValue? a
    let b ← Text.hexValue? b
    let c ← Text.hexValue? c
    let d ← Text.hexValue? d
    some (((a * 16 + b) * 16 + c) * 16 + d, rest)
  | _ => none

/-- Reads what follows `\u`; a high surrogate needs its low partner at once. -/
def readUnicode (cs : List Char) : Option (Char × List Char) := do
  let (code, rest) ← readHex4 cs
  if 0xD800 ≤ code ∧ code < 0xDC00 then
    match rest with
    | '\\' :: 'u' :: more =>
      let (low, tail) ← readHex4 more
      if 0xDC00 ≤ low ∧ low < 0xE000 then
        some (Char.ofNat (0x10000 + (code - 0xD800) * 0x400 + (low - 0xDC00)), tail)
      else none
    | _ => none
  else if 0xDC00 ≤ code ∧ code < 0xE000 then none
  else some (Char.ofNat code, rest)

def readEscape : List Char → Option (Char × List Char)
  | '"' :: rest => some ('"', rest)
  | '\\' :: rest => some ('\\', rest)
  | '/' :: rest => some ('/', rest)
  | 'b' :: rest => some ('\x08', rest)
  | 'f' :: rest => some ('\x0c', rest)
  | 'n' :: rest => some ('\n', rest)
  | 'r' :: rest => some ('\r', rest)
  | 't' :: rest => some ('\t', rest)
  | 'u' :: rest => readUnicode rest
  | _ => none

def readChars : Nat → List Char → List Char → Option (List Char × List Char)
  | 0, _, _ => none
  | _ + 1, _, [] => none
  | fuel + 1, done, c :: rest =>
    if c = '"' then some (done.reverse, rest)
    else if c = '\\' then
      match readEscape rest with
      | some (e, tail) => readChars fuel (e :: done) tail
      | none => none
    else if c.toNat < 0x20 then none
    else readChars fuel (c :: done) rest

def readString (cs : List Char) : Option (String × List Char) :=
  (readChars (cs.length + 1) [] cs).map fun (text, rest) => (String.ofList text, rest)

def readWord (word : String) (value : Json) (cs : List Char) : Option (Json × List Char) :=
  (Text.after? word.toList cs).map fun rest => (value, rest)

mutual

/-- Reads a value; the first number bounds the steps and the second one the nesting. -/
def readValue : Nat → Nat → List Char → Option (Json × List Char)
  | 0, _, _ => none
  | fuel + 1, depth, cs =>
    match skipBlanks cs with
    | '"' :: rest => (readString rest).map fun (s, tail) => (.string s, tail)
    | '[' :: rest =>
      match depth with
      | 0 => none
      | depth + 1 =>
        match skipBlanks rest with
        | ']' :: tail => some (.array [], tail)
        | _ => (readItems fuel depth [] rest).map fun (items, tail) => (.array items, tail)
    | '{' :: rest =>
      match depth with
      | 0 => none
      | depth + 1 =>
        match skipBlanks rest with
        | '}' :: tail => some (.object [], tail)
        | _ => (readMembers fuel depth [] rest).map fun (members, tail) => (.object members, tail)
    | 't' :: rest => readWord "rue" (.bool true) rest
    | 'f' :: rest => readWord "alse" (.bool false) rest
    | 'n' :: rest => readWord "ull" .null rest
    | other => (Number.read other).map fun (n, tail) => (.number n, tail)

def readItems : Nat → Nat → List Json → List Char → Option (List Json × List Char)
  | 0, _, _, _ => none
  | fuel + 1, depth, done, cs =>
    match readValue fuel depth cs with
    | none => none
    | some (item, rest) =>
      match skipBlanks rest with
      | ',' :: tail => readItems fuel depth (item :: done) tail
      | ']' :: tail => some ((item :: done).reverse, tail)
      | _ => none

def readMembers : Nat → Nat → Members → List Char → Option (Members × List Char)
  | 0, _, _, _ => none
  | fuel + 1, depth, done, cs =>
    match skipBlanks cs with
    | '"' :: rest =>
      match readString rest with
      | none => none
      | some (name, rest) =>
        match skipBlanks rest with
        | ':' :: rest =>
          match readValue fuel depth rest with
          | none => none
          | some (value, rest) =>
            match skipBlanks rest with
            | ',' :: tail => readMembers fuel depth (Table.insert done name value) tail
            | '}' :: tail => some (Table.insert done name value, tail)
            | _ => none
        | _ => none
    | _ => none

end

/-- Reads a text that is one value nested at most `depth` deep. -/
def readWithin (depth : Nat) (text : String) : Option Json :=
  let cs := text.toList
  match readValue (cs.length + 1) depth cs with
  | some (value, rest) => if (skipBlanks rest).isEmpty then some value else none
  | none => none

def maxDepth : Nat := 127

def read (text : String) : Option Json := readWithin maxDepth text

end SwaggerProvider.Json
