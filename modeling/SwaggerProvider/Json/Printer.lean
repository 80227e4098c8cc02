import SwaggerProvider.Json.Number
import SwaggerProvider.Text.Basic

/-!
The two written forms of JSON values: compact, and indented by two blanks a level. Only quotes,
backslashes and control characters are escaped.
-/

set_option autoImplicit false

namespace SwaggerProvider.Json

def escape (c : Char) : List Char :=
  if c = '"' then ['\\', '"']
  else if c = '\\' then ['\\', '\\']
  else if c = '\n' then ['\\', 'n']
  else if c = '\r' then ['\\', 'r']
  else if c = '\t' then ['\\', 't']
  else if c = '\x08' then ['\\', 'b']
  else if c = '\x0c' then ['\\', 'f']
  else if c.toNat < 0x20 then
    ['\\', 'u', '0', '0', Text.hexDigit (c.toNat / 16), Text.hexDigit (c.toNat % 16)]
  else [c]

def quoted (s : String) : String := "\"" ++ String.ofList (s.toList.flatMap escape) ++ "\""

def boolText (b : Bool) : String := if b then "true" else "false"

mutual

def text : Json → String
  | .null => "null"
  | .bool b => boolText b
  | .number n => n.text
  | .string s => quoted s
  | .array items => "[" ++ itemsText items ++ "]"
  | .object members => "\x7b" ++ membersText members ++ "\x7d"

def itemsText : List Json → String
  | [] => ""
  | [item] => text item
  | item :: rest => text item ++ "," ++ itemsText rest

def membersText : List (String × Json) → String
  | [] => ""
  | [(name, value)] => quoted name ++ ":" ++ text value
  | (name, value) :: rest => quoted name ++ ":" ++ text value ++ "," ++ membersText rest

end

def indent (level : Nat) : String := String.ofList (List.replicate (2 * level) ' ')

mutual

def prettyAt (level : Nat) : Json → String
  | .array [] => "[]"
  | .array (item :: rest) =>
    "[\n" ++ prettyItems (level + 1) (item :: rest) ++ "\n" ++ indent level ++ "]"
  | .object [] => "\x7b\x7d"
  | .object (member :: rest) =>
    "\x7b\n" ++ prettyMembers (level + 1) (member :: rest) ++ "\n" ++ indent level ++ "\x7d"
  | .null => "null"
  | .bool b => boolText b
  | .number n => n.text
  | .string s => quoted s

def prettyItems (level : Nat) : List Json → String
  | [] => ""
  | [item] => indent level ++ prettyAt level item
  | item :: rest => indent level ++ prettyAt level item ++ ",\n" ++ prettyItems level rest

def prettyMembers (level : Nat) : List (String × Json) → String
  | [] => ""
  | [(name, value)] => indent level ++ quoted name ++ ": " ++ prettyAt level value
  | (name, value) :: rest =>
    indent level ++ quoted name ++ ": " ++ prettyAt level value ++ ",\n" ++
      prettyMembers level rest

end

def pretty (value : Json) : String := prettyAt 0 value

/-- The text of a value that is not composed; nulls and empty strings have none. -/
def scalarText? : Json → Option String
  | .string s => if s.isEmpty then none else some s
  | .number n => some n.text
  | .bool b => some (boolText b)
  | _ => none

end SwaggerProvider.Json
