import SwaggerProvider.Yaml.Value

/-!
The written form of values in block style, and JSON values for YAML ones. A key that is not text
is written out; of keys that are written alike the last one counts.
-/

set_option autoImplicit false

namespace SwaggerProvider.Yaml

def opensOther (c : Char) : Bool :=
  ['#', ',', '[', ']', '{', '}', '&', '*', '!', '|', '>', '\'', '"', '%', '@', '\x60'].contains c

/-- Whether a colon or number sign inside the text would end a plain scalar. -/
def breaksPlain : Char → List Char → Bool
  | _, [] => false
  | before, c :: rest =>
    (c == ':' && endsWord rest) || (c == '#' && isGap before) || breaksPlain c rest

def isPlainText (cs : List Char) : Bool :=
  match cs with
  | [] => false
  | c :: rest =>
    !opensOther c && !((c == '-' || c == '?' || c == ':') && endsWord rest) &&
    !breaksPlain 'a' cs && !isSpace c && !cs.getLast?.any isSpace &&
    !Text.startsWith ['-', '-', '-'] cs && !Text.startsWith ['.', '.', '.'] cs

def singleQuoted (cs : List Char) : String :=
  "'" ++ String.ofList (Text.replaceAll ['\''] ['\'', '\''] cs) ++ "'"

/-- A text on one line: plain where that reads back, else in quotes. -/
def stringText (s : String) : String :=
  let cs := s.toList
  let isText := match Plain.read s with
    | some .text => !Plain.hasLeadingZero cs
    | _ => false
  if !cs.all (fun c => isAllowed c && !isBreak c && c != '\t') then Json.quoted s
  else if isText && isPlainText cs then s
  else singleQuoted cs

def indented (mark : String) : List String → List String
  | [] => [mark]
  | line :: rest => (mark ++ line) :: rest.map fun l => "  " ++ l

namespace Value

def isBlock : Value → Bool
  | .sequence (_ :: _) | .mapping (_ :: _) => true
  | _ => false

def isSequence : Value → Bool
  | .sequence _ => true
  | _ => false

def under (head : String) (value : Value) (lines : List String) : List String :=
  if value.isBlock then
    head :: (if value.isSequence then lines else lines.map fun line => "  " ++ line)
  else indented (head ++ " ") lines

mutual

def lines : Value → List String
  | .null => ["null"]
  | .bool b => [Json.boolText b]
  | .int n => [Number.intText n]
  | .real (.finite d) => [Number.doubleText d]
  | .real r => [r.text]
  | .string s => [stringText s]
  | .sequence [] => ["[]"]
  | .sequence (item :: rest) => itemLines (item :: rest)
  | .mapping [] => ["\x7b\x7d"]
  | .mapping (entry :: rest) => entryLines (entry :: rest)
  | .tagged tag value => under ("!" ++ tag) value (lines value)

def itemLines : List Value → List String
  | [] => []
  | item :: rest => indented "- " (lines item) ++ itemLines rest

def entryLines : List (Value × Value) → List String
  | [] => []
  | (key, value) :: rest =>
    (if key.isBlock then indented "? " (lines key) ++ indented ": " (lines value)
      else under (String.join (lines key) ++ ":") value (lines value)) ++ entryLines rest

end

def keyText : Value → String
  | .string s => s
  | .int n => Number.intText n
  | .real r => r.text
  | .bool b => Json.boolText b
  | other => Text.trim ("\n".intercalate other.lines)

mutual

/-- Numbers without a JSON form become null, and tags are dropped. -/
def toJson : Value → Json
  | .null => .null
  | .bool b => .bool b
  | .int n => .ofInt n
  | .real (.finite d) => .number (.double d)
  | .real _ => .null
  | .string s => .string s
  | .sequence items => .array (itemsToJson items)
  | .mapping entries => .object (Table.ofEntries (membersOf entries))
  | .tagged _ value => toJson value

def itemsToJson : List Value → List Json
  | [] => []
  | item :: rest => toJson item :: itemsToJson rest

def membersOf : List (Value × Value) → List (String × Json)
  | [] => []
  | (key, value) :: rest => (keyText key, toJson value) :: membersOf rest

end

end Value

end SwaggerProvider.Yaml
