import SwaggerProvider.Json.Basic
import SwaggerProvider.Json.Printer
import SwaggerProvider.Yaml.CoreSchema
import SwaggerProvider.Yaml.Node

/-!
The value of a YAML document and its form as a JSON value. Aliases are replaced by their nodes, at
most a hundred times as often as the document has marks; collections nest at most 128 deep; a
mapping has no two equal keys.
-/

set_option autoImplicit false

namespace SwaggerProvider.Yaml

inductive Value where
  | null
  | bool (value : Bool)
  | int (value : Int)
  | real (value : Real)
  | string (value : String)
  | sequence (items : List Value)
  | mapping (entries : List (Value × Value))
  | tagged (tag : String) (value : Value)

namespace Value

mutual

def same : Value → Value → Bool
  | .null, .null => true
  | .bool a, .bool b => a == b
  | .int a, .int b => a == b
  | .real a, .real b => a.same b
  | .string a, .string b => a == b
  | .sequence a, .sequence b => sameItems a b
  | .mapping a, .mapping b => a.length == b.length && sameEntries a b
  | .tagged s a, .tagged t b => s == t && same a b
  | _, _ => false

def sameItems : List Value → List Value → Bool
  | [], [] => true
  | a :: as, b :: bs => same a b && sameItems as bs
  | _, _ => false

/-- Every entry of the first mapping has an equal one in the second. -/
def sameEntries : List (Value × Value) → List (Value × Value) → Bool
  | [], _ => true
  | (key, value) :: rest, other => inEntries key value other && sameEntries rest other

def inEntries (key value : Value) : List (Value × Value) → Bool
  | [] => false
  | (k, v) :: rest => (same key k && same value v) || inEntries key value rest

end

def ofPlain (text : String) : Option Value :=
  (Plain.read text).map fun plain =>
    match plain with
    | .null => .null
    | .bool b => .bool b
    | .int n => .int n
    | .real r => .real r
    | .text => .string text

def coreTag (name : String) : String := "tag:yaml.org,2002:" ++ name

/-- A plain scalar is read by the core schema, any other is text. -/
def untagged (style : Style) (text : String) : Option Value :=
  if style = .plain then ofPlain text else some (.string text)

/-- A scalar with a tag of the core schema has to be of that kind. -/
def coreScalar (tag : String) (text : String) : Option Value :=
  if tag == coreTag "bool" then (Plain.bool? text).map .bool
  else if tag == coreTag "null" then
    if Plain.isNull text && !text.isEmpty then some .null else none
  else if tag == coreTag "int" then
    match Plain.whole? text.toList with
    | some n => if -Nat.pow 2 63 ≤ n ∧ n < Nat.pow 2 64 then some (.int n) else none
    | none => none
  else if tag == coreTag "float" then (Plain.real? text.toList).map .real
  else some (.string text)

def localTag? (tag : Option String) : Option String :=
  match tag.map String.toList with
  | some ('!' :: name) => some (String.ofList name)
  | _ => none

def underTag (tag : Option String) (value : Option Value) : Option Value :=
  match localTag? tag with
  | some name => if name.isEmpty then none else value.map (.tagged name)
  | none => value

def ofScalar (tag : Option String) (style : Style) (text : String) : Option Value :=
  match tag with
  | none => untagged style text
  | some name =>
    if (localTag? tag).isSome then underTag tag (untagged style text) else coreScalar name text

def addEntry (entries : List (Value × Value)) (key value : Value) :
    Option (List (Value × Value)) :=
  if entries.any fun e => same e.1 key then none else some (entries ++ [(key, value)])

/-- The value of a node; the state counts the aliases that may still be followed. -/
def ofNode (anchors : Anchors) : Nat → Nat → Node → StateT Nat Option Value
  | 0, _, _ => fun _ => none
  | fuel + 1, depth, node =>
    match node with
    | .scalar tag style text => fun left => (ofScalar tag style text).map fun v => (v, left)
    | .alias number => fun left =>
      match left, anchors.target? number with
      | left + 1, some target => ofNode anchors fuel depth target left
      | _, _ => none
    | .sequence tag items =>
      match depth with
      | 0 => fun _ => none
      | depth + 1 => do
        let values ← items.mapM (ofNode anchors fuel depth)
        fun left => (underTag tag (some (.sequence values))).map fun v => (v, left)
    | .mapping tag entries =>
      match depth with
      | 0 => fun _ => none
      | depth + 1 => do
        let values ← entries.foldlM (fun done (key, value) => do
          let key ← ofNode anchors fuel depth key
          let value ← ofNode anchors fuel depth value
          fun left => (addEntry done key value).map fun entries => (entries, left)) []
        fun left => (underTag tag (some (.mapping values))).map fun v => (v, left)

def maxDepth : Nat := 128

def ofDocument (document : Document) : Option Value :=
  match document.root with
  | none => some .null
  | some root =>
    ((ofNode document.anchors (2 * maxDepth + 2) maxDepth root).run (100 * root.size)).map Prod.fst

end Value

def read (text : String) : Option Value := (document? text).bind Value.ofDocument

end SwaggerProvider.Yaml
