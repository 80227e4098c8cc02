import SwaggerProvider.Record.Basic
import SwaggerProvider.Swagger.Document

/-!
Compiling schemas to records. References have been expanded before; one that is left over is
either cyclic or leads nowhere. Refusals name the property by its path.
-/

set_option autoImplicit false

namespace SwaggerProvider.Record

open Swagger (Schema Extensions)

def definitionsStart : String := "#/definitions/"

def fieldNameKey : String := "x-terraform-field-name"

def computedKey : String := "x-terraform-computed"

def forceNewKey : String := "x-terraform-force-new"

def immutableKey : String := "x-terraform-immutable"

def sensitiveKey : String := "x-terraform-sensitive"

def statusKey : String := "x-terraform-field-status"

def ignoreOrderKey : String := "x-terraform-ignore-order"

/-- What the type of a schema says, before its items and properties are looked at. -/
inductive Shape where
  | scalar (type : Scalar)
  | list
  | object
  deriving DecidableEq

/-- Without a type, properties make an object, and all else is a string. -/
def shape (type : Option String) (hasProperties : Bool) : Except PropertyFault Shape :=
  match type with
  | some "string" => .ok (.scalar .string)
  | some "integer" => .ok (.scalar .integer)
  | some "number" => .ok (.scalar .number)
  | some "boolean" => .ok (.scalar .bool)
  | some "array" => .ok .list
  | some "object" => .ok .object
  | some other => .error (.unsupportedType other)
  | none => .ok (if hasProperties then .object else .scalar .string)

def isKnown (definitions : Table Schema) (reference : String) : Bool :=
  match Text.after? definitionsStart.toList reference.toList with
  | some name => definitions.contains (String.ofList name)
  | none => false

def checkReference (definitions : Table Schema) (name : String) (reference : Option String) :
    Except Error Unit :=
  match reference with
  | none => .ok ()
  | some reference =>
    .error (.invalidProperty name
      (if isKnown definitions reference then .cyclicReference reference
        else .missingReference reference))

/-- Puts the name of the enclosing property before the name in a refusal. -/
def within {α : Type} (parent : String) : Except Error α → Except Error α
  | .error (.invalidProperty property fault) =>
    .error (.invalidProperty (if property.isEmpty then parent else s!"{parent}.{property}") fault)
  | other => other

def atProperty {α : Type} (name : String) : Except PropertyFault α → Except Error α
  | .ok a => .ok a
  | .error fault => .error (.invalidProperty name fault)

def checkMarks (r : Record) : Except Error Record :=
  let marked := (r.filter fun f => f.identifier).map fun f => f.name
  if 1 < marked.length then
    .error (.invalidProperty (", ".intercalate marked) .severalIdentifiers)
  else .ok r

def declared (name : String) (required readOnly : Bool) (default : Option Json)
    (description : Option String) (ext : Extensions) : Traits where
  name := name
  preferred := ext.text? fieldNameKey
  required := required
  readOnly := readOnly
  computed := ext.flag computedKey
  forceNew := ext.flag forceNewKey
  immutable := ext.flag immutableKey
  sensitive := ext.flag sensitiveKey
  identifier := ext.flag identifierKey
  status := ext.flag statusKey
  anyOrder := ext.flag ignoreOrderKey
  default := default.filter fun value => !value.isNull
  description := description

def checkTraits (t : Traits) : Except PropertyFault Unit :=
  if t.required && t.readOnly then .error .requiredReadOnly
  else if t.computed && t.readOnly then .error .computedReadOnly
  else if t.computed && t.default.isSome then .error .computedDefault
  else if t.status && !t.readOnly then .error .statusNotReadOnly
  else .ok ()

/-- Drops a default that cannot be sent and an order mark on what is not a list. -/
def settle (t : Traits) (isList : Bool) : Traits :=
  { t with
    default := if t.readOnly then none else t.default
    anyOrder := t.anyOrder && isList }

def finish (t : Traits) (kind : Kind Field) : Except Error Field := do
  atProperty t.name (checkTraits t)
  return ⟨settle t kind.isList, kind⟩

mutual

def compileObject (definitions : Table Schema) : Schema → Except Error Record
  | ⟨_, _, _, properties, _, required, _, _, _⟩ =>
    (compileFields definitions required properties).bind checkMarks

def compileFields (definitions : Table Schema) (required : List String) :
    List (String × Schema) → Except Error Record
  | [] => .ok []
  | (name, schema) :: rest =>
    (compileField definitions name (required.contains name) schema).bind fun field =>
      (compileFields definitions required rest).map (field :: ·)

def compileField (definitions : Table Schema) (name : String) (isRequired : Bool) :
    Schema → Except Error Field
  | ⟨reference, type, description, properties, items, required, readOnly, default, ext⟩ => do
    checkReference definitions name reference
    let kind ← match ← atProperty name (shape type !properties.isEmpty) with
      | .scalar type => .ok (.scalar type)
      | .object =>
        (within name
          ((compileFields definitions required properties).bind checkMarks)).map .record
      | .list =>
        match items with
        | none => .error (.invalidProperty name .noItems)
        | some items => compileItems definitions name items
    finish (declared name isRequired readOnly default description ext) kind

def compileItems (definitions : Table Schema) (name : String) : Schema → Except Error (Kind Field)
  | ⟨reference, type, _, properties, _, required, _, _, _⟩ => do
    checkReference definitions name reference
    match ← atProperty name (shape type !properties.isEmpty) with
    | .scalar type => .ok (.scalars type)
    | .list => .error (.invalidProperty name .listOfLists)
    | .object =>
      (within name
        ((compileFields definitions required properties).bind checkMarks)).map .records

end

def compile (definitions : Table Schema) (schema : Schema) : Except Error Record := do
  checkReference definitions "" schema.reference
  compileObject definitions schema

/-- What is said about a field that compiles but loses a trait. -/
def traitNotes (t : Traits) (isList : Bool) : List String :=
  (if t.readOnly && t.default.isSome then
    [s!"property '{t.name}' is readOnly; its default value is ignored"] else []) ++
  (if t.anyOrder && !isList then
    [s!"property '{t.name}' is not a list; {ignoreOrderKey} has no effect"] else [])

mutual

/-- What is said while an object is compiled, up to the property that is refused. -/
def objectNotes (definitions : Table Schema) : Schema → List String
  | ⟨reference, _, _, properties, _, required, _, _, _⟩ =>
    if reference.isSome then [] else fieldsNotes definitions required properties

def fieldsNotes (definitions : Table Schema) (required : List String) :
    List (String × Schema) → List String
  | [] => []
  | (name, schema) :: rest =>
    innerNotes definitions schema ++
      match compileField definitions name (required.contains name) schema with
      | .error _ => []
      | .ok field =>
        traitNotes (declared name (required.contains name) schema.readOnly schema.default
          schema.description schema.extensions) field.kind.isList ++
        fieldsNotes definitions required rest

def innerNotes (definitions : Table Schema) : Schema → List String
  | ⟨reference, type, _, properties, items, required, _, _, _⟩ =>
    if reference.isSome then []
    else match shape type !properties.isEmpty with
      | .ok .object => fieldsNotes definitions required properties
      | .ok .list =>
        match items with
        | some items => itemsNotes definitions items
        | none => []
      | _ => []

def itemsNotes (definitions : Table Schema) : Schema → List String
  | ⟨reference, type, _, properties, _, required, _, _, _⟩ =>
    if reference.isSome then []
    else match shape type !properties.isEmpty with
      | .ok .object => fieldsNotes definitions required properties
      | _ => []

end

end SwaggerProvider.Record
