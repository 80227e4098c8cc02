import SwaggerProvider.Swagger.Document

/-!
Reading documents from JSON values. A node is built member by member; a member that the node does
not know goes into its extensions. Optional members accept null, all others do not.
-/

set_option autoImplicit false

namespace SwaggerProvider.Swagger

namespace Decode

def text? : Json → Option String := Json.string?

def optional {α : Type} (read : Json → Option α) : Json → Option (Option α)
  | .null => some none
  | value => (read value).map some

def flag? : Json → Option Bool
  | .bool b => some b
  | _ => none

def all {α : Type} (read : Json → Option α) : List Json → Option (List α)
  | [] => some []
  | item :: rest => do
    let a ← read item
    let as ← all read rest
    some (a :: as)

def list? {α : Type} (read : Json → Option α) : Json → Option (List α)
  | .array items => all read items
  | _ => none

def entries {α : Type} (read : Json → Option α) : List (String × Json) → Option (Table α)
  | [] => some []
  | (name, value) :: rest => do
    let a ← read value
    let as ← entries read rest
    some ((name, a) :: as)

def table? {α : Type} (read : Json → Option α) : Json → Option (Table α)
  | .object members => entries read members
  | _ => none

def any? : Json → Option Json := some

/-- Builds a node from the members of an object, last member first. -/
def node? {α : Type} (member : String → Json → α → Option α) (empty : α) : Json → Option α
  | .object members => members.foldr (fun e node => node.bind (member e.1 e.2)) (some empty)
  | _ => none

def required? : Json → Option (List String)
  | .bool _ => some []
  | value => list? text? value

def requirements? : Json → Option (List Requirement) := list? (table? (list? text?))

end Decode

open Decode

def Schema.leafMember (name : String) (value : Json) (schema : Schema) : Option Schema :=
  match name with
  | "$ref" => (optional text? value).map fun v => { schema with reference := v }
  | "type" => (optional text? value).map fun v => { schema with type := v }
  | "description" => (optional text? value).map fun v => { schema with description := v }
  | "required" => (required? value).map fun v => { schema with required := v }
  | "readOnly" => (flag? value).map fun v => { schema with readOnly := v }
  | "default" => (optional any? value).map fun v => { schema with default := v }
  | _ => some { schema with extensions := (name, value) :: schema.extensions }

mutual

def Schema.decode : Json → Option Schema
  | .object members => Schema.decodeMembers members
  | _ => none

def Schema.decodeMembers : List (String × Json) → Option Schema
  | [] => some .empty
  | (name, value) :: rest =>
    match Schema.decodeMembers rest with
    | none => none
    | some schema =>
      if name = "properties" then
        match value with
        | .object members =>
          (Schema.decodeProperties members).map fun v => { schema with properties := v }
        | _ => none
      else if name = "items" then
        match value with
        | .null => some { schema with items := none }
        | item => (Schema.decode item).map fun v => { schema with items := some v }
      else schema.leafMember name value

def Schema.decodeProperties : List (String × Json) → Option (List (String × Schema))
  | [] => some []
  | (name, value) :: rest =>
    match Schema.decode value, Schema.decodeProperties rest with
    | some schema, some schemas => some ((name, schema) :: schemas)
    | _, _ => none

end

@[simp] theorem Schema.decodeMembers_cons (name : String) (value : Json)
    (rest : List (String × Json)) :
    Schema.decodeMembers ((name, value) :: rest) =
      match Schema.decodeMembers rest with
      | none => none
      | some schema =>
        if name = "properties" then
          match value with
          | .object members =>
            (Schema.decodeProperties members).map fun v => { schema with properties := v }
          | _ => none
        else if name = "items" then
          match value with
          | .null => some { schema with items := none }
          | item => (Schema.decode item).map fun v => { schema with items := some v }
        else schema.leafMember name value := by
  cases value <;> rfl

def Parameter.member (name : String) (value : Json) (p : Parameter) : Option Parameter :=
  match name with
  | "name" => (text? value).map fun v => { p with name := v }
  | "in" => (text? value).map fun v => { p with location := v }
  | "required" => (flag? value).map fun v => { p with required := v }
  | "schema" => (optional Schema.decode value).map fun v => { p with schema := v }
  | _ => some { p with extensions := (name, value) :: p.extensions }

def Parameter.decode : Json → Option Parameter := node? Parameter.member .empty

def Response.member (name : String) (value : Json) (r : Response) : Option Response :=
  match name with
  | "description" => (text? value).map fun v => { r with description := v }
  | "schema" => (optional Schema.decode value).map fun v => { r with schema := v }
  | _ => some { r with extensions := (name, value) :: r.extensions }

def Response.decode : Json → Option Response := node? Response.member .empty

def Operation.member (name : String) (value : Json) (op : Operation) : Option Operation :=
  match name with
  | "operationId" => (optional text? value).map fun v => { op with operationId := v }
  | "parameters" => (list? Parameter.decode value).map fun v => { op with parameters := v }
  | "responses" => (table? Response.decode value).map fun v => { op with responses := v }
  | "security" => (optional requirements? value).map fun v => { op with security := v }
  | _ => some { op with extensions := (name, value) :: op.extensions }

def Operation.decode : Json → Option Operation := node? Operation.member .empty

def PathItem.member (name : String) (value : Json) (item : PathItem) : Option PathItem :=
  match name with
  | "get" => (optional Operation.decode value).map fun v => { item with get := v }
  | "put" => (optional Operation.decode value).map fun v => { item with put := v }
  | "post" => (optional Operation.decode value).map fun v => { item with post := v }
  | "delete" => (optional Operation.decode value).map fun v => { item with delete := v }
  | "parameters" => (list? Parameter.decode value).map fun v => { item with parameters := v }
  | _ => some { item with extensions := (name, value) :: item.extensions }

def PathItem.decode : Json → Option PathItem := node? PathItem.member .empty

def SecurityDefinition.member (name : String) (value : Json) (d : SecurityDefinition) :
    Option SecurityDefinition :=
  match name with
  | "type" => (text? value).map fun v => { d with type := v }
  | "name" => (optional text? value).map fun v => { d with name := v }
  | "in" => (optional text? value).map fun v => { d with location := v }
  | _ => some { d with extensions := (name, value) :: d.extensions }

def SecurityDefinition.decode : Json → Option SecurityDefinition :=
  node? SecurityDefinition.member .empty

def Document.member (name : String) (value : Json) (d : Document) : Option Document :=
  match name with
  | "swagger" => (text? value).map fun v => { d with version := v }
  | "host" => (optional text? value).map fun v => { d with host := v }
  | "basePath" => (optional text? value).map fun v => { d with basePath := v }
  | "schemes" => (list? text? value).map fun v => { d with schemes := v }
  | "paths" => (table? PathItem.decode value).map fun v => { d with paths := v }
  | "definitions" => (table? Schema.decode value).map fun v => { d with definitions := v }
  | "securityDefinitions" =>
    (table? SecurityDefinition.decode value).map fun v => { d with securityDefinitions := v }
  | "security" => (optional requirements? value).map fun v => { d with security := v }
  | _ => some { d with extensions := (name, value) :: d.extensions }

def Document.decode : Json → Option Document := node? Document.member .empty

end SwaggerProvider.Swagger
