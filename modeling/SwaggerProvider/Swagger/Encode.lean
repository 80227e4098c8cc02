import SwaggerProvider.Swagger.Document

/-!
Writing documents as JSON values: the known members in a fixed order, those that are unset left
out, then the extensions.
-/

set_option autoImplicit false

namespace SwaggerProvider.Swagger

namespace Encode

def optional {α : Type} (name : String) (write : α → Json) : Option α → Members
  | some a => [(name, write a)]
  | none => []

def texts (list : List String) : Json := .array (list.map .string)

def table {α : Type} (write : α → Json) (t : Table α) : Json :=
  .object (t.map fun e => (e.1, write e.2))

def requirements (list : List Requirement) : Json := .array (list.map (table texts))

end Encode

open Encode

mutual

def Schema.encode : Schema → Json
  | ⟨reference, type, description, properties, items, required, readOnly, default, extensions⟩ =>
    .object (optional "$ref" .string reference ++ optional "type" .string type ++
      optional "description" .string description ++
      (match properties with
        | [] => []
        | property :: rest =>
          [("properties", .object (Schema.encodeProperties (property :: rest)))]) ++
      (match items with
        | some item => [("items", item.encode)]
        | none => []) ++
      (if required.isEmpty then [] else [("required", texts required)]) ++
      (if readOnly then [("readOnly", .bool true)] else []) ++
      optional "default" id default ++ extensions)

def Schema.encodeProperties : List (String × Schema) → List (String × Json)
  | [] => []
  | (name, schema) :: rest => (name, schema.encode) :: Schema.encodeProperties rest

end

/-- Schemas agree when their written forms do, up to the order of members. -/
def Schema.same (a b : Schema) : Bool := a.encode.same b.encode

def Parameter.encode (p : Parameter) : Json :=
  .object ([("name", .string p.name), ("in", .string p.location), ("required", .bool p.required)] ++
    optional "schema" Schema.encode p.schema ++ p.extensions)

def Response.encode (r : Response) : Json :=
  .object ([("description", .string r.description)] ++
    optional "schema" Schema.encode r.schema ++ r.extensions)

def Operation.encode (op : Operation) : Json :=
  .object (optional "operationId" .string op.operationId ++
    [("parameters", .array (op.parameters.map Parameter.encode)),
      ("responses", table Response.encode op.responses)] ++
    optional "security" requirements op.security ++ op.extensions)

def PathItem.encode (item : PathItem) : Json :=
  .object (optional "get" Operation.encode item.get ++ optional "put" Operation.encode item.put ++
    optional "post" Operation.encode item.post ++
    optional "delete" Operation.encode item.delete ++
    [("parameters", .array (item.parameters.map Parameter.encode))] ++ item.extensions)

def SecurityDefinition.encode (d : SecurityDefinition) : Json :=
  .object ([("type", .string d.type)] ++ optional "name" .string d.name ++
    optional "in" .string d.location ++ d.extensions)

def Document.encode (d : Document) : Json :=
  .object ([("swagger", .string d.version)] ++ optional "host" .string d.host ++
    optional "basePath" .string d.basePath ++
    [("schemes", texts d.schemes), ("paths", table PathItem.encode d.paths),
      ("definitions", table Schema.encode d.definitions),
      ("securityDefinitions", table SecurityDefinition.encode d.securityDefinitions)] ++
    optional "security" requirements d.security ++ d.extensions)

end SwaggerProvider.Swagger
