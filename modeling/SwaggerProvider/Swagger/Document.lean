import SwaggerProvider.Json.Basic
import SwaggerProvider.Text.Basic

/-!
Swagger 2.0 documents. Each node has the members that the provider reads, and its extensions:
all other members, vendor extensions among them, as they were written.
-/

set_option autoImplicit false

namespace SwaggerProvider.Swagger

abbrev Extensions := Members

namespace Extensions

/-- A flag is set by `true` and by the text `true` in any case. -/
def flag (ext : Extensions) (key : String) : Bool :=
  match Table.get? ext key with
  | some (.bool b) => b
  | some (.string s) => s.toList.map Text.lowerAscii == "true".toList
  | _ => false

def text? (ext : Extensions) (key : String) : Option String :=
  (Table.get? ext key).bind Json.string?

/-- A list is comma separated text or an array of such texts; any other value is an empty list. -/
def list? (ext : Extensions) (key : String) : Option (List String) :=
  match Table.get? ext key with
  | none => none
  | some (.string s) => some (Text.commaList s)
  | some (.array items) => some ((items.filterMap Json.string?).flatMap Text.commaList)
  | some _ => some []

def union (ext other : Extensions) : Extensions :=
  other.foldl (fun t e => Table.insert t e.1 e.2) ext

end Extensions

structure Schema where
  reference : Option String
  type : Option String
  description : Option String
  properties : List (String × Schema)
  items : Option Schema
  required : List String
  readOnly : Bool
  default : Option Json
  extensions : Extensions

namespace Schema

def empty : Schema := ⟨none, none, none, [], none, [], false, none, []⟩

def isType (schema : Schema) (type : String) : Bool := schema.type == some type

def hasProperties (schema : Schema) : Bool := !schema.properties.isEmpty

/-- A schema without a type is an object when it has properties. -/
def isObject (schema : Schema) : Bool :=
  schema.isType "object" || (schema.type.isNone && schema.hasProperties)

/-- What holds of a schema when it holds of its properties and items, holds of every schema. -/
theorem induction {motive : Schema → Prop}
    (step : ∀ schema : Schema, (∀ e ∈ schema.properties, motive e.2) →
      (∀ items, schema.items = some items → motive items) → motive schema)
    (schema : Schema) : motive schema := by
  refine @Schema.rec motive (fun properties => ∀ e ∈ properties, motive e.2)
    (fun items => ∀ schema, items = some schema → motive schema) (fun e => motive e.2)
    ?_ ?_ ?_ ?_ ?_ ?_ schema
  · intro reference type description properties items required readOnly default ext hp hi
    exact step _ hp hi
  · intro e he
    exact absurd he List.not_mem_nil
  · intro first rest hfirst hrest e he
    rcases List.mem_cons.1 he with rfl | he
    · exact hfirst
    · exact hrest e he
  · intro schema h
    cases h
  · intro items hitems schema h
    cases h
    exact hitems
  · exact fun _ _ h => h

end Schema

/-- Scheme names with their scopes, all of which have to be satisfied together. -/
abbrev Requirement := Table (List String)

structure Parameter where
  name : String
  location : String
  required : Bool
  schema : Option Schema
  extensions : Extensions

def Parameter.empty : Parameter := ⟨"", "", false, none, []⟩

structure Response where
  description : String
  schema : Option Schema
  extensions : Extensions

def Response.empty : Response := ⟨"", none, []⟩

structure Operation where
  operationId : Option String
  parameters : List Parameter
  responses : Table Response
  security : Option (List Requirement)
  extensions : Extensions

namespace Operation

def empty : Operation := ⟨none, [], [], none, []⟩

def bodySchema? (op : Operation) : Option Schema :=
  (op.parameters.find? fun p => p.location == "body").bind Parameter.schema

def response? (op : Operation) (status : Nat) : Option Response :=
  op.responses.get? (toString status)

def successSchema? (op : Operation) : Option Schema :=
  ([201, 200, 202].filterMap fun status => op.response? status).findSome? Response.schema

end Operation

inductive Method where
  | get
  | post
  | put
  | delete
  deriving DecidableEq

def Method.text : Method → String
  | .get => "GET"
  | .post => "POST"
  | .put => "PUT"
  | .delete => "DELETE"

structure PathItem where
  get : Option Operation
  put : Option Operation
  post : Option Operation
  delete : Option Operation
  parameters : List Parameter
  extensions : Extensions

namespace PathItem

def empty : PathItem := ⟨none, none, none, none, [], []⟩

/-- The operations that are there, in the order get, post, put, delete. -/
def operations (item : PathItem) : List Operation :=
  [item.get, item.post, item.put, item.delete].filterMap id

def operation? (item : PathItem) : Method → Option Operation
  | .get => item.get
  | .post => item.post
  | .put => item.put
  | .delete => item.delete

theorem mem_operations {item : PathItem} {method : Method} {op : Operation}
    (h : item.operation? method = some op) : op ∈ item.operations := by
  cases method <;> simp_all [operation?, operations]

end PathItem

structure SecurityDefinition where
  type : String
  name : Option String
  location : Option String
  extensions : Extensions

def SecurityDefinition.empty : SecurityDefinition := ⟨"", none, none, []⟩

structure Document where
  version : String
  host : Option String
  basePath : Option String
  schemes : List String
  paths : Table PathItem
  definitions : Table Schema
  securityDefinitions : Table SecurityDefinition
  security : Option (List Requirement)
  extensions : Extensions

def Document.empty : Document := ⟨"", none, none, [], [], [], [], none, []⟩

end SwaggerProvider.Swagger
