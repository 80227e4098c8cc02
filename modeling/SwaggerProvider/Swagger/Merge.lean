import SwaggerProvider.Error
import SwaggerProvider.Swagger.Document

/-!
One schema for what a resource is sent as and comes back as. The response gives the properties and
their order; what the request can set keeps the request's form, and all else becomes read only.
-/

set_option autoImplicit false

namespace SwaggerProvider.Swagger.Schema

def writable? (schema : Schema) (name : String) : Option Schema :=
  (schema.properties.find? fun e => e.1 == name && !e.2.readOnly).map Prod.snd

/-- Writable request properties that the response does not return. -/
def unreturned (request response : Schema) : List String :=
  (request.properties.filter fun e =>
    !e.2.readOnly && !Table.contains response.properties e.1).map Prod.fst

/-- A property of the merged schema; the extensions of the response win. -/
def mergeProperty (request : Schema) (name : String) (returned : Schema) : Schema :=
  match request.writable? name with
  | some requested =>
    { requested with extensions := requested.extensions.union returned.extensions }
  | none => { returned with readOnly := true }

def merge (request response : Schema) : Except Error Schema :=
  match unreturned request response with
  | [] =>
    .ok { response with
      properties := response.properties.map fun e => (e.1, mergeProperty request e.1 e.2)
      required := request.required }
  | missing => .error (.resourceCompilation "" (.missingInResponse missing))

/-- What is said about properties that only become read only here. -/
def mergeNotes (request response : Schema) : List String :=
  response.properties.filterMap fun e =>
    if !e.2.readOnly && (request.writable? e.1).isNone then
      some s!"response property '{e.1}' is not in the request schema; treating it as readOnly"
    else none

end SwaggerProvider.Swagger.Schema
