import SwaggerProvider.Operation
import SwaggerProvider.Record.Basic

/-!
What a document exposes: resources, which are created, read, updated and deleted, and data sources,
which are collections to select one item from.
-/

set_option autoImplicit false

namespace SwaggerProvider

/-- A resource in whose path the path of another one lies. -/
structure Parent where
  name : String
  root : String
  instancePath : String
  deriving DecidableEq

def Parent.attribute (p : Parent) : String := p.name ++ "_id"

inductive Host where
  | global
  | override (host : String)
  | regional (region host : String)
  deriving DecidableEq

structure Resource where
  name : String
  root : String
  instancePath : String
  record : Record
  post : Operation
  get : Operation
  put : Option Operation
  delete : Option Operation
  host : Host
  parents : List Parent
  excluded : Bool

namespace Resource

def isUpdatable (r : Resource) : Bool := r.put.isSome

def region (r : Resource) : Option String :=
  match r.host with
  | .regional region _ => some region
  | _ => none

end Resource

structure DataSource where
  name : String
  path : String
  record : Record
  get : Operation
  host : Host
  parents : List Parent

end SwaggerProvider
