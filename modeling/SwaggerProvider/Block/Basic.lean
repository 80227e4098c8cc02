import SwaggerProvider.Duration
import SwaggerProvider.Json.Basic

/-!
Blocks: the form in which the host is told what may be written about the provider, a resource or a
data source. Attributes and nested blocks are ordered by name.
-/

set_option autoImplicit false

namespace SwaggerProvider

mutual

inductive AttributeType where
  | string
  | int
  | float
  | bool
  | list (item : AttributeType)
  | object (block : Block)

structure Attribute where
  type : AttributeType
  description : Option String
  required : Bool
  optional : Bool
  computed : Bool
  sensitive : Bool
  forceNew : Bool
  default : Option Json

structure NestedBlock where
  block : Block
  minItems : Nat
  maxItems : Option Nat

structure Block where
  attributes : List (String × Attribute)
  blocks : List (String × NestedBlock)

end

namespace Attribute

def ofType (type : AttributeType) : Attribute where
  type := type
  description := none
  required := false
  optional := false
  computed := false
  sensitive := false
  forceNew := false
  default := none

def asRequired (a : Attribute) : Attribute := { a with required := true, optional := false }

def asOptional (a : Attribute) : Attribute := { a with optional := true, required := false }

end Attribute

namespace Block

def empty : Block := ⟨[], []⟩

def ofAttributes (attributes : List (String × Attribute)) : Block := ⟨Table.sorted attributes, []⟩

def attribute? (b : Block) (name : String) : Option Attribute := Table.get? b.attributes name

def withAttribute (b : Block) (name : String) (a : Attribute) : Block :=
  { b with attributes := Table.insertSorted b.attributes name a }

def withBlock (b : Block) (name : String) (nested : NestedBlock) : Block :=
  { b with blocks := Table.insertSorted b.blocks name nested }

end Block

structure Timeouts where
  create : Option Duration
  read : Option Duration
  update : Option Duration
  delete : Option Duration

def Timeouts.ofRead (read : Option Duration) : Timeouts := ⟨none, read, none, none⟩

structure TypeSchema where
  block : Block
  timeouts : Timeouts

/-- All that a provider offers: its own block, its resources and its data sources. -/
structure ProviderSchema where
  provider : Block
  resources : Table TypeSchema
  dataSources : Table TypeSchema

end SwaggerProvider
