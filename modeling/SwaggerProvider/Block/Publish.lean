import SwaggerProvider.Analysis
import SwaggerProvider.Block.Basic

/-!
What an analysis publishes to the host: a block for the provider's configuration, one for each
resource, and one for each data source. Every resource that is not excluded can also be read by its
identifier, as a data source of its own.
-/

set_option autoImplicit false

namespace SwaggerProvider

namespace Publish

def scalarType : Scalar → AttributeType
  | .string => .string
  | .integer => .int
  | .number => .float
  | .bool => .bool

/-- Who gives a value to the field: the host, the API, or either. -/
def traitAttribute (t : Traits) (type : AttributeType) (replaces : Bool) : Attribute :=
  let base := { Attribute.ofType type with description := t.description, sensitive := t.sensitive }
  if t.readOnly then { base with computed := true }
  else
    { (if t.required then base.asRequired
        else { base.asOptional with computed := t.isOptionalComputed }) with
      forceNew := t.forceNew || t.immutable || replaces
      default := t.default }

mutual

def fieldAttribute (replaces : Bool) : Field → Attribute
  | ⟨traits, kind⟩ => traitAttribute traits (kindType replaces kind) replaces

def kindType (replaces : Bool) : Kind Field → AttributeType
  | .scalar type => scalarType type
  | .scalars type => .list (scalarType type)
  | .record fields => .object (.ofAttributes (fieldAttributes replaces fields))
  | .records fields => .list (.object (.ofAttributes (fieldAttributes replaces fields)))

/-- The attributes of the fields under their host names, in the order of the fields. -/
def fieldAttributes (replaces : Bool) : List Field → List (String × Attribute)
  | [] => []
  | f :: rest => (f.hostName, fieldAttribute replaces f) :: fieldAttributes replaces rest

end

/-- The fields that appear as attributes: all but the identifier of the host. -/
def ownFields (r : Record) : Record := r.filter fun f => f.hostName != Record.idName

def parentAttribute (p : Parent) : Attribute :=
  { (Attribute.ofType .string).asRequired with
    forceNew := true
    description := some s!"Identifier of the parent {p.name}" }

def withParents (b : Block) (parents : List Parent) : Block :=
  parents.foldl (fun b p => b.withAttribute p.attribute (parentAttribute p)) b

/-- The schema of a resource. One that cannot be updated is replaced on every change. -/
def resource (r : Resource) : TypeSchema where
  block := withParents (.ofAttributes (fieldAttributes (!r.isUpdatable) (ownFields r.record)))
    r.parents
  timeouts := ⟨r.post.timeout, r.get.timeout, r.put.bind Operation.timeout,
    r.delete.bind Operation.timeout⟩

def readAttribute (f : Field) : Attribute :=
  { fieldAttribute false f with
    required := false
    optional := false
    forceNew := false
    default := none
    computed := true }

def readBlock (r : Record) : Block :=
  .ofAttributes ((ownFields r).map fun f => (f.hostName, readAttribute f))

def filterName : String := "filter"

def filterBlock : NestedBlock where
  block := .ofAttributes [("name", (Attribute.ofType .string).asRequired),
    ("values", (Attribute.ofType (.list .string)).asRequired)]
  minItems := 0
  maxItems := none

def dataSource (d : DataSource) : TypeSchema where
  block := (withParents (readBlock d.record) d.parents).withBlock filterName filterBlock
  timeouts := .ofRead d.get.timeout

def instanceSource (r : Resource) : TypeSchema where
  block := (withParents (readBlock r.record) r.parents).withAttribute Record.idName
    { (Attribute.ofType .string).asRequired with
      description := some s!"Identifier of the {r.name} to read" }
  timeouts := .ofRead r.get.timeout

end Publish

namespace Analysis

def offered (a : Analysis) : List Resource := a.resources.filter fun r => !r.excluded

def instanceSuffix : String := "_instance"

def regionName : String := "region"

def endpointsName : String := "endpoints"

def securityAttribute (a : Analysis) (d : Security.Definition) : Attribute :=
  let secret := { Attribute.ofType .string with sensitive := true }
  if a.security.isGlobal d.name then secret.asRequired else secret.asOptional

def headerAttribute (h : Header) : Attribute :=
  { (Attribute.ofType .string).asOptional with
    description := some s!"Value of the '{h.name}' header" }

def regionAttribute (b : Backend) : Attribute :=
  { (Attribute.ofType .string).asOptional with
    description := some ("One of: " ++ ", ".intercalate b.regions ++ "; defaults to the first") }

def configBlock (a : Analysis) : Block :=
  let b := Block.ofAttributes
    (a.security.definitions.values.map (fun d => (d.configName, a.securityAttribute d)) ++
      a.headers.map (fun h => (h.configName, headerAttribute h)) ++
      if a.backend.isMultiRegion then [(regionName, regionAttribute a.backend)] else [])
  match a.offered with
  | [] => b
  | offered =>
    b.withBlock endpointsName
      ⟨.ofAttributes (offered.map fun r => (r.name, (Attribute.ofType .string).asOptional)), 0,
        some 1⟩

def typeName (provider name : String) : String := provider ++ "_" ++ name

/-- The published schema; of a data source and a resource that claim the same name, the resource
is published. -/
def providerSchema (a : Analysis) (provider : String) : ProviderSchema where
  provider := a.configBlock
  resources := Table.sorted (a.offered.map fun r => (typeName provider r.name, Publish.resource r))
  dataSources := Table.sorted
    (a.dataSources.map (fun d => (typeName provider d.name, Publish.dataSource d)) ++
      a.offered.map fun r =>
        (typeName provider (r.name ++ instanceSuffix), Publish.instanceSource r))

end Analysis

end SwaggerProvider
