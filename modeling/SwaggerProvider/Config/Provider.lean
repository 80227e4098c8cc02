import SwaggerProvider.Block.Publish
import SwaggerProvider.Config.Endpoint
import SwaggerProvider.Sha256

/-!
The configuration of a provider: values for credentials and headers, endpoints in the place of the
hosts of resources, and a region. Only what the analysis knows is taken from the host's values.
-/

set_option autoImplicit false

namespace SwaggerProvider

structure Configuration where
  security : Table String
  headers : Table String
  endpoints : Table String
  region : Option String
  deriving DecidableEq

namespace Configuration

def empty : Configuration := ⟨[], [], [], none⟩

def value? (values : Members) (key : String) : Option String :=
  ((values.get? key).bind Json.string?).filter fun s => !s.isEmpty

/-- Values for the security definitions; those of the whole document have to be there. -/
def readSecurity (values : Members) (schemes : Security.Schemes) :
    List Security.Definition → Except Error (List (String × String))
  | [] => .ok []
  | d :: rest =>
    match value? values d.configName with
    | some value =>
      (readSecurity values schemes rest).map ((d.configName, value) :: ·)
    | none =>
      if schemes.isGlobal d.name then
        .error (.runtimeConfig (.missingProviderAttribute d.configName))
      else readSecurity values schemes rest

def readHeaders (values : Members) (headers : List Header) : List (String × String) :=
  headers.filterMap fun h => (value? values h.configName).map fun value => (h.configName, value)

/-- Endpoints are given as an object or as a list whose first entry is one. -/
def givenEndpoints (values : Members) : List (String × String) :=
  let members := match values.get? Analysis.endpointsName with
    | some (.object members) => members
    | some (.array (.object members :: _)) => members
    | _ => []
  members.filterMap fun e =>
    (e.2.string?.filter fun host => !host.isEmpty).map fun host => (e.1, host)

def isResource (a : Analysis) (name : String) : Bool := a.resources.any fun r => r.name == name

/-- Every endpoint has to be valid; those of unknown resources are dropped. -/
def readEndpoints (a : Analysis) : List (String × String) → Except Error (List (String × String))
  | [] => .ok []
  | (name, host) :: rest => do
    Endpoint.check host
    let more ← readEndpoints a rest
    return if isResource a name then (name, host) :: more else more

def readRegion (values : Members) (b : Backend) : Except Error (Option String) :=
  match value? values Analysis.regionName with
  | none => .ok none
  | some region =>
    if b.regions.isEmpty then .error (.runtimeConfig .regionWithoutRegions)
    else if b.regions.contains region then .ok (some region)
    else .error (.runtimeConfig (.unknownRegion region b.regions))

def ofValues (values : Members) (a : Analysis) : Except Error Configuration := do
  let security ← readSecurity values a.security a.security.definitions.values
  let endpoints ← readEndpoints a (givenEndpoints values)
  let region ← readRegion values a.backend
  return {
    security := Table.sorted security
    headers := Table.sorted (readHeaders values a.headers)
    endpoints := Table.sorted endpoints
    region }

/-- What is said about endpoints of unknown resources, up to one that is not valid. -/
def endpointNotes (a : Analysis) : List (String × String) → List String
  | [] => []
  | (name, host) :: rest =>
    match Endpoint.check host with
    | .error _ => []
    | .ok _ =>
      (if isResource a name then []
        else [s!"endpoint override for unknown resource '{name}' is ignored"]) ++
      endpointNotes a rest

def notes (values : Members) (a : Analysis) : List String :=
  match readSecurity values a.security a.security.definitions.values with
  | .ok _ => endpointNotes a (givenEndpoints values)
  | .error _ => []

def hashedText (endpoints : Table String) : String :=
  String.join (endpoints.map fun e => e.1 ++ "=" ++ e.2 ++ "\n")

def endpointsHash (c : Configuration) : String := Sha256.hex (hashedText c.endpoints)

def isEquivalent (c d : Configuration) : Bool :=
  c.security == d.security && c.headers == d.headers && c.region == d.region &&
  c.endpointsHash == d.endpointsHash

/-- The host of a resource: its endpoint, its own host, or the host of the API. -/
def hostOf (c : Configuration) (b : Backend) (name : String) (host : Host) : Except Error String :=
  match c.endpoints.get? name with
  | some endpoint => .ok endpoint
  | none =>
    match host with
    | .override host => .ok host
    | .regional _ host => .ok host
    | .global => b.resolveHost c.region

end Configuration

end SwaggerProvider
