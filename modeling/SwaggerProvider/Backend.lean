import SwaggerProvider.RegionHost
import SwaggerProvider.Swagger.Document
import SwaggerProvider.Url.Join
import SwaggerProvider.Url.Parse

/-!
Where the API lives: its host, or a host for each of its regions, its base path and its schemes.
-/

set_option autoImplicit false

namespace SwaggerProvider

structure MultiRegion where
  template : String
  keyword : String
  regions : List String
  deriving DecidableEq

structure Backend where
  host : String
  basePath : String
  schemes : List String
  multiRegion : Option MultiRegion
  deriving DecidableEq

namespace Backend

def readMultiRegion (document : Swagger.Document) : Except Error (Option MultiRegion) :=
  match document.extensions.text? multiRegionKey with
  | none => .ok none
  | some template =>
    match RegionHost.keyword? template with
    | none => .ok none
    | some keyword =>
      match (document.extensions.list? providerRegionsKey).getD [] with
      | [] => .error (.documentValidation .regionsMissing)
      | regions => .ok (some ⟨template, keyword, regions⟩)

/-- What is said about a host that should be a region template and is none. -/
def notes (document : Swagger.Document) : List String :=
  match document.extensions.text? multiRegionKey with
  | some template =>
    if (RegionHost.keyword? template).isNone then
      [s!"{multiRegionKey} '{template}' is not a region template and will be ignored"]
    else []
  | none => []

def hostOfUrl (url : String) : Except Error String :=
  if (Text.trim url).isEmpty then .error (.documentValidation .noHost)
  else match Url.parse url with
    | .error fault => .error (.documentValidation (.notUrl url fault))
    | .ok parsed =>
      if parsed.host.isSome then .ok parsed.authority
      else .error (.documentValidation (.urlWithoutHost url))

def supportedSchemes (document : Swagger.Document) : List String :=
  (document.schemes.map (String.map Text.lowerAscii)).filter fun s => s == "https" || s == "http"

def ofDocument (document : Swagger.Document) (url : String) : Except Error Backend := do
  let multiRegion ← readMultiRegion document
  let declared := Text.trim (document.host.getD "")
  let host ←
    if !declared.isEmpty then .ok declared
    else if multiRegion.isSome then .ok ""
    else hostOfUrl url
  match supportedSchemes document with
  | [] => .error (.documentValidation .noScheme)
  | schemes =>
    .ok ⟨host, Url.normaliseBase (document.basePath.getD ""), schemes, multiRegion⟩

def scheme (backend : Backend) : String :=
  if backend.schemes.contains "https" then "https" else "http"

def isMultiRegion (backend : Backend) : Bool := backend.multiRegion.isSome

def regions (backend : Backend) : List String :=
  match backend.multiRegion with
  | some m => m.regions
  | none => []

def defaultRegion (backend : Backend) : Option String := backend.regions.head?

def hostIn (backend : Backend) (region : String) : Except Error String :=
  match backend.multiRegion with
  | none => .error (.runtimeConfig .notMultiRegion)
  | some m =>
    if m.regions.contains region then .ok (RegionHost.resolve m.template m.keyword region)
    else .error (.runtimeConfig (.unknownRegion region m.regions))

/-- The host for a configured region, or else for the default one. -/
def resolveHost (backend : Backend) (region : Option String) : Except Error String :=
  if !backend.isMultiRegion then .ok backend.host
  else match region.or backend.defaultRegion with
    | some r => backend.hostIn r
    | none => .error (.runtimeConfig .noRegion)

end Backend

end SwaggerProvider
