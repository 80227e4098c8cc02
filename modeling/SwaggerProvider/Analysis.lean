import SwaggerProvider.Backend
import SwaggerProvider.Log.Basic
import SwaggerProvider.Path.Parents
import SwaggerProvider.Record.Compile
import SwaggerProvider.Resource
import SwaggerProvider.Swagger.Encode
import SwaggerProvider.Swagger.Merge

/-!
Finding the resources and data sources of a document. Every path is looked at on its own; a path
that breaks a rule is skipped with the reason, and only faults of the document as a whole end the
analysis. Names are given in the order of the paths, the first path that claims a name gets it.
-/

set_option autoImplicit false

namespace SwaggerProvider

/-- A path without a place in the result, and why. -/
structure Skipped where
  path : String
  reason : String
  deriving DecidableEq

structure Analysis where
  resources : List Resource
  dataSources : List DataSource
  skipped : List Skipped
  backend : Backend
  security : Security.Schemes
  headers : List Header
  events : List Log.Event

namespace Analysis

open Swagger (Document PathItem Schema)

def excludeKey : String := "x-terraform-exclude-resource"

def nameKey : String := "x-terraform-resource-name"

def hostKey : String := "x-terraform-resource-host"

def regionsStart : String := "x-terraform-resource-regions-"

/-- A text extension without the blanks around it, if anything is left. -/
def trimmed? (ext : Swagger.Extensions) (key : String) : Option String :=
  ((ext.text? key).map Text.trim).filter fun s => !s.isEmpty

def preferredName (op : Option Swagger.Operation) : Option String :=
  op.bind fun op => trimmed? op.extensions nameKey

def isExcluded (op : Option Swagger.Operation) : Bool :=
  op.any fun op => op.extensions.flag excludeKey

def joinNames (parents : List String) (own : String) : String :=
  if parents.isEmpty then own else "_".intercalate parents ++ "_" ++ own

/-- An instance path whose operations have the form of a resource. -/
structure Candidate where
  root : String
  rootItem : PathItem
  get : Swagger.Operation
  post : Swagger.Operation
  schema : Schema
  notes : List String

def inResource {α : Type} (name : String) (result : Except Error α) : Except Error α :=
  result.mapError fun e => e.inResource name

def returnedSchema? (op : Swagger.Operation) : Option Schema :=
  op.successSchema?.filter Schema.hasProperties

/-- The schema of a resource, from the body that creates it and what comes back, with what is said
about it. -/
def resourceSchema (path : String) (post : Swagger.Operation) :
    Except Error (Schema × List String) :=
  match post.bodySchema?, returnedSchema? post with
  | some body, returned =>
    if !body.hasProperties then .error (.resourceCompilation path .emptyBody)
    else match returned with
      | some response =>
        if body.same response then .ok (body, [])
        else (inResource path (Schema.merge body response)).map fun merged =>
          (merged, Schema.mergeNotes body response)
      | none => .ok (body, [])
  | none, some response =>
    match response.properties.find? fun e => !e.2.readOnly with
    | some (name, _) => .error (.resourceCompilation path (.writableWithoutBody name))
    | none => .ok (response, [])
  | none, none => .error (.resourceCompilation path .noSchema)

/-- The operation that reads an instance; it has to answer 200 with an object. -/
def objectGet? (item : PathItem) : Option Swagger.Operation :=
  item.get.filter fun get =>
    ((get.response? 200).bind Swagger.Response.schema).any Schema.isObject

def candidate (document : Document) (path : String) (item : PathItem) : Except Error Candidate :=
  match objectGet? item with
  | none => .error (.resourceCompilation path .noObjectGet)
  | some get => do
    let root ← Path.findRoot path document.paths.keys
    match document.paths.get? root with
    | none => .error (.resourceCompilation path (.rootUndefined root))
    | some rootItem =>
      match rootItem.post with
      | none => .error (.resourceCompilation path .noPost)
      | some post =>
        let (schema, notes) ← resourceSchema path post
        return { root, rootItem, get, post, schema, notes }

/-- A path item, whether its path is written with a final slash or without one. -/
def item? (document : Document) (path : String) : Option PathItem :=
  ((document.paths.get? path).or (document.paths.get? (path ++ "/"))).or
    (document.paths.get? (String.ofList (Text.trimEndBy Url.isSlash path.toList)))

def parentsFrom (document : Document) (path : String) (names : List String)
    (parents : List Parent) : List Path.Parent → Except Error (List String × List Parent)
  | [] => .ok (names, parents)
  | p :: rest =>
    match item? document p.root with
    | none => .error (.resourceCompilation path (.parentRootUndefined p.root))
    | some rootItem => do
      if (item? document p.instancePath).isNone then
        throw (.resourceCompilation path (.parentInstanceUndefined p.instancePath))
      if isExcluded rootItem.post then
        throw (.resourceCompilation path (.parentExcluded p.root))
      let name ← Path.name p.root
      let names := names ++ [name.render (preferredName rootItem.post)]
      let parent : Parent := ⟨"_".intercalate names, p.root, p.instancePath⟩
      parentsFrom document path names (parents ++ [parent]) rest

def parentsOf (document : Document) (path : String) : Except Error (List String × List Parent) := do
  let chain ← Path.chain path
  parentsFrom document path [] [] chain.parents

/-- The names and hosts of a resource: one for each region if its host is a region template. -/
def hosts (document : Document) (name : String) (post : Swagger.Operation) :
    Except Error (List (String × Host)) :=
  match trimmed? post.extensions hostKey with
  | none => .ok [(name, .global)]
  | some host =>
    match RegionHost.keyword? host with
    | none => .ok [(name, .override host)]
    | some keyword =>
      let key := regionsStart ++ keyword
      match document.extensions.list? key with
      | none => .error (.documentValidation (.hostRegionsUndeclared name host key))
      | some [] => .error (.documentValidation (.hostRegionsEmpty name host key))
      | some regions =>
        .ok (regions.map fun region =>
          (name ++ "_" ++ Text.snakeCase region,
            .regional region (RegionHost.resolve host keyword region)))

def optionally {α β : Type} (f : α → Except Error β) : Option α → Except Error (Option β)
  | some a => (f a).map some
  | none => .ok none

/-- The resource of an instance path before it gets its hosts, and the operation that creates
it. -/
def draft (document : Document) (schemes : Security.Schemes) (path : String) (item : PathItem) :
    Except Error (Resource × Swagger.Operation) := do
  let c ← candidate document path item
  let record ← inResource path (Record.compile document.definitions c.schema)
  let _ ← inResource path record.checkIdentifier
  let (names, parents) ← parentsOf document path
  let own ← Path.name c.root
  let name := joinNames names (own.render (preferredName (some c.post)))
  let instanceOp (op : Swagger.Operation) := Operation.compile op item.parameters schemes
  let post ← inResource name (Operation.compile c.post c.rootItem.parameters schemes)
  let get ← inResource name (instanceOp c.get)
  let put ← inResource name (optionally instanceOp item.put)
  let delete ← inResource name (optionally instanceOp item.delete)
  return ({
    name, root := c.root, instancePath := path, record, post, get, put, delete, host := .global
    parents, excluded := isExcluded (some c.post) }, c.post)

/-- The resources of an instance path: one, or one for each region. -/
def resourcesAt (document : Document) (schemes : Security.Schemes) (path : String)
    (item : PathItem) : Except Error (List Resource) := do
  let (r, post) ← draft document schemes path item
  let hosts ← hosts document r.name post
  return hosts.map fun (name, host) => { r with name, host }

def resourceNotes (document : Document) (path : String) (item : PathItem) : List String :=
  match candidate document path item with
  | .ok c => c.notes ++ Record.objectNotes document.definitions c.schema
  | .error _ => []

/-- The schema of the items of a collection: the operation that reads it has to answer 200 with a
list of objects that have properties. -/
def itemSchema? (get : Swagger.Operation) : Option Schema := do
  let schema ← (get.response? 200).bind Swagger.Response.schema
  let items ← if schema.isType "array" then schema.items else none
  if items.isObject && items.hasProperties && !get.extensions.flag excludeKey then some items
  else none

/-- A host of a single region that the operation beside the collection names. -/
def dataSourceHost (item : PathItem) : Host :=
  match item.post.bind fun post => post.extensions.text? hostKey with
  | some host =>
    if (Text.trim host).isEmpty || (RegionHost.keyword? host).isSome then .global
    else .override (Text.trim host)
  | none => .global

/-- The data source of a path that is not an instance path, if it is a collection. -/
def dataSourceAt (document : Document) (schemes : Security.Schemes) (path : String)
    (item : PathItem) : Except Error (Option DataSource) :=
  match item.get.bind fun get => (itemSchema? get).map fun items => (get, items) with
  | none => .ok none
  | some (get, items) => do
    let record ← inResource path (Record.compile document.definitions items)
    let (names, parents) ← parentsOf document path
    let own ← Path.name path
    let name := joinNames names (own.render (preferredName (item.post.or (some get))))
    let get ← inResource name (Operation.compile get item.parameters schemes)
    return some { name, path, record, get, host := dataSourceHost item, parents }

def dataSourceNotes (document : Document) (item : PathItem) : List String :=
  match item.get.bind itemSchema? with
  | some items => Record.objectNotes document.definitions items
  | none => []

inductive Finding where
  | resources (resources : List Resource)
  | skippedResource (error : Error)
  | dataSource (dataSource : Option DataSource)
  | skippedDataSource (error : Error)

/-- Looks at one path. Only errors of the whole document are passed on. -/
def finding (document : Document) (schemes : Security.Schemes) (path : String) (item : PathItem) :
    Except Error Finding :=
  if Path.isInstance path then
    match resourcesAt document schemes path item with
    | .ok found => .ok (.resources found)
    | .error e => if e.isCompilation then .ok (.skippedResource e) else .error e
  else
    match dataSourceAt document schemes path item with
    | .ok found => .ok (.dataSource found)
    | .error e => if e.isCompilation then .ok (.skippedDataSource e) else .error e

def warn (text : String) : Log.Event := ⟨.warn, text⟩

def notes (document : Document) (path : String) (item : PathItem) : List Log.Event :=
  (if Path.isInstance path then resourceNotes document path item
    else dataSourceNotes document item).map warn

def say (analysis : Analysis) (events : List Log.Event) : Analysis :=
  { analysis with events := analysis.events ++ events }

def skip (analysis : Analysis) (path reason : String) : Analysis :=
  { analysis with skipped := analysis.skipped ++ [⟨path, reason⟩] }

def addResource (path : String) (analysis : Analysis) (r : Resource) : Analysis :=
  if analysis.resources.any fun other => other.name == r.name then
    let reason := s!"duplicate resource name '{r.name}'"
    (analysis.skip path reason).say [warn s!"skipping {path}: {reason}"]
  else
    ({ analysis with resources := analysis.resources ++ [r] }).say
      [⟨.debug, s!"compiled resource '{r.name}' from {path} ({r.record.length} properties)"⟩]

/-- Enters a data source under its name; one whose name is taken is only mentioned. -/
def addDataSource (path : String) (analysis : Analysis) (d : DataSource) : Analysis :=
  if analysis.dataSources.any fun other => other.name == d.name then
    analysis.say [warn s!"skipping data source {path}: duplicate name '{d.name}'"]
  else { analysis with dataSources := analysis.dataSources ++ [d] }

def add (document : Document) (analysis : Analysis) (path : String) (item : PathItem)
    (finding : Finding) : Analysis :=
  let analysis := analysis.say (notes document path item)
  match finding with
  | .resources found => found.foldl (addResource path) analysis
  | .skippedResource e =>
    (analysis.skip path e.message).say [warn s!"skipping {path}: {e.message}"]
  | .dataSource none => analysis
  | .dataSource (some d) => addDataSource path analysis d
  | .skippedDataSource e =>
    (analysis.skip path e.message).say [warn s!"skipping data source {path}: {e.message}"]

def findings (document : Document) (schemes : Security.Schemes) :
    List (String × PathItem) → Except Error (List (String × PathItem × Finding))
  | [] => .ok []
  | (path, item) :: rest => do
    let found ← finding document schemes path item
    let more ← findings document schemes rest
    return (path, item, found) :: more

def start (document : Document) (backend : Backend) (schemes : Security.Schemes) : Analysis where
  resources := []
  dataSources := []
  skipped := []
  backend := backend
  security := schemes
  headers := Header.ofDocument document
  events := (Security.Schemes.notes document ++ Backend.notes document).map warn

end Analysis

def analyse (document : Swagger.Document) (url : String) : Except Error Analysis := do
  let schemes := Security.Schemes.ofDocument document
  let backend ← Backend.ofDocument document url
  let found ← Analysis.findings document schemes document.paths
  return found.foldl (fun analysis (path, item, finding) =>
    analysis.add document path item finding) (Analysis.start document backend schemes)

end SwaggerProvider
