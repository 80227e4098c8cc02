import SwaggerProvider.Config.Service
import SwaggerProvider.Lifecycle

/-!
A provider as the host drives it: it is configured, asked to create, read, update and delete
resources and to read data sources, and stopped. A configuration that is equivalent to the present
one keeps the client.
-/

set_option autoImplicit false

namespace SwaggerProvider

structure Provider where
  name : String
  analysis : Analysis
  settings : Settings
  client : Option Client

inductive HostCall where
  | configure (values : Members)
  | stop
  | create (type : String) (planned : Members)
  | read (type : String) (current : ResourceState)
  | update (type : String) (prior : ResourceState) (planned : Members)
  | delete (type : String) (current : ResourceState)
  | readData (type : String) (config : Members)

namespace Provider

open Http (Run Timeline)

def ofDocument (name : String) (document : Swagger.Document) (url : String)
    (settings : Settings) : Except Error Provider := do
  Service.checkName name
  let analysis ← analyse document url
  return ⟨name, analysis, settings, none⟩

def openingEvents (p : Provider) : List Log.Event :=
  p.analysis.events ++ [⟨.info,
    s!"provider '{p.name}': {p.analysis.resources.length} resources, " ++
    s!"{p.analysis.dataSources.length} data sources, {p.analysis.skipped.length} paths skipped"⟩]

def schema (p : Provider) : ProviderSchema := p.analysis.providerSchema p.name

def localName? (p : Provider) (type : String) : Option String :=
  (Text.after? (p.name ++ "_").toList type.toList).map String.ofList

def offered? (p : Provider) (name : String) : Option Resource :=
  p.analysis.offered.find? fun r => r.name == name

def resource (p : Provider) (type : String) : Except Error Resource :=
  match (p.localName? type).bind p.offered? with
  | some r => .ok r
  | none => .error (.unknownResource type)

inductive DataHandler where
  | collection (dataSource : DataSource)
  | byId (resource : Resource)

def instanceName? (name : String) : Option String :=
  (Text.before? Analysis.instanceSuffix.toList name.toList).map String.ofList

def dataHandler? (p : Provider) (name : String) : Option DataHandler :=
  match p.analysis.dataSources.find? fun d => d.name == name with
  | some d => some (.collection d)
  | none => ((instanceName? name).bind p.offered?).map .byId

def configured (p : Provider) : Except Error Client :=
  match p.client with
  | some c => .ok c
  | none => .error .notConfigured

def clientFor (p : Provider) (config : Configuration) : Client where
  backend := p.analysis.backend
  schemes := p.analysis.security
  config := config
  settings := p.settings

def newClient (p : Provider) (config : Configuration) : Run Client := do
  match ← Run.build with
  | some reason => throw (.runtimeConfig (.clientBuild reason))
  | none => return p.clientFor config

/-- Takes a configuration over; the client stays if it serves the new one, too. -/
def configure (p : Provider) (values : Members) : Run Provider := do
  Run.sayAll ((Configuration.notes values p.analysis).map Analysis.warn)
  let config ← Configuration.ofValues values p.analysis
  let endpoints := config.endpointsHash
  if p.client.any fun c => c.config.isEquivalent config then
    Run.say .debug
      s!"provider '{p.name}' configuration unchanged (endpoints {endpoints}), keeping the client"
    return p
  else
    let client ← p.newClient config
    Run.say .info s!"provider '{p.name}' configured (endpoints {endpoints})"
    return { p with client := some client }

def readData (p : Provider) (type : String) (config : Members) : Run ResourceState :=
  match p.localName? type with
  | none => throw (.unknownResource type)
  | some name => do
    let client ← p.configured
    match p.dataHandler? name with
    | some (.collection d) => Lifecycle.select d client config
    | some (.byId r) => Lifecycle.readById r client config
    | none => throw (.unknownResource type)

def onResource {α : Type} (p : Provider) (type : String)
    (operation : Resource → Client → Run α) : Run α := do
  let r ← p.resource type
  operation r (← p.configured)

/-- Answers a call: the provider afterwards, and a state if there is one. -/
def answer (p : Provider) : HostCall → Run (Provider × Option ResourceState)
  | .configure values => return (← p.configure values, none)
  | .stop => do
    Run.say .info s!"provider '{p.name}' stopping; cancelling in-flight operations"
    modify Timeline.stop
    return (p, none)
  | .create type planned =>
    return (p, some (← p.onResource type fun r c => Lifecycle.create r c planned))
  | .read type current =>
    return (p, ← p.onResource type fun r c => Lifecycle.read r c current)
  | .update type prior planned =>
    return (p, some (← p.onResource type fun r c => Lifecycle.update r c prior planned))
  | .delete type current => do
    p.onResource type fun r c => Lifecycle.delete r c current
    return (p, none)
  | .readData type config => return (p, some (← p.readData type config))

/-- Answers a call on a timeline. A call that fails leaves the provider as it is. -/
def step (p : Provider) (t : Timeline) (call : HostCall) :
    Except Error (Option ResourceState) × Provider × Timeline :=
  match (p.answer call).run t with
  | (.ok (p, state), t) => (.ok state, p, t)
  | (.error e, t) => (.error e, p, t)

def run (p : Provider) (t : Timeline) :
    List HostCall → List (Except Error (Option ResourceState)) × Provider × Timeline
  | [] => ([], p, t)
  | call :: rest =>
    let (result, p, t) := p.step t call
    let (results, p, t) := run p t rest
    (result :: results, p, t)

end Provider

end SwaggerProvider
