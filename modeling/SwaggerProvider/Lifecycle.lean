import SwaggerProvider.Client
import SwaggerProvider.Filter
import SwaggerProvider.Poll

/-!
The life of a resource: it is created, read, updated and deleted by calls of its operations. After a
call whose response asks for it the status is polled before the resource counts as done. Data
sources are read in the same way, from a collection or by identifier.
-/

set_option autoImplicit false

namespace SwaggerProvider

/-- What the host keeps of a resource: its identifier and its attributes under host names. -/
structure ResourceState where
  id : String
  attributes : Members
  deriving DecidableEq

namespace Http

/-- A look at a timeline; time passes only by requests and sleeps. -/
def watch (look : Run String) : Watch Timeline where
  now t := t.now
  stopped t := t.stopped
  look t := look.run t
  sleep d t := t.wait d

/-- Polls on the timeline. Every look that yields a status takes a reply, so one look more than
there are replies is enough. -/
def Run.poll (p : Poll) (look : Run String) : Run String :=
  ExceptT.mk fun t =>
    match p.wait (watch look) (t.replies.length + 1) t with
    | (some result, t) => (result, t)
    | (none, t) => (.error (.polling p.resource (.timedOut p.timeout) ""), t)

end Http

namespace Lifecycle

open Http (Run Method)

def parentIds (attributes : Members) : List Parent → Except Error (List String)
  | [] => .ok []
  | p :: rest =>
    match (attributes.get? p.attribute).bind Json.scalarText? with
    | some id => (parentIds attributes rest).map (id :: ·)
    | none => .error (.runtimeConfig (.missingAttribute p.attribute))

def keepParents (parents : List Parent) (source attributes : Members) : Members :=
  parents.foldl (fun done p =>
    match source.get? p.attribute with
    | some value => done.insert p.attribute value
    | none => done) attributes

/-- The state after the API has answered; without an answer the prior values stay. -/
def toState (r : Resource) (id : String) (remote : Option Members) (prior : Members) :
    ResourceState where
  id := id
  attributes := keepParents r.parents prior (Payload.toState r.record (remote.getD []) prior)

def rootUrl (r : Resource) (c : Client) (parents : List String) : Except Error String :=
  c.url r.name r.host r.root parents

def instanceUrl (r : Resource) (c : Client) (parents : List String) (id : String) :
    Except Error String :=
  c.url r.name r.host r.instancePath (parents ++ [id])

def call (r : Resource) (method : Method) (url : String) (operation : Operation)
    (body : Option Members) : Call where
  resource := r.name
  method := method
  url := url
  operation := operation
  record := r.record
  body := body.map .object

def request (r : Resource) (c : Client) (method : Method) (url : String) (operation : Operation)
    (body : Option Members) : Run Answer := do
  let answer ← c.send (call r method url operation body)
  answer.check method.text url

def fetch (r : Resource) (c : Client) (url : String) : Run (Option Members) := do
  let answer ← c.send (call r .get url r.get none)
  if answer.status = 404 then return none
  let answer ← answer.check Method.get.text url
  match answer.object? with
  | some object => return some object
  | none =>
    throw (.apiResponse Method.get.text url answer.status "response body is not a JSON object")

def destroyed : String := "destroyed"

/-- The status that the API reports now. A resource may be gone only when it is being deleted. -/
def look (r : Resource) (c : Client) (url : String) (deleting : Bool) : Run String := do
  let fault (fault : PollFault) : Error := .polling r.name fault ""
  let status ← match ← fetch r c url with
    | none => if deleting then pure destroyed else throw (fault .disappeared)
    | some remote =>
      match Payload.status? r.record remote with
      | some status => pure status
      | none => throw (fault .noStatus)
  Run.say .debug s!"resource '{r.name}' reports status '{status}'"
  return status

def pollOf (r : Resource) (c : Client) (targets : List String) (polling : Polling)
    (timeout : Option Duration) : Poll where
  resource := r.name
  targets := targets
  pending := polling.pending
  timeout := timeout.getD c.settings.operationTimeout
  interval := c.settings.pollInterval

def poll (r : Resource) (c : Client) (url : String) (deleting : Bool) (p : Poll) : Run Unit := do
  Run.say .debug s!"polling {r.name} every {p.interval.text} for up to {p.timeout.text}"
  let _ ← Run.poll p (look r c url deleting)

/-- Polls until a created or updated resource is ready, and then fetches it. -/
def settle (r : Resource) (c : Client) (url : String) (operation : Operation)
    (polling : Polling) : Run (Option Members) := do
  poll r c url false (pollOf r c polling.targets polling operation.timeout)
  fetch r c url

/-- Creates a resource: its identifier, and the resource as the API has it then. -/
def created (r : Resource) (c : Client) (planned : Members) : Run (String × Option Members) := do
  let parents ← parentIds planned r.parents
  let url ← rootUrl r c parents
  let answer ← request r c .post url r.post (some (Payload.ofState r.record planned))
  match answer.object?.bind (Payload.identifier? r.record) with
  | none =>
    throw (.apiResponse Method.post.text url answer.status
      s!"response does not contain the identifier of '{r.name}'")
  | some id =>
    Run.say .info s!"created {r.name} '{id}'"
    match r.post.pollingFor answer.status with
    | none => return (id, answer.object?)
    | some polling =>
      let url ← instanceUrl r c parents id
      return (id, ← settle r c url r.post polling)

def create (r : Resource) (c : Client) (planned : Members) : Run ResourceState := do
  let (id, remote) ← created r c planned
  return toState r id remote planned

/-- The resource of a state as the API has it now, or none if it is gone. -/
def current? (r : Resource) (c : Client) (current : ResourceState) : Run (Option Members) := do
  let parents ← parentIds current.attributes r.parents
  let url ← instanceUrl r c parents current.id
  fetch r c url

def read (r : Resource) (c : Client) (current : ResourceState) : Run (Option ResourceState) := do
  match ← current? r c current with
  | some remote => return some (toState r current.id (some remote) current.attributes)
  | none =>
    Run.say .info s!"{r.name} '{current.id}' no longer exists"
    return none

def given (attributes : Members) (name : String) : Option Json :=
  (attributes.get? name).filter fun value => !value.isNull

def sameGiven : Option Json → Option Json → Bool
  | none, none => true
  | some a, some b => a.same b
  | _, _ => false

def checkImmutable (r : Record) (prior planned : Members) : Except Error Unit :=
  match r.find? fun f =>
      f.immutable && !sameGiven (given prior f.hostName) (given planned f.hostName) with
  | some f => .error (.runtimeConfig (.immutableProperty f.hostName))
  | none => .ok ()

def updated (r : Resource) (c : Client) (prior : ResourceState) (planned : Members) :
    Run (Option Members) := do
  match r.put with
  | none => throw (.unsupportedOperation r.name "update")
  | some put =>
    checkImmutable r.record prior.attributes planned
    let parents ← parentIds prior.attributes r.parents
    let url ← instanceUrl r c parents prior.id
    let answer ← request r c .put url put (some (Payload.ofState r.record planned))
    match put.pollingFor answer.status, answer.object? with
    | some polling, _ => settle r c url put polling
    | none, some object => return some object
    | none, none => fetch r c url

def update (r : Resource) (c : Client) (prior : ResourceState) (planned : Members) :
    Run ResourceState := do
  let remote ← updated r c prior planned
  return toState r prior.id remote planned

/-- Deletes a resource; one that is gone already counts as deleted. -/
def delete (r : Resource) (c : Client) (current : ResourceState) : Run Unit := do
  match r.delete with
  | none => throw (.unsupportedOperation r.name "delete")
  | some operation =>
    let parents ← parentIds current.attributes r.parents
    let url ← instanceUrl r c parents current.id
    let answer ← c.send (call r .delete url operation none)
    if answer.status = 404 then
      Run.say .info s!"{r.name} '{current.id}' was already deleted"
    else
      let answer ← answer.check Method.delete.text url
      match operation.pollingFor answer.status with
      | none => pure ()
      | some polling =>
        poll r c url true (pollOf r c (polling.targets ++ [destroyed]) polling operation.timeout)
      Run.say .info s!"deleted {r.name} '{current.id}'"

def select (d : DataSource) (c : Client) (config : Members) : Run ResourceState := do
  let filters ← Filter.ofConfig d.record config
  let parents ← parentIds config d.parents
  let url ← c.url d.name d.host d.path parents
  let fault (status : Nat) (reason : String) : Error :=
    .apiResponse Method.get.text url status reason
  let answer ← c.send ⟨d.name, .get, url, d.get, d.record, none⟩
  let answer ← answer.check Method.get.text url
  match answer.body.bind Json.items? with
  | none => throw (fault answer.status "response body is not a JSON array")
  | some items =>
    let item ← Filter.single d.name filters items
    Run.say .debug s!"data source '{d.name}' matched one of {items.length} items"
    match Payload.identifier? d.record item with
    | none => throw (fault answer.status "matched item has no identifier")
    | some id =>
      let attributes := keepParents d.parents config (Payload.toState d.record item [])
      return ⟨id, match config.get? Publish.filterName with
        | some filter => attributes.insert Publish.filterName filter
        | none => attributes⟩

def readById (r : Resource) (c : Client) (config : Members) : Run ResourceState := do
  match (config.get? Record.idName).bind Json.scalarText? with
  | none => throw (.runtimeConfig (.missingAttribute Record.idName))
  | some id =>
    let parents ← parentIds config r.parents
    let url ← instanceUrl r c parents id
    match ← fetch r c url with
    | none => throw (.apiResponse Method.get.text url 404 s!"{r.name} '{id}' does not exist")
    | some remote =>
      let state := toState r id (some remote) config
      return { state with
        attributes := state.attributes.insert Record.idName (.string id) }

end Lifecycle

end SwaggerProvider
