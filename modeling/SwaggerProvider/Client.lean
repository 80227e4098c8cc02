import SwaggerProvider.Config.Provider
import SwaggerProvider.Http.Timeline
import SwaggerProvider.Json.Reader
import SwaggerProvider.Path.Template
import SwaggerProvider.Payload
import SwaggerProvider.Security.Credentials

/-!
The client of an API: it puts requests together, with headers and credentials, logs them without
their secrets, and reads the responses.
-/

set_option autoImplicit false

namespace SwaggerProvider

structure Settings where
  pollInterval : Duration
  operationTimeout : Duration
  version : String
  platform : String
  bodyLength : Nat
  deriving DecidableEq

namespace Settings

def standard : Settings where
  pollInterval := .ofSeconds 5
  operationTimeout := .ofSeconds 600
  version := "0.1.0"
  platform := ""
  bodyLength := Log.defaultBodyLength

def userAgent (s : Settings) : String := s!"OpenAPI Terraform Provider/{s.version} ({s.platform})"

end Settings

structure Client where
  backend : Backend
  schemes : Security.Schemes
  config : Configuration
  settings : Settings

/-- One call of an operation; the record tells which values of the bodies are secret. -/
structure Call where
  resource : String
  method : Http.Method
  url : String
  operation : Operation
  record : Record
  body : Option Json

/-- What the API answers. A body that is not JSON has no value. -/
structure Answer where
  status : Nat
  body : Option Json
  text : String

namespace Answer

def object? (a : Answer) : Option Members := a.body.bind Json.members?

def isAccepted (status : Nat) : Bool := [200, 201, 202, 204].contains status

/-- The longest text of a body that an error shows, in characters. -/
def snippetLength : Nat := 512

def snippet (text : String) : String :=
  if text.isEmpty then "(empty response)"
  else if text.length ≤ snippetLength then text
  else String.ofList (text.toList.take snippetLength) ++ "..."

def check (method url : String) (a : Answer) : Except Error Answer :=
  if isAccepted a.status then .ok a
  else .error (.apiResponse method (Log.redactQuery url) a.status (snippet a.text))

def read (status : Nat) (text : String) : Answer where
  status := status
  body := if status = 204 ∨ (Text.trim text).isEmpty then none else Json.read text
  text := text

end Answer

namespace Client

/-- The URL of a path, with identifiers in the place of its parameters. -/
def url (c : Client) (name : String) (host : Host) (template : String) (ids : List String) :
    Except Error String := do
  let host ← c.config.hostOf c.backend name host
  let path ← Path.fill template ids
  return Url.join c.backend.scheme host c.backend.basePath path

def mediaType : String := "application/json"

def baseFields (c : Client) (withBody : Bool) : Except Error Http.Fields := do
  let fields ← Http.Fields.set [] "User-Agent" c.settings.userAgent
  let fields ← fields.set "Accept" mediaType
  if withBody then fields.set "Content-Type" mediaType else return fields

def setDeclared (c : Client) (call : Call) (fields : Http.Fields) :
    List Header → Except Error Http.Fields
  | [] => .ok fields
  | h :: rest =>
    match c.config.headers.get? h.configName with
    | some value => do setDeclared c call (← fields.set h.name value) rest
    | none =>
      if h.required then
        .error (.runtimeConfig (.requiredHeader h.name call.method.text call.url h.configName))
      else setDeclared c call fields rest

/-- The header fields of a call; credentials come last and so win. -/
def fields (c : Client) (call : Call) (credentials : Security.Credentials) :
    Except Error Http.Fields := do
  let fields ← c.baseFields call.body.isSome
  let fields ← c.setDeclared call fields call.operation.headers
  fields.setAll credentials.headers

def request (c : Client) (call : Call) (credentials : Security.Credentials) :
    Except Error Http.Request := do
  let fields ← c.fields call credentials
  match Url.parse call.url with
  | .error fault => .error (.transport call.method.text call.url (.invalidUrl fault))
  | .ok url =>
    return ⟨call.method, url.appendQuery credentials.query, fields, call.body.map Json.text⟩

def bodyEvent (c : Client) (label text : String) : Log.Event :=
  ⟨.trace, Log.bodyLine label text c.settings.bodyLength⟩

/-- What is said about a request: where it goes, which fields it has, and its masked body. -/
def requestEvents (c : Client) (call : Call) (request : Http.Request) : List Log.Event :=
  ⟨.info, s!"→ {request.method.text} {Log.redactQuery request.url.text}"⟩ ::
  request.fields.map (fun e => ⟨.debug, s!"  {e.1}: {Log.headerMark e.2}"⟩) ++
  match call.body with
  | some body => [c.bodyEvent "Request body" (Payload.mask call.record body).text]
  | none => []

def answerEvents (c : Client) (call : Call) (answer : Answer) (took : Duration) :
    List Log.Event :=
  let shown := match answer.body with
    | some body => (Payload.mask call.record body).text
    | none => answer.text
  [⟨.info, s!"← {answer.status} ({took.millis}ms)"⟩, c.bodyEvent "Response body" shown]

def noAnswer {α : Type} (request : Http.Request) (fault : String → TransportFault) :
    Except Error α :=
  .error (.transport request.method.text (Log.redactQuery request.url.text)
    (fault request.url.anonymous.text))

/-- Calls an operation. Nothing is sent once the host has stopped the provider, be it only while a
token is refreshed. -/
def send (c : Client) (call : Call) : Http.Run Answer := do
  if ← Http.Run.isStopped then throw (.cancelled call.resource)
  let credentials ←
    Security.authenticate c.schemes c.config.security call.operation.security
  let request ← c.request call credentials
  Http.Run.sayAll (c.requestEvents call request)
  if ← Http.Run.isStopped then throw (.cancelled call.resource)
  let start ← Http.Run.now
  match ← Http.Run.exchange request with
  | .stopped | .late _ => throw (.cancelled call.resource)
  | .noResponse => noAnswer request .noResponse
  | .response r =>
    match r.body with
    | none => noAnswer request .brokenBody
    | some bytes =>
      let answer := Answer.read r.status (Text.Utf8.decode bytes)
      let finish ← Http.Run.now
      Http.Run.sayAll (c.answerEvents call answer ⟨finish.nanos - start.nanos⟩)
      return answer

end Client

end SwaggerProvider
