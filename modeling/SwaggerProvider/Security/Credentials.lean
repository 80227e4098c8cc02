import SwaggerProvider.Http.Timeline
import SwaggerProvider.Security.Basic

/-!
Credentials for a request. Of an operation's requirements the first one counts whose schemes are
all known and configured; its schemes are applied in their order. A refresh token is exchanged for
an access token before use.
-/

set_option autoImplicit false

namespace SwaggerProvider.Security

structure Credentials where
  headers : List (String × String)
  query : List (String × String)
  deriving DecidableEq

namespace Credentials

def empty : Credentials := ⟨[], []⟩

def append (c d : Credentials) : Credentials := ⟨c.headers ++ d.headers, c.query ++ d.query⟩

def ofHeader (header value : String) : Credentials := ⟨[(header, value)], []⟩

def ofQuery (parameter value : String) : Credentials := ⟨[], [(parameter, value)]⟩

end Credentials

abbrev Choice := Definition × String

def choose? (schemes : Schemes) (values : Table String) (s : SchemeUse) : Option Choice := do
  let d ← schemes.definitions.get? s.name
  let value ← values.get? d.configName
  some (d, value)

def satisfy? (schemes : Schemes) (values : Table String) (r : Requirement) :
    Option (List Choice) :=
  r.mapM (choose? schemes values)

/-- The first requirement that can be satisfied; without requirements nothing is needed. -/
def select (schemes : Schemes) (values : Table String) (requirements : List Requirement) :
    Except Error (List Choice) :=
  if requirements.isEmpty then .ok []
  else match requirements.findSome? (satisfy? schemes values) with
    | some choices => .ok choices
    | none =>
      .error (.runtimeConfig (.unsatisfiedSecurity (requirements.map fun r =>
        r.map SchemeUse.name)))

def bearerStart : String := "Bearer "

def bearer (token : String) : String :=
  if Text.startsWith bearerStart.toList token.toList then token else bearerStart ++ token

def refreshFault {α : Type} (url : String) (fault : TransportFault) : Except Error α :=
  .error (.transport Http.Method.post.text url fault)

def refreshRequest (url token : String) : Except Error Http.Request :=
  match Url.parse url with
  | .error _ => refreshFault url .unsendable
  | .ok parsed =>
    if parsed.host.isNone then refreshFault url (.unsendableTo parsed.text)
    else if !Http.Fields.isValue token then refreshFault url .unsendable
    else if parsed.scheme ≠ "http" ∧ parsed.scheme ≠ "https" then
      refreshFault url (.unsendableTo parsed.text)
    else
      .ok ⟨.post, parsed, [(Http.Fields.lowerName authorization, token), ("accept", "*/*")], none⟩

def plainField? (r : Http.Response) (name : String) : Option String :=
  (r.fields.get? (Http.Fields.lowerName name)).filter fun value =>
    value.toList.all fun c => c == '\t' || (0x20 ≤ c.toNat && c.toNat < 0x7F)

def accessToken (url : String) (r : Http.Response) : Except Error String :=
  let refused (body : String) : Error := .apiResponse Http.Method.post.text url r.status body
  if !Http.isSuccess r.status then .error (refused (Text.Utf8.decode (r.body.getD [])))
  else match (plainField? r authorization).filter fun token => !token.isEmpty with
    | some token => .ok token
    | none => .error (refused s!"token refresh response has no {authorization} header")

def refresh (url token : String) : Http.Run String := do
  Http.Run.say .info s!"POST {url} (token refresh)"
  let request ← refreshRequest url token
  match (← Http.Run.exchange request).response? with
  | some r => accessToken url r
  | none => refreshFault url (.noResponse request.url.anonymous.text)

def credential (choice : Choice) : Http.Run Credentials :=
  let (d, value) := choice
  match d.scheme with
  | .keyHeader header => return .ofHeader header value
  | .keyQuery parameter | .bearerQuery parameter => return .ofQuery parameter value
  | .bearerHeader header => return .ofHeader header (bearer value)
  | .refreshToken header url => return .ofHeader header (bearer (← refresh url value))

def credentials : List Choice → Http.Run Credentials
  | [] => return .empty
  | choice :: rest => do
    Http.Run.say .debug s!"applying security scheme '{choice.1.name}'"
    let first ← credential choice
    return first.append (← credentials rest)

def authenticate (schemes : Schemes) (values : Table String) (requirements : List Requirement) :
    Http.Run Credentials := do
  credentials (← select schemes values requirements)

end SwaggerProvider.Security
