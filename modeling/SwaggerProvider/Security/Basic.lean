import SwaggerProvider.Swagger.Document
import SwaggerProvider.Text.SnakeCase

/-!
Security schemes of a document: API keys and bearer tokens in a header or in the query, and tokens
that are refreshed before use. A requirement asks for several schemes together; of several
requirements one is enough.
-/

set_option autoImplicit false

namespace SwaggerProvider.Security

inductive Scheme where
  | keyHeader (header : String)
  | keyQuery (parameter : String)
  | bearerHeader (header : String)
  | bearerQuery (parameter : String)
  | refreshToken (header url : String)
  deriving DecidableEq

structure Definition where
  name : String
  scheme : Scheme
  deriving DecidableEq

def Definition.configName (d : Definition) : String := Text.snakeCase d.name

structure SchemeUse where
  name : String
  scopes : List String
  deriving DecidableEq

abbrev Requirement := List SchemeUse

def bearerKey : String := "x-terraform-authentication-scheme-bearer"

def refreshUrlKey : String := "x-terraform-refresh-token-url"

def authorization : String := "Authorization"

def orAuthorization (header : String) : String := if header.isEmpty then authorization else header

inductive Unsupported where
  | otherType (type : String)
  | refreshInQuery
  deriving DecidableEq

def Unsupported.note (name : String) : Unsupported → String
  | .otherType type =>
    s!"security definition '{name}' of type '{type}' is not supported and will be ignored"
  | .refreshInQuery =>
    s!"security definition '{name}' declares a refresh token URL on a query parameter; ignored"

def scheme (d : Swagger.SecurityDefinition) : Except Unsupported Scheme :=
  let name := d.name.getD ""
  let inQuery := d.location == some "query"
  if d.type ≠ "apiKey" then .error (.otherType d.type)
  else match d.extensions.text? refreshUrlKey with
    | some url =>
      if inQuery then .error .refreshInQuery else .ok (.refreshToken (orAuthorization name) url)
    | none =>
      .ok (match inQuery, d.extensions.flag bearerKey with
        | true, true => .bearerQuery name
        | true, false => .keyQuery name
        | false, true => .bearerHeader (orAuthorization name)
        | false, false => .keyHeader name)

def requirement (r : Swagger.Requirement) : Requirement := r.map fun e => ⟨e.1, e.2⟩

/-- The supported definitions, and the requirements of the whole document. -/
structure Schemes where
  definitions : Table Definition
  global : List Requirement

namespace Schemes

def empty : Schemes := ⟨[], []⟩

def ofDocument (document : Swagger.Document) : Schemes where
  definitions := document.securityDefinitions.filterMap fun e =>
    match scheme e.2 with
    | .ok s => some (e.1, ⟨e.1, s⟩)
    | .error _ => none
  global := (document.security.getD []).map requirement

def notes (document : Swagger.Document) : List String :=
  document.securityDefinitions.filterMap fun e =>
    match scheme e.2 with
    | .ok _ => none
    | .error why => some (why.note e.1)

/-- An operation's own requirements stand in for those of the document. -/
def requirements (schemes : Schemes) (own : Option (List Swagger.Requirement)) :
    List Requirement :=
  match own with
  | some requirements => requirements.map requirement
  | none => schemes.global

def isGlobal (schemes : Schemes) (name : String) : Bool :=
  schemes.global.any fun r => r.any fun s => s.name == name

end Schemes

end SwaggerProvider.Security
