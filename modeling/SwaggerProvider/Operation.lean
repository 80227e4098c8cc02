import SwaggerProvider.Header
import SwaggerProvider.Security.Basic
import SwaggerProvider.Error

/-!
What calling an operation of the API involves: the headers and credentials to send, the responses
after which its status is polled, and for how long.
-/

set_option autoImplicit false

namespace SwaggerProvider

/-- How a status of the response decides about polling. -/
structure Polling where
  enabled : Bool
  targets : List String
  pending : List String
  deriving DecidableEq

structure Operation where
  headers : List Header
  security : List Security.Requirement
  responses : List (Nat × Polling)
  timeout : Option Duration

namespace Operation

def pollEnabledKey : String := "x-terraform-resource-poll-enabled"

def pollTargetsKey : String := "x-terraform-resource-poll-completed-statuses"

def pollPendingKey : String := "x-terraform-resource-poll-pending-statuses"

def empty : Operation := ⟨[], [], [], none⟩

def polling (response : Swagger.Response) : Polling where
  enabled := response.extensions.flag pollEnabledKey
  targets := (response.extensions.list? pollTargetsKey).getD []
  pending := (response.extensions.list? pollPendingKey).getD []

def setStatus (responses : List (Nat × Polling)) (status : Nat) (polling : Polling) :
    List (Nat × Polling) :=
  (responses.filter fun e => e.1 != status) ++ [(status, polling)]

def readResponses (responses : Table Swagger.Response) : List (Nat × Polling) :=
  responses.foldl (fun done e =>
    match Text.unsigned? 65535 e.1.toList with
    | some status => setStatus done status (polling e.2)
    | none => done) []

def compile (op : Swagger.Operation) (pathParameters : List Swagger.Parameter)
    (schemes : Security.Schemes) : Except Error Operation := do
  let timeout ← match op.extensions.text? resourceTimeoutKey with
    | some value => (Duration.parseTimeout value).map some
    | none => .ok none
  return {
    headers := Header.ofParameters (pathParameters ++ op.parameters)
    security := schemes.requirements op.security
    responses := readResponses op.responses
    timeout }

def pollingFor (op : Operation) (status : Nat) : Option Polling :=
  (op.responses.lookup status).filter Polling.enabled

end Operation

end SwaggerProvider
