import SwaggerProvider.Http.Message

/-!
The way of a request to the hosts. A transport may answer a redirect by itself, with a request of
its own making, and hands back only what comes of the last one. Which redirects it follows, and with
which requests, is its own affair.
-/

set_option autoImplicit false

namespace SwaggerProvider.Http

def Response.isRedirect (r : Response) : Bool :=
  [301, 302, 303, 307, 308].contains r.status && (r.fields.get? "location").isSome

structure Hop where
  request : Request
  outcome : Outcome

/-- The request with which the response to another one is followed, if it is. Only redirects are. -/
structure Transport where
  next : Request → Response → Option Request
  redirects : ∀ request r, (next request r).isSome = true → r.isRedirect = true

namespace Transport

variable (T : Transport)

/-- The hops of a request, and what the transport hands back for it. Where there are too many of
them it gives up. -/
inductive Carries : Request → List Hop → Outcome → Prop where
  | arrived {request : Request} {outcome : Outcome}
    (last : ∀ r, outcome.response? = some r → T.next request r = none) :
    Carries request [⟨request, outcome⟩] outcome
  | followed {request next : Request} {r : Response} {hops : List Hop} {outcome : Outcome}
    (follow : T.next request r = some next) (rest : Carries next hops outcome) :
    Carries request (⟨request, .response r⟩ :: hops) outcome
  | givenUp {request next : Request} {r : Response} (follow : T.next request r = some next) :
    Carries request [⟨request, .response r⟩] .noResponse

def turnsToGet (method : Method) (status : Nat) : Bool :=
  status = 303 || ([301, 302].contains status && method = .post)

/-- Follows redirects to places given in full. A 307 or 308 sends the same request there. -/
def following : Transport where
  next request r := if r.isRedirect then do
      let url ← (Url.parse (← r.fields.get? "location")).toOption
      if turnsToGet request.method r.status then return ⟨.get, url, request.fields, none⟩
      else return { request with url := url }
    else none
  redirects request r h := by
    split at h
    · assumption
    · cases h

example (url : Url) : (following.next ⟨.post, url, [], none⟩
    ⟨307, [("location", "http://b.example.com/v1")], none⟩).map Request.method = some .post := rfl

end Transport

end SwaggerProvider.Http
