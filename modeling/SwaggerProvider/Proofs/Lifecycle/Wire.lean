import SwaggerProvider.Http.Transport
import SwaggerProvider.Proofs.Lifecycle.Turns
import SwaggerProvider.Proofs.Outcome

/-!
What the hosts get of some turns. A transport that follows no redirect passes every request on as it
is; whatever it does, a request that refreshes a token does not become one for a call.
-/

set_option autoImplicit false

namespace SwaggerProvider

open Http (Hop Outcome Request Response Transport)

/-- The request is for a call: it has its method and body, and its URL but for what is added to the
query. -/
structure Http.Request.Asks (request : Request) (call : Call) : Prop where
  method : request.method = call.method
  url : ∃ url pairs, Url.parse call.url = .ok url ∧ request.url = url.appendQuery pairs
  body : request.body = call.body.map Json.text

theorem Client.request_asks {c : Client} {call : Call} {credentials : Security.Credentials}
    {request : Request} (h : c.request call credentials = .ok request) : request.Asks call := by
  obtain ⟨fields, -, h⟩ := Except.bind_eq_ok.1 h
  split at h
  · cases h
  · next url hurl =>
    cases h
    exact ⟨rfl, ⟨url, _, hurl, rfl⟩, rfl⟩

def asked (turns : List Turn) : List Request :=
  turns.filterMap fun turn => turn.call?.map fun _ => turn.request

@[simp] theorem asked_eq_nil {turns : List Turn} : asked turns = [] ↔ calls turns = [] := by
  simp [asked, List.filterMap_eq_nil_iff]

@[simp] theorem asked_append (turns more : List Turn) :
    asked (turns ++ more) = asked turns ++ asked more :=
  List.filterMap_append

theorem asked_cons_of_call {turn : Turn} {call : Call} (h : turn.call? = some call)
    (rest : List Turn) : asked (turn :: rest) = turn.request :: asked rest :=
  List.filterMap_cons_some (by rw [h]; rfl)

theorem asked_cons_of_none {turn : Turn} (h : turn.call? = none) (rest : List Turn) :
    asked (turn :: rest) = asked rest :=
  List.filterMap_cons_none (by rw [h]; rfl)

theorem asked_asks {c : Client} {turns : List Turn} (h : ∀ turn ∈ turns, turn.Fits c) :
    List.Forall₂ Http.Request.Asks (asked turns) (calls turns) := by
  induction turns with
  | nil => exact .nil
  | cons turn rest ih =>
    obtain ⟨hfits, hrest⟩ := List.forall_mem_cons.1 h
    unfold Turn.Fits at hfits
    cases hcall : turn.call? with
    | none =>
      rw [asked_cons_of_none hcall, calls, List.filterMap_cons_none hcall]
      exact ih hrest
    | some call =>
      rw [hcall] at hfits
      obtain ⟨credentials, hrequest⟩ := hfits
      rw [asked_cons_of_call hcall, calls_cons_of_call hcall]
      exact .cons (Client.request_asks hrequest) (ih hrest)

def Turn.onWire (turn : Turn) (hop : Hop) : Turn := ⟨turn.call?, hop.request, hop.outcome⟩

namespace Http.Transport

variable {T : Transport} {turns wire : List Turn}

/-- What the hosts get of some turns, each of their hops a turn of its own. -/
inductive Wired (T : Transport) : List Turn → List Turn → Prop where
  | nil : Wired T [] []
  | cons {turn : Turn} {hops : List Hop} {turns wire : List Turn}
    (carried : T.Carries turn.request hops turn.outcome) (rest : Wired T turns wire) :
    Wired T (turn :: turns) (hops.map turn.onWire ++ wire)

def Direct (T : Transport) (wire : List Turn) : Prop :=
  ∀ hop ∈ wire, ∀ r, hop.outcome.response? = some r → T.next hop.request r = none

theorem direct_of_no_redirect
    (h : ∀ hop ∈ wire, ∀ r, hop.outcome.response? = some r → r.isRedirect = false) :
    T.Direct wire := by
  intro hop hhop r hr
  cases hnext : T.next hop.request r with
  | none => rfl
  | some next =>
    have hredirect := T.redirects hop.request r (by rw [hnext]; rfl)
    rw [h hop hhop r hr] at hredirect
    cases hredirect

theorem direct_of_heard {c : Client} {t done : Http.Timeline} (h : Heard c t turns done)
    (hreplies : ∀ reply ∈ t.replies, ∀ r, reply.outcome.response? = some r → r.isRedirect = false) :
    T.Direct turns := by
  refine direct_of_no_redirect fun hop hhop r hr => ?_
  have hmem := List.mem_map_of_mem (f := Turn.outcome) hhop
  rw [h.outcomes] at hmem
  rcases mem_outcomes hmem with hnone | ⟨reply, hreply, houtcome⟩
  · rw [hnone] at hr
    cases hr
  · rw [← houtcome] at hr
    exact hreplies reply hreply r hr

theorem Carries.eq_of_direct {turn : Turn} {hops : List Hop}
    (h : T.Carries turn.request hops turn.outcome) (hdirect : T.Direct (hops.map turn.onWire)) :
    hops.map turn.onWire = [turn] := by
  obtain ⟨call?, request, outcome⟩ := turn
  cases h with
  | arrived last => rfl
  | followed follow rest => cases follow.symm.trans (hdirect _ List.mem_cons_self _ rfl)
  | givenUp follow => cases follow.symm.trans (hdirect _ List.mem_cons_self _ rfl)

theorem Carries.starts {request : Request} {hops : List Hop} {outcome : Outcome}
    (h : T.Carries request hops outcome) : ∃ first more, hops = first :: more ∧
      first.request = request := by
  cases h with
  | arrived last => exact ⟨_, _, rfl, rfl⟩
  | followed follow rest => exact ⟨_, _, rfl, rfl⟩
  | givenUp follow => exact ⟨_, _, rfl, rfl⟩

namespace Wired

/-- Whatever redirects are followed, the first request on the wire is the first one that is sent. -/
theorem head?_asked (h : T.Wired turns wire) : (asked wire).head? = (asked turns).head? := by
  induction h with
  | nil => rfl
  | @cons turn hops turns wire carried rest ih =>
    rw [asked_append]
    cases hcall : turn.call? with
    | none =>
      have hhops : asked (hops.map turn.onWire) = [] := by
        rw [SwaggerProvider.asked_eq_nil, calls_eq_nil]
        exact List.forall_mem_map.2 fun _ _ => hcall
      rw [hhops, List.nil_append, ih, asked_cons_of_none hcall]
    | some call =>
      obtain ⟨first, more, rfl, hfirst⟩ := carried.starts
      have hmade : (turn.onWire first).call? = some call := hcall
      rw [List.map_cons, asked_cons_of_call hmade, asked_cons_of_call hcall, List.cons_append,
        List.head?_cons, List.head?_cons]
      exact congrArg some hfirst

theorem eq_of_direct (h : T.Wired turns wire) (hdirect : T.Direct wire) : wire = turns := by
  induction h with
  | nil => rfl
  | cons carried rest ih =>
    obtain ⟨hfirst, hmore⟩ := List.forall_mem_append.1 hdirect
    rw [carried.eq_of_direct hfirst, ih hmore, List.singleton_append]

theorem of_direct (h : T.Direct turns) : T.Wired turns turns := by
  induction turns with
  | nil => exact .nil
  | cons turn rest ih =>
    obtain ⟨hfirst, hmore⟩ := List.forall_mem_cons.1 h
    have hcarried : T.Carries turn.request [⟨turn.request, turn.outcome⟩] turn.outcome :=
      .arrived hfirst
    exact Wired.cons hcarried (ih hmore)

theorem asked_eq_nil (h : T.Wired turns wire) (hnone : asked turns = []) : asked wire = [] := by
  have hhead := h.head?_asked
  rw [hnone, List.head?_nil] at hhead
  exact List.head?_eq_none_iff.1 hhead

end Wired

end Http.Transport

end SwaggerProvider
