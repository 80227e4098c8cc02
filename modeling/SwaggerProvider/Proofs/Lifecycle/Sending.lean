import SwaggerProvider.Proofs.Lifecycle.Turns
import SwaggerProvider.Proofs.Outcome

/-!
What is sent for a call. Its credentials come first, and tokens may be refreshed for them; the
request of the call itself is the last one. Whatever fails before it has been put together, keeps it
from being sent.
-/

set_option autoImplicit false

namespace SwaggerProvider

open Http (Outcome Request)
open Http.Run (Speaks quiet_say quiet_sayAll quiet_isStopped quiet_now)

section Choices

variable {schemes : Security.Schemes} {values : Table String}

theorem Security.choose?_eq_some {s : Security.SchemeUse} {choice : Security.Choice}
    (h : Security.choose? schemes values s = some choice) :
    schemes.definitions.get? s.name = some choice.1 ∧
      values.get? choice.1.configName = some choice.2 := by
  obtain ⟨d, hd, h⟩ := Option.bind_eq_some_iff.1 h
  obtain ⟨value, hvalue, h⟩ := Option.bind_eq_some_iff.1 h
  cases h
  exact ⟨hd, hvalue⟩

theorem Security.mem_of_satisfy? {r : Security.Requirement} {choices : List Security.Choice}
    (h : Security.satisfy? schemes values r = some choices) :
    (∀ s ∈ r, ∃ choice ∈ choices, Security.choose? schemes values s = some choice) ∧
      ∀ choice ∈ choices, ∃ s ∈ r, Security.choose? schemes values s = some choice := by
  unfold Security.satisfy? at h
  induction r generalizing choices with
  | nil =>
    cases h
    simp
  | cons s rest ih =>
    rw [List.mapM_cons] at h
    obtain ⟨first, hfirst, h⟩ := Option.bind_eq_some_iff.1 h
    obtain ⟨more, hmore, h⟩ := Option.bind_eq_some_iff.1 h
    cases h
    obtain ⟨hforth, hback⟩ := ih hmore
    constructor
    · intro other hother
      rcases List.mem_cons.1 hother with rfl | hother
      · exact ⟨first, List.mem_cons_self, hfirst⟩
      · obtain ⟨choice, hchoice, hchosen⟩ := hforth other hother
        exact ⟨choice, List.mem_cons_of_mem _ hchoice, hchosen⟩
    · intro choice hchoice
      rcases List.mem_cons.1 hchoice with rfl | hchoice
      · exact ⟨s, List.mem_cons_self, hfirst⟩
      · obtain ⟨other, hother, hchosen⟩ := hback choice hchoice
        exact ⟨other, List.mem_cons_of_mem _ hother, hchosen⟩

/-- Without requirements nothing is chosen; of several requirements one is satisfied. -/
theorem Security.select_eq_ok {requirements : List Security.Requirement}
    {choices : List Security.Choice}
    (h : Security.select schemes values requirements = .ok choices) :
    (requirements = [] ∧ choices = []) ∨
      ∃ r ∈ requirements, Security.satisfy? schemes values r = some choices := by
  unfold Security.select at h
  split at h
  · next hempty =>
    cases h
    exact .inl ⟨List.isEmpty_iff.1 hempty, rfl⟩
  · split at h
    · next found hfound =>
      cases h
      exact .inr (List.exists_of_findSome?_eq_some hfound)
    · cases h

end Choices

section Send

variable {c : Client}

theorem Client.chooses_of_select {requirements : List Security.Requirement}
    {choices : List Security.Choice}
    (h : Security.select c.schemes c.config.security requirements = .ok choices) :
    ∀ choice ∈ choices, c.Chooses choice := by
  intro choice hchoice
  rcases Security.select_eq_ok h with ⟨-, rfl⟩ | ⟨r, -, hr⟩
  · cases hchoice
  · obtain ⟨s, -, hs⟩ := (Security.mem_of_satisfy? hr).2 choice hchoice
    obtain ⟨hknown, hconfigured⟩ := Security.choose?_eq_some hs
    exact ⟨⟨_, hknown⟩, hconfigured⟩

theorem refresh_speaks {d : Security.Definition} {value header url : String}
    (hchoice : c.Chooses (d, value)) (hscheme : d.scheme = .refreshToken header url) :
    Speaks c (Security.refresh url value) fun _ turns => ∀ turn ∈ turns, turn.call? = none := by
  refine .quiet_bind (quiet_say _ _) fun _ => .lift_bind (fun request hrequest => ?_) (by simp)
  refine .exchange_bind none (fun _ => ⟨(d, value), header, url, hchoice, hscheme, hrequest⟩)
    fun outcome => ?_
  split
  · exact .lift (by simp)
  · exact .lift (by simp)

theorem credential_speaks {choice : Security.Choice} (hchoice : c.Chooses choice) :
    Speaks c (Security.credential choice) fun _ turns => ∀ turn ∈ turns, turn.call? = none := by
  obtain ⟨d, value⟩ := choice
  unfold Security.credential
  dsimp only
  cases hscheme : d.scheme with
  | keyHeader header => exact .pure (by simp)
  | keyQuery parameter => exact .pure (by simp)
  | bearerHeader header => exact .pure (by simp)
  | bearerQuery parameter => exact .pure (by simp)
  | refreshToken header url =>
    exact .each_bind (refresh_speaks hchoice hscheme) fun token => .pure (by simp)

theorem credentials_speaks {choices : List Security.Choice}
    (h : ∀ choice ∈ choices, c.Chooses choice) :
    Speaks c (Security.credentials choices) fun _ turns => ∀ turn ∈ turns, turn.call? = none := by
  induction choices with
  | nil => exact .pure (by simp)
  | cons choice rest ih =>
    refine .quiet_bind (quiet_say _ _) fun _ => ?_
    refine .each_bind (credential_speaks (h choice List.mem_cons_self)) fun first => ?_
    exact .each_bind (ih fun other hother => h other (List.mem_cons_of_mem _ hother)) fun more =>
      .pure (by simp)

structure Ready (c : Client) (operation : Operation) : Prop where
  security : ∃ choices, Security.select c.schemes c.config.security operation.security = .ok choices
  headers : ∀ h ∈ operation.headers, h.required = true →
    (c.config.headers.get? h.configName).isSome = true

theorem authenticate_speaks (requirements : List Security.Requirement) :
    Speaks c (Security.authenticate c.schemes c.config.security requirements) fun result turns =>
      calls turns = [] ∧ ∀ credentials, result = .ok credentials →
        ∃ choices, Security.select c.schemes c.config.security requirements = .ok choices := by
  refine .lift_bind (fun choices hchoices => ?_) fun e _ => ⟨rfl, by simp⟩
  exact (credentials_speaks (Client.chooses_of_select hchoices)).weaken fun _ _ hturns =>
    ⟨calls_eq_nil.2 hturns, fun _ _ => ⟨choices, hchoices⟩⟩

theorem setDeclared_eq_ok {call : Call} {fields done : Http.Fields} {headers : List Header}
    (h : c.setDeclared call fields headers = .ok done) :
    ∀ header ∈ headers, header.required = true →
      (c.config.headers.get? header.configName).isSome = true := by
  induction headers generalizing fields with
  | nil => simp
  | cons first rest ih =>
    unfold Client.setDeclared at h
    split at h
    · next value hvalue =>
      obtain ⟨set, -, h⟩ := Except.bind_eq_ok.1 h
      exact List.forall_mem_cons.2 ⟨fun _ => by rw [hvalue]; rfl, ih h⟩
    · split at h
      · cases h
      · next hrequired => exact List.forall_mem_cons.2 ⟨fun h => absurd h hrequired, ih h⟩

theorem request_eq_ok {call : Call} {credentials : Security.Credentials} {request : Request}
    (h : c.request call credentials = .ok request) :
    ∀ header ∈ call.operation.headers, header.required = true →
      (c.config.headers.get? header.configName).isSome = true := by
  obtain ⟨fields, hfields, -⟩ := Except.bind_eq_ok.1 h
  obtain ⟨base, -, hfields⟩ := Except.bind_eq_ok.1 hfields
  obtain ⟨declared, hdeclared, -⟩ := Except.bind_eq_ok.1 hfields
  exact setDeclared_eq_ok hdeclared

/-- The last of some turns calls the API and is answered. -/
structure EndsWith (call : Call) (a : Answer) (turns : List Turn) : Prop where
  last : ∃ before turn, turns = before ++ [turn] ∧ turn.call? = some call ∧ turn.answer? = some a

theorem EndsWith.append {call : Call} {a : Answer} {more : List Turn} (h : EndsWith call a more)
    (turns : List Turn) : EndsWith call a (turns ++ more) := by
  obtain ⟨before, turn, rfl, hcall, hanswer⟩ := h.last
  exact ⟨turns ++ before, turn, by rw [List.append_assoc], hcall, hanswer⟩

theorem EndsWith.mem {call : Call} {a : Answer} {turns : List Turn} (h : EndsWith call a turns) :
    ∃ turn ∈ turns, turn.call? = some call ∧ turn.answer? = some a := by
  obtain ⟨before, turn, rfl, hcall, hanswer⟩ := h.last
  exact ⟨turn, by simp, hcall, hanswer⟩

inductive CallsOnce (c : Client) (call : Call) {α : Type} (answered : α → List Turn → Prop) :
    Except Error α → List Turn → Prop where
  | unsent {e : Error} {turns : List Turn} (none : calls turns = []) :
    CallsOnce c call answered (.error e) turns
  | sent {result : Except Error α} {turns : List Turn} (ready : Ready c call.operation)
    (once : calls turns = [call]) (answer : ∀ a, result = .ok a → answered a turns) :
    CallsOnce c call answered result turns

namespace CallsOnce

variable {call : Call} {α β : Type} {P : α → List Turn → Prop} {Q : β → List Turn → Prop}
  {turns : List Turn}

theorem error {e : Error} (h : CallsOnce c call P (.error e) turns) :
    CallsOnce c call Q (.error e) turns := by
  cases h with
  | unsent none => exact .unsent none
  | sent ready once _ => exact .sent ready once (by simp)

theorem ok {a : α} (h : CallsOnce c call P (.ok a) turns) {result : Except Error β}
    (hresult : ∀ b, result = .ok b → P a turns → Q b turns) :
    CallsOnce c call Q result (turns ++ []) := by
  cases h with
  | sent ready once answer =>
    rw [List.append_nil]
    exact .sent ready once fun b hb => hresult b hb (answer a rfl)

theorem calls_eq {result : Except Error α} (h : CallsOnce c call P result turns) :
    ∀ other ∈ calls turns, other = call := by
  cases h with
  | unsent none => simp [none]
  | sent _ once _ => simp [once]

end CallsOnce

theorem send_speaks (call : Call) : Speaks c (c.send call) (CallsOnce c call (EndsWith call)) := by
  refine .quiet_bind quiet_isStopped fun stopped => ?_
  cases stopped with
  | true => exact .throw_bind (.unsent rfl)
  | false =>
    refine .bind (authenticate_speaks _) (fun credentials before hbefore => ?_)
      fun e turns hturns => .unsent hturns.1
    obtain ⟨hnone, hselected⟩ := hbefore
    refine .lift_bind (fun request hrequest => ?_) fun e _ => .unsent (by simp [hnone])
    have hready : Ready c call.operation := ⟨hselected credentials rfl, request_eq_ok hrequest⟩
    have honce (outcome : Outcome) :
        calls (before ++ [⟨some call, request, outcome⟩]) = [call] := by
      rw [calls_append, hnone, calls_cons_of_call rfl]
      rfl
    refine .quiet_bind (quiet_sayAll _) fun _ => .quiet_bind quiet_isStopped fun stopped => ?_
    cases stopped with
    | true => exact .throw_bind (.unsent (by simp [hnone]))
    | false =>
      refine .quiet_bind quiet_now fun start => ?_
      refine .exchange_bind (some call) (fun _ => ⟨credentials, hrequest⟩) fun outcome => ?_
      have hfault (e : Error) : CallsOnce c call (EndsWith call) (.error e)
          (before ++ [⟨some call, request, outcome⟩]) := .sent hready (honce _) (by simp)
      cases outcome with
      | stopped => exact .throw (hfault _)
      | late r => exact .throw (hfault _)
      | noResponse => exact .lift (hfault _)
      | response r =>
        dsimp only
        split
        · exact .lift (hfault _)
        · next bytes hbody =>
          refine .quiet_bind quiet_now fun finish => .quiet_bind (quiet_sayAll _) fun _ => .pure ?_
          refine .sent hready (honce _) fun a ha => ⟨before, _, rfl, rfl, ?_⟩
          cases ha
          simp [Turn.answer?, hbody]

end Send

namespace Lifecycle

variable {r : Resource} {c : Client}

theorem check_eq_ok {method url : String} {a b : Answer} (h : a.check method url = .ok b) :
    b = a ∧ Answer.isAccepted a.status = true := by
  unfold Answer.check at h
  split at h
  · next hstatus =>
    cases h
    exact ⟨rfl, hstatus⟩
  · cases h

theorem request_speaks (method : Http.Method) (url : String) (operation : Operation)
    (body : Option Members) :
    Speaks c (request r c method url operation body)
      (CallsOnce c (call r method url operation body) fun a turns =>
        EndsWith (call r method url operation body) a turns ∧
          Answer.isAccepted a.status = true) := by
  refine .bind (send_speaks _) (fun answer turns h => .lift (h.ok fun a ha hlast => ?_))
    fun e turns h => h.error
  obtain ⟨rfl, haccepted⟩ := check_eq_ok ha
  exact ⟨hlast, haccepted⟩

inductive Reports (call : Call) (turns : List Turn) : Option Members → Prop where
  | found {a : Answer} {object : Members} (last : EndsWith call a turns)
    (accepted : Answer.isAccepted a.status = true) (body : a.object? = some object) :
    Reports call turns (some object)
  | gone {a : Answer} (last : EndsWith call a turns) (get : call.method = .get)
    (status : a.status = 404) : Reports call turns none

theorem Reports.append {call : Call} {more : List Turn} {remote : Option Members}
    (h : Reports call more remote) (turns : List Turn) : Reports call (turns ++ more) remote := by
  cases h with
  | found last accepted body => exact .found (last.append turns) accepted body
  | gone last get status => exact .gone (last.append turns) get status

theorem fetch_speaks (url : String) :
    Speaks c (fetch r c url) (CallsOnce c (call r .get url r.get none) fun remote turns =>
      Reports (call r .get url r.get none) turns remote) := by
  refine .bind (send_speaks _) (fun answer turns h => ?_) fun e turns h => h.error
  split
  · next hstatus =>
    refine .pure (h.ok fun b hb hlast => ?_)
    cases hb
    exact .gone hlast rfl hstatus
  · refine .lift_bind (fun checked hchecked => ?_) fun e _ => h.ok (by simp)
    obtain ⟨rfl, haccepted⟩ := check_eq_ok hchecked
    split
    · next object hobject =>
      refine .pure (h.ok fun b hb hlast => ?_)
      cases hb
      exact .found hlast haccepted hobject
    · exact .throw (h.ok (by simp))

theorem look_speaks (url : String) (deleting : Bool) :
    Speaks c (look r c url deleting) fun _ turns =>
      ∀ turn ∈ turns, ∀ other, turn.call? = some other → other = call r .get url r.get none := by
  refine .each_bind ((fetch_speaks url).weaken fun _ _ h => forall_mem_calls.1 h.calls_eq)
    fun found => ?_
  have hreport (status : String) : Speaks c (do
      Http.Run.say .debug s!"resource '{r.name}' reports status '{status}'"
      return status) fun _ turns =>
        ∀ turn ∈ turns, ∀ other, turn.call? = some other → other = call r .get url r.get none :=
    .quiet_bind (quiet_say _ _) fun _ => .pure (by simp)
  dsimp only
  split
  · split
    · exact .each_bind (.pure (by simp)) hreport
    · exact .throw_bind (by simp)
  · split
    · exact .each_bind (.pure (by simp)) hreport
    · exact .throw_bind (by simp)

theorem poll_speaks (url : String) (deleting : Bool) (p : Poll) :
    Speaks c (poll r c url deleting p) fun _ turns =>
      ∀ other ∈ calls turns, other = call r .get url r.get none := by
  refine .quiet_bind (quiet_say _ _) fun _ => .weaken ?_ fun _ _ h => forall_mem_calls.2 h
  exact .each_bind (.poll (look_speaks url deleting)) fun _ => .pure (by simp)

theorem settle_speaks (url : String) (operation : Operation) (polling : Polling) :
    Speaks c (settle r c url operation polling) fun result turns =>
      (∀ other ∈ calls turns, other = call r .get url r.get none) ∧
        ∀ remote, result = .ok remote →
          Reports (call r .get url r.get none) turns remote := by
  refine .bind (poll_speaks url false _) (fun _ turns hpolled => ?_) fun e turns hpolled =>
    ⟨hpolled, by simp⟩
  refine (fetch_speaks url).weaken fun result more h => ⟨?_, fun remote hremote => ?_⟩
  · rw [calls_append]
    exact List.forall_mem_append.2 ⟨hpolled, h.calls_eq⟩
  · subst hremote
    cases h with
    | sent _ _ answer => exact (answer remote rfl).append turns

end Lifecycle

end SwaggerProvider
