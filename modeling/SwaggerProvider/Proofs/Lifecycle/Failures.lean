import SwaggerProvider.Proofs.Lifecycle.Runs

/-!
What can go wrong in the life of a resource: of all steps only the filling of a path complains about
the number of its identifiers.
-/

set_option autoImplicit false

namespace SwaggerProvider

/-- An error of any kind but that a path got a wrong number of identifiers. -/
def Error.Counted : Error → Prop
  | .runtimeConfig (.identifierCount _ _ _) => False
  | _ => True

open Error (Counted)

section Client

theorem set_counted (fields : Http.Fields) (name value : String) :
    (fields.set name value).FailsOnly Counted := by
  unfold Http.Fields.set
  split
  · exact .error trivial
  · split
    · exact .error trivial
    · exact .ok _

theorem setAll_counted (fields : Http.Fields) (entries : List (String × String)) :
    (fields.setAll entries).FailsOnly Counted := by
  induction entries generalizing fields with
  | nil => exact .ok _
  | cons e rest ih => exact .bind (set_counted _ _ _) fun fields => ih fields

theorem setDeclared_counted (c : Client) (call : Call) (fields : Http.Fields)
    (headers : List Header) : (c.setDeclared call fields headers).FailsOnly Counted := by
  induction headers generalizing fields with
  | nil => exact .ok _
  | cons h rest ih =>
    unfold Client.setDeclared
    split
    · exact .bind (set_counted _ _ _) fun fields => ih fields
    · split
      · exact .error trivial
      · exact ih fields

theorem baseFields_counted (c : Client) (withBody : Bool) :
    (c.baseFields withBody).FailsOnly Counted := by
  refine .bind (set_counted _ _ _) fun fields => .bind (set_counted _ _ _) fun fields => ?_
  split
  · exact set_counted _ _ _
  · exact .ok _

theorem request_counted (c : Client) (call : Call) (credentials : Security.Credentials) :
    (c.request call credentials).FailsOnly Counted := by
  have hfields : (c.fields call credentials).FailsOnly Counted :=
    .bind (baseFields_counted c _) fun fields =>
      .bind (setDeclared_counted c call fields _) fun fields => setAll_counted fields _
  refine .bind hfields fun fields => ?_
  split
  · exact .error trivial
  · exact .ok _

theorem select_counted (schemes : Security.Schemes) (values : Table String)
    (requirements : List Security.Requirement) :
    (Security.select schemes values requirements).FailsOnly Counted := by
  unfold Security.select
  split
  · exact .ok _
  · split
    · exact .ok _
    · exact .error trivial

open Http.Run (FailsOnly)

/-- Errors of sending a request or of what came back for it. -/
def Error.OfExchange : Error → Prop
  | .transport _ _ _ => True
  | .apiResponse _ _ _ _ => True
  | _ => False

theorem Error.OfExchange.counted {e : Error} (h : e.OfExchange) : e.Counted := by
  cases e with
  | transport method url fault => trivial
  | apiResponse method url status body => trivial
  | _ => cases h

theorem refreshRequest_ofExchange (url token : String) :
    (Security.refreshRequest url token).FailsOnly Error.OfExchange := by
  unfold Security.refreshRequest
  split
  · exact .error trivial
  · split
    · exact .error trivial
    · split
      · exact .error trivial
      · split
        · exact .error trivial
        · exact .ok _

theorem accessToken_ofExchange (url : String) (r : Http.Response) :
    (Security.accessToken url r).FailsOnly Error.OfExchange := by
  unfold Security.accessToken
  dsimp only
  split
  · exact .error trivial
  · split
    · exact .ok _
    · exact .error trivial

theorem refresh_ofExchange (url token : String) :
    FailsOnly Error.OfExchange (Security.refresh url token) := by
  refine .bind (.say _ _) fun _ => ?_
  refine .bind (.lift (refreshRequest_ofExchange url token)) fun request =>
    .bind (.exchange request) fun outcome => ?_
  split
  · exact .lift (accessToken_ofExchange url _)
  · exact .lift (.error trivial)

theorem credential_ofExchange (choice : Security.Choice) :
    FailsOnly Error.OfExchange (Security.credential choice) := by
  obtain ⟨d, value⟩ := choice
  unfold Security.credential
  dsimp only
  cases d.scheme with
  | keyHeader header => exact .pure _
  | keyQuery parameter => exact .pure _
  | bearerHeader header => exact .pure _
  | bearerQuery parameter => exact .pure _
  | refreshToken header url => exact .bind (refresh_ofExchange _ _) fun token => .pure _

theorem credentials_ofExchange (choices : List Security.Choice) :
    FailsOnly Error.OfExchange (Security.credentials choices) := by
  induction choices with
  | nil => exact .pure _
  | cons choice rest ih =>
    exact .bind (.say _ _) fun _ => .bind (credential_ofExchange choice) fun first =>
      .bind ih fun more => .pure _

theorem authenticate_counted (schemes : Security.Schemes) (values : Table String)
    (requirements : List Security.Requirement) :
    FailsOnly Counted (Security.authenticate schemes values requirements) :=
  .bind (.lift (select_counted _ _ _)) fun choices =>
    (credentials_ofExchange choices).weaken fun _ h => h.counted

theorem send_counted (c : Client) (call : Call) : FailsOnly Counted (c.send call) := by
  refine .bind .isStopped fun stopped => ?_
  cases stopped with
  | true => exact .throw_bind trivial _
  | false =>
    refine .bind (authenticate_counted _ _ _) fun credentials => ?_
    refine .bind (.lift (request_counted c call credentials)) fun request => ?_
    refine .bind (.sayAll _) fun _ => .bind .isStopped fun stopped => ?_
    cases stopped with
    | true => exact .throw_bind trivial _
    | false =>
      refine .bind .now fun start => .bind (.exchange request) fun outcome => ?_
      cases outcome with
      | stopped => exact .throw trivial
      | late r => exact .throw trivial
      | noResponse => exact .lift (.error trivial)
      | response r =>
        dsimp only
        split
        · exact .lift (.error trivial)
        · exact .bind .now fun finish => .bind (.sayAll _) fun _ => .pure _

end Client

namespace Lifecycle

open Http.Run (FailsOnly)

section Calls

variable (r : Resource) (c : Client)

theorem check_counted (method url : String) (a : Answer) :
    (a.check method url).FailsOnly Counted := by
  unfold Answer.check
  split
  · exact .ok _
  · exact .error trivial

theorem fetch_counted (url : String) : FailsOnly Counted (fetch r c url) := by
  refine .bind (send_counted c _) fun answer => ?_
  split
  · exact .pure _
  · refine .bind (.lift (check_counted _ _ _)) fun answer => ?_
    split
    · exact .pure _
    · exact .throw trivial

theorem look_counted (url : String) (deleting : Bool) :
    FailsOnly Counted (look r c url deleting) := by
  refine .bind (fetch_counted r c url) fun found => ?_
  have hreport (status : String) : FailsOnly Counted (do
      Http.Run.say .debug s!"resource '{r.name}' reports status '{status}'"
      return status) := .bind (.say _ _) fun _ => .pure _
  dsimp only
  split
  · split
    · exact .bind (.pure _) hreport
    · exact .throw_bind trivial _
  · split
    · exact .bind (.pure _) hreport
    · exact .throw_bind trivial _

theorem poll_counted (url : String) (deleting : Bool) (p : Poll) :
    FailsOnly Counted (poll r c url deleting p) :=
  .bind (.say _ _) fun _ => .bind (.poll (look_counted r c url deleting) trivial fun _ _ => trivial)
    fun _ => .pure _

theorem settle_counted (url : String) (operation : Operation) (polling : Polling) :
    FailsOnly Counted (settle r c url operation polling) :=
  .bind (poll_counted r c url false _) fun _ => fetch_counted r c url

theorem request_counted (method : Http.Method) (url : String) (operation : Operation)
    (body : Option Members) : FailsOnly Counted (request r c method url operation body) :=
  .bind (send_counted c _) fun _ => .lift (check_counted _ _ _)

end Calls

theorem parentIds_counted (attributes : Members) (parents : List Parent) :
    (parentIds attributes parents).FailsOnly Counted := by
  induction parents with
  | nil => exact .ok _
  | cons p rest ih =>
    unfold parentIds
    split
    · exact .map _ ih
    · exact .error trivial

theorem parentIds_length {attributes : Members} {parents : List Parent} {ids : List String}
    (h : parentIds attributes parents = .ok ids) : ids.length = parents.length := by
  induction parents generalizing ids with
  | nil =>
    cases h
    rfl
  | cons p rest ih =>
    unfold parentIds at h
    split at h
    · obtain ⟨more, hmore, rfl⟩ := Except.map_eq_ok.1 h
      rw [List.length_cons, List.length_cons, ih hmore]
    · cases h

theorem checkImmutable_counted (record : Record) (prior planned : Members) :
    (checkImmutable record prior planned).FailsOnly Counted := by
  unfold checkImmutable
  split
  · exact .error trivial
  · exact .ok _

theorem ofConfig_counted (record : Record) (config : Members) :
    (Filter.ofConfig record config).FailsOnly Counted := by
  refine .bind ?_ fun blocks => .mapM fun block _ => ?_
  · unfold Filter.blocks
    split
    · exact .ok _
    · exact .ok _
    · exact .ok _
    · exact .ok _
    · exact .error trivial
  · unfold Filter.ofBlock
    split
    · exact .error trivial
    · refine .map _ ?_
      unfold Filter.field
      split
      · exact .error trivial
      · split
        · exact .ok _
        · exact .error trivial

theorem single_counted (dataSource : String) (filters : List Filter) (items : List Json) :
    (Filter.single dataSource filters items).FailsOnly Counted := by
  unfold Filter.single
  split
  · exact .ok _
  · exact .error trivial

theorem hostOf_counted (config : Configuration) (b : Backend) (name : String) (host : Host) :
    (config.hostOf b name host).FailsOnly Counted := by
  unfold Configuration.hostOf
  split
  · exact .ok _
  · split
    · exact .ok _
    · exact .ok _
    · unfold Backend.resolveHost
      split
      · exact .ok _
      · split
        · unfold Backend.hostIn
          split
          · exact .error trivial
          · split
            · exact .ok _
            · exact .error trivial
        · exact .error trivial

end Lifecycle

end SwaggerProvider
