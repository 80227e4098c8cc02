import SwaggerProvider.Proofs.Provider.Configuring

/-!
A provider that the host has stopped. Every operation looks up and checks what it needs, and the
first thing it does after that is to send a request; so it comes to its end there, and nothing more
is sent, whatever the provider is asked for and however it is configured anew.
-/

set_option autoImplicit false

namespace SwaggerProvider

open Http (Run Timeline)

namespace Http

structure Halted (t u : Timeline) : Prop where
  stopped : u.stopped = true
  sent : u.sent = t.sent
  replies : u.replies = t.replies

theorem Halted.trans {t u v : Timeline} (first : Halted t u) (second : Halted u v) :
    Halted t v where
  stopped := second.stopped
  sent := second.sent.trans first.sent
  replies := second.replies.trans first.replies

namespace Run

variable {α β : Type} {checks : Except Error String} {x : Run α}

structure Guarded (checks : Except Error String) (x : Run α) : Prop where
  fails : ∀ e, checks = .error e → ∀ t, x.run t = (.error e, t)
  cancels : ∀ name, checks = .ok name → ∀ t, t.stopped = true →
    x.run t = (.error (.cancelled name), t)

namespace Guarded

theorem run_eq (h : Guarded checks x) {t : Timeline} (hstopped : t.stopped = true) :
    x.run t = (checks.bind fun name => .error (.cancelled name), t) := by
  cases hchecks : checks with
  | ok name => exact h.cancels name hchecks t hstopped
  | error e => exact h.fails e hchecks t

theorem throw (e : Error) : Guarded (.error e) (throw e : Run α) where
  fails := by
    rintro _ ⟨⟩ t
    rfl
  cancels := by
    rintro _ ⟨⟩

theorem send {c : Client} {call : Call} {name : String} (h : call.resource = name) :
    Guarded (.ok name) (c.send call) where
  fails := by
    rintro _ ⟨⟩
  cancels := by
    rintro _ ⟨⟩ t hstopped
    rw [← h]
    exact send_of_stopped hstopped

theorem bind (h : Guarded checks x) (f : α → Run β) : Guarded checks (x >>= f) where
  fails e he t := by rw [run_bind, h.fails e he t]
  cancels name hname t hstopped := by rw [run_bind, h.cancels name hname t hstopped]

theorem lift_bind (y : Except Error α) {f : α → Run β} {g : α → Except Error String}
    (h : ∀ a, Guarded (g a) (f a)) : Guarded (y.bind g) ((y : Run α) >>= f) := by
  cases y with
  | ok a => exact h a
  | error e => exact .throw e

end Guarded

end Run

end Http

namespace Lifecycle

open Http.Run (Guarded)

/-- What the URL of a request needs: the identifiers of the parents, and a place for them all. It is
for the resource of that name. -/
def addressed (name : String) (parents : List Parent) (attributes : Members)
    (url : List String → Except Error String) : Except Error String := do
  let ids ← parentIds attributes parents
  let _ ← url ids
  return name

section Checks

variable (r : Resource) (c : Client)

def createChecks (planned : Members) : Except Error String :=
  addressed r.name r.parents planned (rootUrl r c)

def readChecks (current : ResourceState) : Except Error String :=
  addressed r.name r.parents current.attributes fun ids => instanceUrl r c ids current.id

def updateChecks (prior : ResourceState) (planned : Members) : Except Error String :=
  match r.put with
  | none => .error (.unsupportedOperation r.name "update")
  | some _ => do
    checkImmutable r.record prior.attributes planned
    addressed r.name r.parents prior.attributes fun ids => instanceUrl r c ids prior.id

def deleteChecks (current : ResourceState) : Except Error String :=
  match r.delete with
  | none => .error (.unsupportedOperation r.name "delete")
  | some _ =>
    addressed r.name r.parents current.attributes fun ids => instanceUrl r c ids current.id

def selectChecks (d : DataSource) (config : Members) : Except Error String := do
  let _ ← Filter.ofConfig d.record config
  addressed d.name d.parents config (c.url d.name d.host d.path)

def readByIdChecks (config : Members) : Except Error String :=
  match (config.get? Record.idName).bind Json.scalarText? with
  | none => .error (.runtimeConfig (.missingAttribute Record.idName))
  | some id => addressed r.name r.parents config fun ids => instanceUrl r c ids id

end Checks

section Operations

variable {α : Type} {name : String} {attributes : Members} {parents : List Parent}
  {url : List String → Except Error String}

theorem addressed_guarded {send : List String → String → Run α}
    (h : ∀ ids text, Guarded (.ok name) (send ids text)) :
    Guarded (addressed name parents attributes url) (do
      let ids ← parentIds attributes parents
      let text ← url ids
      send ids text) :=
  .lift_bind _ fun ids => .lift_bind _ fun text => h ids text

theorem fetch_guarded (r : Resource) (c : Client) (url : String) :
    Guarded (.ok r.name) (fetch r c url) := .bind (.send (by rfl)) _

theorem request_guarded (r : Resource) (c : Client) (method : Http.Method) (url : String)
    (operation : Operation) (body : Option Members) :
    Guarded (.ok r.name) (request r c method url operation body) := .bind (.send (by rfl)) _

variable (r : Resource) (c : Client)

theorem create_guarded (planned : Members) :
    Guarded (createChecks r c planned) (create r c planned) :=
  .bind (addressed_guarded fun _ url => (request_guarded r c .post url r.post _).bind _) _

theorem read_guarded (current : ResourceState) :
    Guarded (readChecks r c current) (read r c current) :=
  .bind (addressed_guarded fun _ url => fetch_guarded r c url) _

theorem update_guarded (prior : ResourceState) (planned : Members) :
    Guarded (updateChecks r c prior planned) (update r c prior planned) := by
  refine .bind ?_ _
  unfold updateChecks updated
  cases r.put with
  | none => exact .throw _
  | some put =>
    exact .lift_bind _ fun _ =>
      addressed_guarded fun _ url => (request_guarded r c .put url put _).bind _

theorem delete_guarded (current : ResourceState) :
    Guarded (deleteChecks r c current) (delete r c current) := by
  unfold deleteChecks delete
  cases r.delete with
  | none => exact .throw _
  | some operation => exact addressed_guarded fun _ _ => .bind (.send (by rfl)) _

theorem select_guarded (d : DataSource) (config : Members) :
    Guarded (selectChecks c d config) (select d c config) :=
  .lift_bind _ fun _ => addressed_guarded fun _ _ => .bind (.send (by rfl)) _

theorem readById_guarded (config : Members) :
    Guarded (readByIdChecks r c config) (readById r c config) := by
  unfold readByIdChecks readById
  cases (config.get? Record.idName).bind Json.scalarText? with
  | none => exact .throw _
  | some id => exact addressed_guarded fun _ url => (fetch_guarded r c url).bind _

end Operations

end Lifecycle

namespace Provider

open Http (Halted)
open Http.Run (Guarded)

def onResourceChecks (p : Provider) (type : String)
    (checks : Resource → Client → Except Error String) : Except Error String := do
  let r ← p.resource type
  checks r (← p.configured)

def readDataChecks (p : Provider) (type : String) (config : Members) : Except Error String :=
  match p.localName? type with
  | none => .error (.unknownResource type)
  | some name => do
    let client ← p.configured
    match p.dataHandler? name with
    | some (.collection d) => Lifecycle.selectChecks client d config
    | some (.byId r) => Lifecycle.readByIdChecks r client config
    | none => .error (.unknownResource type)

/-- What an operation looks up and checks before it sends anything; it is given the resource that
the first request is for. To configure and to stop a provider are no operations. -/
def checks? (p : Provider) : HostCall → Option (Except Error String)
  | .configure _ => none
  | .stop => none
  | .create type planned =>
    some (p.onResourceChecks type fun r c => Lifecycle.createChecks r c planned)
  | .read type current =>
    some (p.onResourceChecks type fun r c => Lifecycle.readChecks r c current)
  | .update type prior planned =>
    some (p.onResourceChecks type fun r c => Lifecycle.updateChecks r c prior planned)
  | .delete type current =>
    some (p.onResourceChecks type fun r c => Lifecycle.deleteChecks r c current)
  | .readData type config => some (p.readDataChecks type config)

variable {p : Provider} {t : Timeline} {call : HostCall} {checks : Except Error String}

theorem onResource_guarded {α : Type} {type : String} {operation : Resource → Client → Run α}
    {checks : Resource → Client → Except Error String}
    (h : ∀ r c, Guarded (checks r c) (operation r c)) :
    Guarded (p.onResourceChecks type checks) (p.onResource type operation) :=
  .lift_bind _ fun r => .lift_bind _ fun c => h r c

theorem readData_guarded (type : String) (config : Members) :
    Guarded (p.readDataChecks type config) (p.readData type config) := by
  unfold readDataChecks readData
  cases p.localName? type with
  | none => exact .throw _
  | some name =>
    refine .lift_bind _ fun c => ?_
    cases p.dataHandler? name with
    | none => exact .throw _
    | some handler =>
      cases handler with
      | collection d => exact Lifecycle.select_guarded c d config
      | byId r => exact Lifecycle.readById_guarded r c config

theorem answer_guarded (h : p.checks? call = some checks) : Guarded checks (p.answer call) := by
  cases call with
  | configure values => cases h
  | stop => cases h
  | create type planned =>
    cases h
    exact (onResource_guarded fun r c => Lifecycle.create_guarded r c planned).bind _
  | read type current =>
    cases h
    exact (onResource_guarded fun r c => Lifecycle.read_guarded r c current).bind _
  | update type prior planned =>
    cases h
    exact (onResource_guarded fun r c => Lifecycle.update_guarded r c prior planned).bind _
  | delete type current =>
    cases h
    exact (onResource_guarded fun r c => Lifecycle.delete_guarded r c current).bind _
  | readData type config =>
    cases h
    exact (readData_guarded type config).bind _

/-- An operation that fails its checks fails so on every timeline, and does nothing else. -/
theorem step_of_checks_error {e : Error} (h : p.checks? call = some (.error e)) (t : Timeline) :
    p.step t call = (.error e, p, t) :=
  step_of_run_error ((answer_guarded h).fails e rfl t)

theorem step_of_stopped (hstopped : t.stopped = true) (h : p.checks? call = some checks) :
    p.step t call = (checks.bind fun name => .error (.cancelled name), p, t) := by
  have hrun := (answer_guarded h).run_eq hstopped
  cases hchecks : checks with
  | ok name =>
    rw [hchecks] at hrun
    exact step_of_run_error hrun
  | error e =>
    rw [hchecks] at hrun
    exact step_of_run_error hrun

theorem halted_configure (hstopped : t.stopped = true) (values : Members) :
    Halted t ((p.configure values).run t).2 := by
  unfold configure
  rw [Run.run_bind_ok (Run.run_sayAll _ _)]
  cases Configuration.ofValues values p.analysis with
  | error e => exact ⟨hstopped, rfl, rfl⟩
  | ok c =>
    rw [Run.run_lift_ok rfl]
    split
    · exact ⟨hstopped, rfl, rfl⟩
    · rw [Run.run_bind, run_newClient]
      split
      · next h =>
        split at h <;> cases h
        exact ⟨hstopped, rfl, rfl⟩
      · next h =>
        split at h <;> cases h
        exact ⟨hstopped, rfl, rfl⟩

theorem halted_step (hstopped : t.stopped = true) (call : HostCall) :
    Halted t (p.step t call).2.2 := by
  cases h : p.checks? call with
  | some checks =>
    rw [step_of_stopped hstopped h]
    exact ⟨hstopped, rfl, rfl⟩
  | none =>
    cases call with
    | configure values =>
      have hstep : (p.step t (.configure values)).2.2 = ((p.configure values).run t).2 := by
        unfold step answer
        rw [Run.run_bind]
        rcases (p.configure values).run t with ⟨_ | _, _⟩ <;> rfl
      rw [hstep]
      exact halted_configure hstopped values
    | stop => exact ⟨rfl, rfl, rfl⟩
    | _ => cases h

theorem halted_run (hstopped : t.stopped = true) (calls : List HostCall) :
    Halted t (p.run t calls).2.2 := by
  induction calls generalizing p t with
  | nil => exact ⟨hstopped, rfl, rfl⟩
  | cons call rest ih =>
    have hstep := halted_step (p := p) hstopped call
    exact hstep.trans (ih hstep.stopped)

section Append

variable (p t) (front : List HostCall)

theorem run_append (back : List HostCall) :
    p.run t (front ++ back) =
      ((p.run t front).1 ++ ((p.run t front).2.1.run (p.run t front).2.2 back).1,
        ((p.run t front).2.1.run (p.run t front).2.2 back).2) := by
  induction front generalizing p t with
  | nil => rfl
  | cons call rest ih => simp only [List.cons_append, run, ih]

theorem length_run : (p.run t front).1.length = front.length := by
  induction front generalizing p t with
  | nil => rfl
  | cons call rest ih => simp [run, ih]

theorem getElem?_run (call : HostCall) (back : List HostCall) :
    (p.run t (front ++ call :: back)).1[front.length]? =
      some ((p.run t front).2.1.step (p.run t front).2.2 call).1 := by
  rw [run_append, ← length_run p t front, List.getElem?_append_right le_rfl, Nat.sub_self]
  rfl

end Append

theorem stopped_of_stop (p : Provider) (t : Timeline) (calls : List HostCall) :
    Halted (p.step t .stop).2.2 (p.run t (.stop :: calls)).2.2 :=
  halted_run (p := (p.step t .stop).2.1) rfl calls

/-- Once the host has stopped a provider nothing more is sent and no reply is taken, whatever it
calls in whatever order. No operation succeeds: one that passes its checks is cancelled, and one
that does not fails as it would have at any time. -/
theorem stop_is_final (p : Provider) (t : Timeline) (earlier later : List HostCall) :
    (p.run t (earlier ++ .stop :: later)).2.2.sent = (p.run t earlier).2.2.sent ∧
    (p.run t (earlier ++ .stop :: later)).2.2.replies = (p.run t earlier).2.2.replies ∧
    ∀ before call after checks, later = before ++ call :: after →
      (p.run t (earlier ++ .stop :: before)).2.1.checks? call = some checks →
      (p.run t (earlier ++ .stop :: later)).1[(earlier ++ .stop :: before).length]? =
        some (checks.bind fun name => .error (.cancelled name)) ∧
      ∀ e, checks = .error e → ∀ u,
        (p.run t (earlier ++ .stop :: before)).2.1.step u call =
          (.error e, (p.run t (earlier ++ .stop :: before)).2.1, u) := by
  have hafter (calls : List HostCall) : Halted ((p.run t earlier).2.1.step (p.run t earlier).2.2
      .stop).2.2 (p.run t (earlier ++ .stop :: calls)).2.2 := by
    rw [run_append]
    exact stopped_of_stop _ _ calls
  refine ⟨(hafter later).sent, (hafter later).replies, ?_⟩
  rintro before call after checks rfl hchecks
  constructor
  · rw [← List.cons_append, ← List.append_assoc, getElem?_run,
      step_of_stopped (hafter before).stopped hchecks]
  · rintro e rfl u
    exact step_of_checks_error hchecks u

/-- A stopped provider takes a configuration over, and still reads nothing. -/
theorem stop_is_final_firewall :
    ((firewallProvider.run (.ofReplies [Lifecycle.firewallReply])
      (moves ["a.com"] ++ .stop :: (moves ["b.com"] ++
        [.read "cdn_cdns_firewalls" Lifecycle.firewallState]))).1[3]? =
      some (.error (.cancelled "cdns_firewalls"))) ∧
    (firewallProvider.run (.ofReplies [Lifecycle.firewallReply])
      (moves ["a.com"] ++ .stop :: (moves ["b.com"] ++
        [.read "cdn_cdns_firewalls" Lifecycle.firewallState]))).2.2.sent = [] := by
  obtain ⟨hsent, -, hresults⟩ := stop_is_final firewallProvider
    (.ofReplies [Lifecycle.firewallReply]) (moves ["a.com"])
    (moves ["b.com"] ++ [.read "cdn_cdns_firewalls" Lifecycle.firewallState])
  have hchecks : (firewallProvider.run (.ofReplies [Lifecycle.firewallReply])
      (moves ["a.com"] ++ .stop :: moves ["b.com"])).2.1.checks?
        (.read "cdn_cdns_firewalls" Lifecycle.firewallState) = some (.ok "cdns_firewalls") := by
    decide +kernel
  have hnothing : (firewallProvider.run (.ofReplies [Lifecycle.firewallReply])
      (moves ["a.com"])).2.2.sent = [] := by decide +kernel
  exact ⟨(hresults (moves ["b.com"]) _ [] _ rfl hchecks).1, hsent.trans hnothing⟩

end Provider

end SwaggerProvider
