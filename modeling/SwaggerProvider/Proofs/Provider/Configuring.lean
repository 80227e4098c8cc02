import SwaggerProvider.Provider
import SwaggerProvider.Proofs.Config.Endpoints
import SwaggerProvider.Proofs.Lifecycle.Refresh
import SwaggerProvider.Proofs.Lifecycle.Runs
import Mathlib.Data.List.Nodup
import Mathlib.Data.Set.Function

/-!
The configuration that a provider works with. The client is kept when a new configuration is
equivalent to its own; the provider is none the worse for it, it has the client that it would have
without. It is also kept when a new one cannot be built.
-/

set_option autoImplicit false

namespace SwaggerProvider

def HostCall.resourceType? : HostCall → Option String
  | .create type _ => some type
  | .read type _ => some type
  | .update type _ _ => some type
  | .delete type _ => some type
  | .configure _ => none
  | .stop => none
  | .readData _ _ => none

namespace Provider

open Http (Run Timeline)
open SwaggerProvider.Configuration (hashedText)

def accepted? (a : Analysis) : HostCall → Option Configuration
  | .configure values => (Configuration.ofValues values a).toOption
  | _ => none

def accepted (a : Analysis) (calls : List HostCall) : List Configuration :=
  calls.filterMap (accepted? a)

abbrev Result := Except Error (Option ResourceState)

/-- The configuration that a call brings, if it is taken over. -/
def taken? (a : Analysis) (call : HostCall) : Result → Option Configuration
  | .ok _ => accepted? a call
  | .error _ => none

def taken (a : Analysis) (calls : List HostCall) (results : List Result) : List Configuration :=
  (calls.zip results).filterMap fun e => taken? a e.1 e.2

def withConfig (p : Provider) (config : Option Configuration) : Provider :=
  { p with client := config.map p.clientFor }

variable {p : Provider} {t : Timeline} {values : Members}

theorem withConfig_none (hfresh : p.client = none) : p.withConfig none = p := by
  cases p
  cases hfresh
  rfl

section Accepted

variable {a : Analysis}

theorem accepted?_of_ok {c : Configuration} (h : Configuration.ofValues values a = .ok c) :
    accepted? a (.configure values) = some c := by
  rw [accepted?, h]
  rfl

theorem accepted?_of_error {e : Error} (h : Configuration.ofValues values a = .error e) :
    accepted? a (.configure values) = none := by
  rw [accepted?, h]
  rfl

theorem accepted_of_taken? {call : HostCall} {result : Result} {c : Configuration}
    (h : taken? a call result = some c) : accepted? a call = some c := by
  cases result with
  | ok state => exact h
  | error e => cases h

@[simp] theorem accepted_cons (call : HostCall) (calls : List HostCall) :
    accepted a (call :: calls) = (accepted? a call).toList ++ accepted a calls := by
  rw [accepted, List.filterMap_cons]
  cases accepted? a call <;> rfl

@[simp] theorem taken_nil (results : List Result) : taken a [] results = [] := rfl

@[simp] theorem taken_cons (call : HostCall) (calls : List HostCall) (result : Result)
    (results : List Result) :
    taken a (call :: calls) (result :: results) =
      (taken? a call result).toList ++ taken a calls results := by
  rw [taken, List.zip_cons_cons, List.filterMap_cons]
  cases taken? a call result <;> rfl

theorem ofValues_of_mem_accepted {calls : List HostCall} {c : Configuration}
    (h : c ∈ accepted a calls) : ∃ values, Configuration.ofValues values a = .ok c := by
  obtain ⟨call, -, hcall⟩ := List.mem_filterMap.1 h
  cases call with
  | configure values =>
    refine ⟨values, ?_⟩
    cases hvalues : Configuration.ofValues values a with
    | ok d =>
      rw [accepted?_of_ok hvalues] at hcall
      cases hcall
      rfl
    | error e =>
      rw [accepted?_of_error hvalues] at hcall
      cases hcall
  | _ => cases hcall

end Accepted

section Step

variable {call : HostCall}

theorem step_of_run_ok {q : Provider} {state : Option ResourceState} {u : Timeline}
    (h : (p.answer call).run t = (.ok (q, state), u)) : p.step t call = (.ok state, q, u) := by
  rw [step, h]

theorem step_of_run_error {e : Error} {u : Timeline}
    (h : (p.answer call).run t = (.error e, u)) : p.step t call = (.error e, p, u) := by
  rw [step, h]

inductive Configured (p : Provider) (t : Timeline) (values : Members) :
    Result → Provider → Prop where
  | rejected {e : Error} (refused : Configuration.ofValues values p.analysis = .error e) :
    Configured p t values (.error e) p
  | kept {c : Configuration} (valid : Configuration.ofValues values p.analysis = .ok c)
    (equivalent : (p.client.any fun k => k.config.isEquivalent c) = true) :
    Configured p t values (.ok none) p
  | unbuilt {c : Configuration} {reason : String}
    (valid : Configuration.ofValues values p.analysis = .ok c)
    (fault : t.faults.head?.join = some reason) :
    Configured p t values (.error (.runtimeConfig (.clientBuild reason))) p
  | replaced {c : Configuration} (valid : Configuration.ofValues values p.analysis = .ok c)
    (different : (p.client.any fun k => k.config.isEquivalent c) = false)
    (built : t.faults.head?.join = none) :
    Configured p t values (.ok none) (p.withConfig (some c))

namespace Configured

variable {result : Result} {q : Provider}

theorem eq_error {e : Error} (h : Configured p t values result q)
    (hvalues : Configuration.ofValues values p.analysis = .error e) : result = .error e := by
  cases h with
  | rejected refused => exact congrArg _ (Except.error.inj (refused.symm.trans hvalues))
  | kept valid equivalent => cases valid.symm.trans hvalues
  | unbuilt valid fault => cases valid.symm.trans hvalues
  | replaced valid different built => cases valid.symm.trans hvalues

theorem eq_ok {c : Configuration} (h : Configured p t values result q)
    (hvalues : Configuration.ofValues values p.analysis = .ok c)
    (hbuilt : t.faults.head?.join = none) : result = .ok none := by
  cases h with
  | rejected refused => cases refused.symm.trans hvalues
  | kept valid equivalent => rfl
  | unbuilt valid fault => cases fault.symm.trans hbuilt
  | replaced valid different built => rfl

theorem analysis_eq (h : Configured p t values result q) : q.analysis = p.analysis := by
  cases h <;> rfl

theorem taken?_eq (h : Configured p t values result q)
    (hbuilt : ∀ reason, result ≠ .error (.runtimeConfig (.clientBuild reason))) :
    taken? p.analysis (.configure values) result = accepted? p.analysis (.configure values) := by
  cases h with
  | rejected refused => rw [accepted?_of_error refused, taken?]
  | kept valid equivalent => rfl
  | @unbuilt _ reason valid fault => exact absurd rfl (hbuilt reason)
  | replaced valid different built => rfl

/-- A client that is kept is the one that the new configuration would have brought. -/
theorem eq_withConfig {latest : Option Configuration}
    (h : Configured (p.withConfig latest) t values result q)
    (hsame : ∀ c d, latest = some c → accepted? p.analysis (.configure values) = some d →
      c.isEquivalent d = true → c = d) :
    q = p.withConfig ((taken? p.analysis (.configure values) result).or latest) := by
  cases h with
  | rejected refused => rfl
  | unbuilt valid fault => rfl
  | @kept d valid equivalent =>
    have hsome : accepted? p.analysis (.configure values) = some d := accepted?_of_ok valid
    rw [taken?, hsome, Option.some_or]
    cases latest with
    | none => cases equivalent
    | some c => rw [hsame c d rfl hsome (by simpa [withConfig, clientFor] using equivalent)]
  | @replaced d valid different built =>
    have hsome : accepted? p.analysis (.configure values) = some d := accepted?_of_ok valid
    rw [taken?, hsome, Option.some_or]
    rfl

end Configured

theorem run_newClient (c : Configuration) (u : Timeline) :
    (p.newClient c).run u = match u.faults.head?.join with
      | some reason => (.error (.runtimeConfig (.clientBuild reason)), u.build.2)
      | none => (.ok (p.clientFor c), u.build.2) := by
  have hbuild : Run.build.run u = (.ok u.faults.head?.join, u.build.2) := rfl
  rw [newClient, Run.run_bind_ok hbuild]
  cases u.faults.head?.join <;> rfl

theorem step_configure (p : Provider) (t : Timeline) (values : Members) :
    Configured p t values (p.step t (.configure values)).1 (p.step t (.configure values)).2.1 := by
  let warned := t.say ((Configuration.notes values p.analysis).map Analysis.warn)
  cases hvalues : Configuration.ofValues values p.analysis with
  | error e =>
    have hrun : (p.configure values).run t = (.error e, warned) := by
      rw [configure, Run.run_bind_ok (Run.run_sayAll _ _), Run.run_lift_error hvalues]
    rw [step_of_run_error (by rw [answer, Run.run_bind, hrun])]
    exact .rejected hvalues
  | ok c =>
    cases hsame : p.client.any fun k => k.config.isEquivalent c with
    | true =>
      have hrun : ∃ u, (p.configure values).run t = (.ok p, u) := by
        rw [configure, Run.run_bind_ok (Run.run_sayAll _ _), Run.run_lift_ok hvalues, if_pos hsame]
        exact ⟨_, rfl⟩
      obtain ⟨u, hrun⟩ := hrun
      rw [step_of_run_ok (by rw [answer, Run.run_bind_ok hrun]; rfl)]
      exact .kept hvalues hsame
    | false =>
      have hnew := run_newClient (p := p) c warned
      have hrun : (p.configure values).run t = (p.newClient c >>= fun client => do
          Run.say .info s!"provider '{p.name}' configured (endpoints {c.endpointsHash})"
          return { p with client := some client }).run warned := by
        rw [configure, Run.run_bind_ok (Run.run_sayAll _ _), Run.run_lift_ok hvalues,
          if_neg (by simp [hsame])]
      cases hfault : t.faults.head?.join with
      | some reason =>
        have hwarned : warned.faults.head?.join = some reason := hfault
        rw [hwarned] at hnew
        rw [Run.run_bind, hnew] at hrun
        rw [step_of_run_error (by rw [answer, Run.run_bind, hrun])]
        exact .unbuilt hvalues hfault
      | none =>
        have hwarned : warned.faults.head?.join = none := hfault
        rw [hwarned] at hnew
        rw [Run.run_bind_ok hnew] at hrun
        rw [step_of_run_ok (by rw [answer, Run.run_bind_ok hrun]; rfl)]
        exact .replaced hvalues hsame hfault

theorem step_of_answer {α : Type} {x : Run α} (state : α → Option ResourceState)
    (h : p.answer call = do return (p, state (← x))) : (p.step t call).2.1 = p := by
  unfold step
  rw [h, Run.run_bind]
  rcases x.run t with ⟨_ | _, _⟩ <;> rfl

theorem step_withConfig {latest : Option Configuration}
    (hsame : ∀ c d, latest = some c → accepted? p.analysis call = some d →
      c.isEquivalent d = true → c = d) :
    ((p.withConfig latest).step t call).2.1 =
      p.withConfig ((taken? p.analysis call ((p.withConfig latest).step t call).1).or latest) := by
  have hother (hnone : accepted? p.analysis call = none)
      (hkept : ((p.withConfig latest).step t call).2.1 = p.withConfig latest) :
      ((p.withConfig latest).step t call).2.1 =
        p.withConfig
          ((taken? p.analysis call ((p.withConfig latest).step t call).1).or latest) := by
    rw [hkept]
    cases ((p.withConfig latest).step t call).1 with
    | ok state => rw [taken?, hnone, Option.none_or]
    | error e => rfl
  cases call with
  | configure values => exact (step_configure _ t values).eq_withConfig hsame
  | stop => exact hother rfl rfl
  | create type planned => exact hother rfl (step_of_answer some rfl)
  | read type current => exact hother rfl (step_of_answer id rfl)
  | update type prior planned => exact hother rfl (step_of_answer some rfl)
  | delete type current => exact hother rfl (step_of_answer (fun _ => none) rfl)
  | readData type config => exact hother rfl (step_of_answer some rfl)

theorem analysis_step : (p.step t call).2.1.analysis = p.analysis := by
  cases call with
  | configure values => exact (step_configure p t values).analysis_eq
  | stop => rfl
  | create type planned => rw [step_of_answer some rfl]
  | read type current => rw [step_of_answer id rfl]
  | update type prior planned => rw [step_of_answer some rfl]
  | delete type current => rw [step_of_answer (fun _ => none) rfl]
  | readData type config => rw [step_of_answer some rfl]

theorem taken?_eq_accepted?
    (hbuilt : ∀ reason, (p.step t call).1 ≠ .error (.runtimeConfig (.clientBuild reason))) :
    taken? p.analysis call (p.step t call).1 = accepted? p.analysis call := by
  cases call with
  | configure values => exact (step_configure p t values).taken?_eq hbuilt
  | _ => cases (p.step t _).1 <;> rfl

theorem step_of_error {e : Error} (h : (p.step t call).1 = .error e) : (p.step t call).2.1 = p := by
  unfold step at h ⊢
  split at h
  · cases h
  · rfl

theorem step_unconfigured {type : String} {r : Resource} (hfresh : p.client = none)
    (htype : call.resourceType? = some type) (hresource : p.resource type = .ok r) :
    (p.step t call).1 = .error .notConfigured := by
  have hclient : p.configured = .error .notConfigured := by rw [configured, hfresh]
  have hrun {α : Type} (operation : Resource → Client → Run α) :
      (p.onResource type operation).run t = (.error .notConfigured, t) := by
    unfold onResource
    rw [Run.run_lift_ok hresource, Run.run_lift_error hclient]
  cases call <;> cases htype <;> unfold step answer <;> rw [Run.run_bind, hrun]

theorem step_readData_unconfigured {type name : String} {config : Members}
    (hfresh : p.client = none) (hname : p.localName? type = some name) :
    (p.step t (.readData type config)).1 = .error .notConfigured := by
  have hclient : p.configured = .error .notConfigured := by rw [configured, hfresh]
  have hrun : (p.readData type config).run t = (.error .notConfigured, t) := by
    unfold readData
    rw [hname]
    exact Run.run_lift_error hclient
  unfold step answer
  rw [Run.run_bind, hrun]

end Step

section Run

variable {calls : List HostCall}

theorem run_cons (call : HostCall) :
    (p.run t (call :: calls)).2.1 = ((p.step t call).2.1.run (p.step t call).2.2 calls).2.1 := rfl

theorem results_cons (call : HostCall) :
    (p.run t (call :: calls)).1 =
      (p.step t call).1 :: ((p.step t call).2.1.run (p.step t call).2.2 calls).1 := rfl

theorem run_withConfig {latest : Option Configuration}
    (hsame : ∀ c ∈ latest.toList ++ accepted p.analysis calls,
      ∀ d ∈ latest.toList ++ accepted p.analysis calls, c.isEquivalent d = true → c = d) :
    ((p.withConfig latest).run t calls).2.1 = p.withConfig
      (latest.toList ++ taken p.analysis calls ((p.withConfig latest).run t calls).1).getLast? := by
  induction calls generalizing t latest with
  | nil => cases latest <;> rfl
  | cons call rest ih =>
    have hstep : ((p.withConfig latest).step t call).2.1 = p.withConfig
        ((taken? p.analysis call ((p.withConfig latest).step t call).1).or latest) := by
      refine step_withConfig fun c d hc hd => hsame c ?_ d ?_
      · simp [hc]
      · simp [accepted, hd]
    rw [accepted_cons] at hsame
    rw [run_cons, results_cons, hstep, taken_cons]
    cases h : taken? p.analysis call ((p.withConfig latest).step t call).1 with
    | none =>
      rw [Option.none_or, Option.toList_none, List.nil_append]
      refine ih fun c hc d hd => hsame c ?_ d ?_
      · exact List.mem_append.2 ((List.mem_append.1 hc).imp_right (List.mem_append_right _))
      · exact List.mem_append.2 ((List.mem_append.1 hd).imp_right (List.mem_append_right _))
    | some d =>
      rw [accepted_of_taken? h] at hsame
      rw [Option.some_or, ih fun c hc e he => hsame c (List.mem_append_right _ hc) e
          (List.mem_append_right _ he), Option.toList_some, List.singleton_append,
        List.getLast?_append_of_ne_nil _ (List.cons_ne_nil d _)]

/-- Where no client fails to be built, every configuration that is accepted is taken over. -/
theorem taken_eq_accepted
    (hbuilt : ∀ result ∈ (p.run t calls).1, ∀ reason,
      result ≠ .error (.runtimeConfig (.clientBuild reason))) :
    taken p.analysis calls (p.run t calls).1 = accepted p.analysis calls := by
  induction calls generalizing p t with
  | nil => rfl
  | cons call rest ih =>
    rw [results_cons] at hbuilt ⊢
    obtain ⟨hfirst, hrest⟩ := List.forall_mem_cons.1 hbuilt
    have hlater := ih hrest
    rw [analysis_step] at hlater
    simp [taken?_eq_accepted? hfirst, hlater]

end Run

/-- The texts that are hashed when the accepted configurations are compared. -/
def hashed (a : Analysis) (calls : List HostCall) : Set String :=
  {text | ∃ c ∈ accepted a calls, hashedText c.endpoints = text}

theorem isEquivalent_of_accepted {a : Analysis} {calls : List HostCall}
    (hnames : ∀ r ∈ a.resources, '\n' ∉ r.name.toList)
    (hhash : Set.InjOn Sha256.hex (hashed a calls)) :
    ∀ c ∈ accepted a calls, ∀ d ∈ accepted a calls, c.isEquivalent d = true ↔ c = d := by
  intro c hc d hd
  obtain ⟨values, hvalues⟩ := ofValues_of_mem_accepted hc
  obtain ⟨other, hother⟩ := ofValues_of_mem_accepted hd
  exact Configuration.isEquivalent_iff hvalues hother hnames fun h =>
    hhash ⟨c, hc, rfl⟩ ⟨d, hd, rfl⟩ h

/-- Whatever the host has called, the client has the configuration that was taken over last, and
none before the first one. Accepted configurations are taken over unless a client cannot be built.
Endpoints are taken to be told apart by their hashes. -/
theorem client_of_last_accepted (hfresh : p.client = none)
    (hnames : ∀ r ∈ p.analysis.resources, '\n' ∉ r.name.toList) (t : Timeline)
    (calls : List HostCall) (hhash : Set.InjOn Sha256.hex (hashed p.analysis calls)) :
    (p.run t calls).2.1.client.map Client.config =
      (taken p.analysis calls (p.run t calls).1).getLast? ∧
    ((∀ result ∈ (p.run t calls).1, ∀ reason,
        result ≠ .error (.runtimeConfig (.clientBuild reason))) →
      taken p.analysis calls (p.run t calls).1 = accepted p.analysis calls) ∧
    (∀ values u c, Configuration.ofValues values p.analysis = .ok c → u.faults.head?.join = none →
      ((p.run t calls).2.1.step u (.configure values)).1 = .ok none) ∧
    (∀ values u e, Configuration.ofValues values p.analysis = .error e →
      ((p.run t calls).2.1.step u (.configure values)).1 = .error e) ∧
    (∀ call u e, ((p.run t calls).2.1.step u call).1 = .error e →
      ((p.run t calls).2.1.step u call).2.1 = (p.run t calls).2.1) ∧
    (taken p.analysis calls (p.run t calls).1 = [] →
      (∀ u call type r, call.resourceType? = some type → p.resource type = .ok r →
        ((p.run t calls).2.1.step u call).1 = .error .notConfigured) ∧
      ∀ u type config name, p.localName? type = some name →
        ((p.run t calls).2.1.step u (.readData type config)).1 = .error .notConfigured) ∧
    ∀ c ∈ accepted p.analysis calls, ∀ d ∈ accepted p.analysis calls,
      c.isEquivalent d = true ↔ c = d := by
  have hequivalent := isEquivalent_of_accepted hnames hhash
  have hrun : (p.run t calls).2.1 =
      p.withConfig (taken p.analysis calls (p.run t calls).1).getLast? := by
    have hlast : ((p.withConfig none).run t calls).2.1 =
        p.withConfig (taken p.analysis calls ((p.withConfig none).run t calls).1).getLast? :=
      run_withConfig fun c hc d hd => (hequivalent c hc d hd).1
    rwa [withConfig_none hfresh] at hlast
  refine ⟨?_, taken_eq_accepted, ?_, ?_, fun call u e => step_of_error, ?_, hequivalent⟩
  · rw [hrun]
    cases (taken p.analysis calls (p.run t calls).1).getLast? <;> rfl
  · intro values u c hc hbuilt
    rw [hrun]
    exact (step_configure _ u values).eq_ok hc hbuilt
  · intro values u e he
    rw [hrun]
    exact (step_configure _ u values).eq_error he
  · intro hnone
    rw [hnone] at hrun
    rw [hrun]
    constructor
    · intro u call type r htype hresource
      exact step_unconfigured (p := p.withConfig none) rfl htype hresource
    · intro u type config name hname
      exact step_readData_unconfigured (p := p.withConfig none) rfl hname

def firewallProvider : Provider where
  name := "cdn"
  analysis := ⟨[Lifecycle.firewall], [], [], Lifecycle.firewallClient.backend, .empty, [], []⟩
  settings := .standard
  client := none

def moves (hosts : List String) : List HostCall :=
  hosts.map fun host => .configure [("endpoints", .object [("cdns_firewalls", .string host)])]

def movedTo (host : String) : Configuration :=
  { Configuration.empty with endpoints := [("cdns_firewalls", host)] }

def firewallFaults : Timeline :=
  { Timeline.ofReplies [] with faults := [none, some "no certificates"] }

/-- Places that are given with a scheme are refused; of the other ones the last one counts for which
a client is built. -/
theorem client_of_last_accepted_firewall :
    (firewallProvider.run firewallFaults
      (moves ["http://a.com", "a.com", "b.com", "c.com", "d.com", "http://e.com"])).2.1.client.map
        Client.config = some (movedTo "d.com") ∧
    (movedTo "a.com").isEquivalent (movedTo "b.com") = false ∧
    ((firewallProvider.run (.ofReplies []) (moves ["http://a.com"])).2.1.step (.ofReplies [])
      (.read "cdn_cdns_firewalls" Lifecycle.firewallState)).1 = .error .notConfigured := by
  have hnames : ∀ r ∈ firewallProvider.analysis.resources, '\n' ∉ r.name.toList := by decide
  have haccepted : accepted firewallProvider.analysis
      (moves ["http://a.com", "a.com", "b.com", "c.com", "d.com", "http://e.com"]) =
      [movedTo "a.com", movedTo "b.com", movedTo "c.com", movedTo "d.com"] := by decide +kernel
  have htaken : taken firewallProvider.analysis
      (moves ["http://a.com", "a.com", "b.com", "c.com", "d.com", "http://e.com"])
      (firewallProvider.run firewallFaults
        (moves ["http://a.com", "a.com", "b.com", "c.com", "d.com", "http://e.com"])).1 =
      [movedTo "a.com", movedTo "c.com", movedTo "d.com"] := by decide +kernel
  have hdistinct : ([movedTo "a.com", movedTo "b.com", movedTo "c.com", movedTo "d.com"].map
      fun c => Sha256.hex (hashedText c.endpoints)).Nodup := by decide +kernel
  have hhash : Set.InjOn Sha256.hex (hashed firewallProvider.analysis
      (moves ["http://a.com", "a.com", "b.com", "c.com", "d.com", "http://e.com"])) := by
    rintro _ ⟨c, hc, rfl⟩ _ ⟨d, hd, rfl⟩ h
    rw [haccepted] at hc hd
    rw [List.inj_on_of_nodup_map hdistinct hc hd h]
  have hrefused : accepted firewallProvider.analysis (moves ["http://a.com"]) = [] := by
    decide +kernel
  have hnothing : Set.InjOn Sha256.hex
      (hashed firewallProvider.analysis (moves ["http://a.com"])) := by
    rintro _ ⟨c, hc, rfl⟩
    rw [hrefused] at hc
    cases hc
  obtain ⟨hlast, -, -, -, -, -, hequivalent⟩ :=
    client_of_last_accepted rfl hnames firewallFaults _ hhash
  obtain ⟨-, -, -, -, -, hfresh, -⟩ :=
    client_of_last_accepted rfl hnames (.ofReplies []) _ hnothing
  rw [htaken] at hlast
  rw [haccepted] at hequivalent
  refine ⟨hlast, ?_, ?_⟩
  · have hmoved := hequivalent (movedTo "a.com") (by simp) (movedTo "b.com") (by simp)
    have hne : movedTo "a.com" ≠ movedTo "b.com" := by decide +kernel
    rw [← Bool.not_eq_true, hmoved]
    exact hne
  · exact (hfresh (by decide +kernel)).1 _ _ "cdn_cdns_firewalls" Lifecycle.firewall rfl (by rfl)

end Provider

end SwaggerProvider
