import SwaggerProvider.Proofs.Lifecycle.Refresh
import SwaggerProvider.Proofs.Lifecycle.Secrets

/-!
Two runs side by side that send the same call with other secrets. They say the same, step by step,
as long as the tokens that they ask for come in both or fail to come in both.
-/

set_option autoImplicit false

namespace SwaggerProvider

open Http (Outcome Request Run Timeline)
open Security (Choice Credentials)

def bringsToken (outcome : Outcome) : Bool :=
  outcome.response?.any fun r => Http.isSuccess r.status &&
    (Security.plainField? r Security.authorization).any fun token => !token.isEmpty

/-- The next replies bring tokens at the same places. -/
def SameTokens (count : Nat) (t u : Timeline) : Prop :=
  (outcomes t.replies count).map bringsToken = (outcomes u.replies count).map bringsToken

theorem SameTokens.exchange {count : Nat} {t u : Timeline} (h : SameTokens (1 + count) t u)
    (request sent : Request) :
    bringsToken (t.exchange request).1 = bringsToken (u.exchange sent).1 ∧
      SameTokens count (t.exchange request).2 (u.exchange sent).2 := by
  unfold SameTokens at h ⊢
  rw [outcomes_add, outcomes_add, outcomes_one t request, outcomes_one u sent] at h
  obtain ⟨hfirst, hmore⟩ := List.cons_eq_cons.1 h
  exact ⟨hfirst, by simpa using hmore⟩

namespace Http.Run

variable {α β α' β' : Type} {R : α → β → Prop} {S : α' → β' → Prop} {count more : Nat}

def Echoes (count : Nat) (R : α → β → Prop) (x : Run α) (y : Run β) : Prop :=
  ∀ more t u, SameTokens (count + more) t u →
    ∃ said, (x.run t).2.events = t.events ++ said ∧ (y.run u).2.events = u.events ++ said ∧
      Except.Both (fun a b => R a b ∧ SameTokens more (x.run t).2 (y.run u).2)
        (x.run t).1 (y.run u).1

namespace Echoes

variable {x : Run α} {y : Run β} {f : α → Run α'} {g : β → Run β'}

theorem bind (h : Echoes count R x y) (hf : ∀ a b, R a b → Echoes more S (f a) (g b)) :
    Echoes (count + more) S (x >>= f) (y >>= g) := by
  intro later t u hsame
  rw [Nat.add_assoc] at hsame
  obtain ⟨said, hx, hy, hboth⟩ := h (more + later) t u hsame
  rw [run_bind, run_bind]
  generalize x.run t = first, y.run u = second at hx hy hboth
  obtain ⟨result, t⟩ := first
  obtain ⟨other, u⟩ := second
  cases hboth with
  | error e e' => exact ⟨said, hx, hy, .error e e'⟩
  | ok related =>
    obtain ⟨then_, hfx, hgy, hresults⟩ := hf _ _ related.1 later t u related.2
    refine ⟨said ++ then_, ?_, ?_, hresults⟩
    · rw [hfx, hx, List.append_assoc]
    · rw [hgy, hy, List.append_assoc]

theorem lift {x : Except Error α} {y : Except Error β} (h : Except.Both R x y) :
    Echoes 0 R (x : Run α) (y : Run β) := by
  intro more t u hsame
  rw [Nat.zero_add] at hsame
  refine ⟨[], (List.append_nil _).symm, (List.append_nil _).symm, ?_⟩
  cases h with
  | ok related => exact .ok ⟨related, hsame⟩
  | error e f => exact .error e f

theorem pure {a : α} {b : β} (h : R a b) : Echoes 0 R (pure a : Run α) (pure b : Run β) :=
  lift (.ok h)

theorem lift_bind {x : Except Error α} {y : Except Error β} (h : Except.Both R x y)
    (hf : ∀ a b, x = .ok a → R a b → Echoes count S (f a) (g b)) :
    Echoes count S ((x : Run α) >>= f) ((y : Run β) >>= g) := by
  cases h with
  | ok related => exact hf _ _ rfl related
  | error e e' =>
    exact fun _ _ _ _ => ⟨[], (List.append_nil _).symm, (List.append_nil _).symm, .error e e'⟩

theorem say_bind (level : Log.Level) (text : String) {x : Run α} {y : Run β}
    (h : Echoes count R x y) :
    Echoes count R (Run.say level text >>= fun _ => x) (Run.say level text >>= fun _ => y) := by
  have hsay : Echoes 0 Eq (Run.say level text) (Run.say level text) := by
    intro more t u hsame
    rw [Nat.zero_add] at hsame
    exact ⟨_, rfl, rfl, .ok ⟨rfl, hsame⟩⟩
  have hbind := hsay.bind fun _ _ _ => h
  rwa [Nat.zero_add] at hbind

theorem exchange (request sent : Request) :
    Echoes 1 (fun outcome other => bringsToken outcome = bringsToken other)
      (Run.exchange request) (Run.exchange sent) := by
  intro more t u hsame
  have hevents (v : Timeline) (made : Request) :
      (v.exchange made).2.events = v.events ++ [] := by simp
  exact ⟨[], hevents t request, hevents u sent, .ok (hsame.exchange request sent)⟩

end Echoes

end Http.Run

namespace Security

open Http.Run (Echoes)

variable {value other : String}

@[simp] theorem isValue_append (front back : String) : Http.Fields.isValue (front ++ back) =
    (Http.Fields.isValue front && Http.Fields.isValue back) := by
  simp [Http.Fields.isValue]

theorem presentable_bearer (h : Presentable value) : Presentable (bearer value) := by
  unfold bearer
  split
  · exact h
  · refine ⟨fun hempty => h.nonempty ?_, ?_⟩
    · exact (String.append_eq_empty_iff.1 hempty).2
    · rw [isValue_append, h.valid]
      decide

theorem refreshRequest_both (url : String) (h : Presentable value) (hother : Presentable other) :
    Except.Both (fun _ _ => True) (refreshRequest url value) (refreshRequest url other) := by
  unfold refreshRequest
  cases Url.parse url with
  | error fault => exact .error _ _
  | ok parsed =>
    dsimp only
    rw [h.valid, hother.valid]
    split
    · exact .error _ _
    · split
      · exact .error _ _
      · split
        · exact .error _ _
        · exact .ok trivial

theorem isValue_of_plainField? {r : Http.Response} {name value : String}
    (h : plainField? r name = some value) : Http.Fields.isValue value = true := by
  have hplain := (Option.filter_eq_some_iff.1 h).2
  refine List.all_eq_true.2 fun c hc => ?_
  have hchar := List.all_eq_true.1 hplain c hc
  simp only [Bool.or_eq_true, Bool.and_eq_true, decide_eq_true_eq, beq_iff_eq] at hchar ⊢
  exact hchar.imp_right fun h => ⟨h.1, by omega⟩

theorem accessToken_cases (url : String) (r : Http.Response) :
    (bringsToken (.response r) = true ∧
      ∃ token, accessToken url r = .ok token ∧ Presentable token) ∨
    (bringsToken (.response r) = false ∧ ∃ e, accessToken url r = .error e) := by
  unfold accessToken bringsToken
  simp only [Outcome.response?, Option.any_some]
  cases Http.isSuccess r.status with
  | false => exact .inr ⟨rfl, _, rfl⟩
  | true =>
    cases hfield : plainField? r authorization with
    | none => exact .inr ⟨rfl, _, rfl⟩
    | some token =>
      by_cases hempty : token.isEmpty = true
      · refine .inr ⟨by simp [hempty], ?_⟩
        simp only [Option.filter, hempty]
        exact ⟨_, rfl⟩
      · have hne : token ≠ "" := by simpa using hempty
        refine .inl ⟨by simp [hempty], token, ?_, hne, isValue_of_plainField? hfield⟩
        simp [Option.filter, hempty]

def tokenOf (url : String) (fault : Error) (outcome : Outcome) : Except Error String :=
  match outcome.response? with
  | some r => accessToken url r
  | none => .error fault

theorem tokenOf_both (url : String) (fault fault' : Error) {outcome outcome' : Outcome}
    (h : bringsToken outcome = bringsToken outcome') :
    Except.Both (fun a b => Presentable a ∧ Presentable b) (tokenOf url fault outcome)
      (tokenOf url fault' outcome') := by
  have hcases (fault : Error) (outcome : Outcome) :
      (bringsToken outcome = true ∧ ∃ token, tokenOf url fault outcome = .ok token ∧
        Presentable token) ∨
      (bringsToken outcome = false ∧ ∃ e, tokenOf url fault outcome = .error e) := by
    cases outcome with
    | response r => exact accessToken_cases url r
    | late r => exact accessToken_cases url r
    | noResponse => exact .inr ⟨rfl, _, rfl⟩
    | stopped => exact .inr ⟨rfl, _, rfl⟩
  rcases hcases fault outcome with ⟨hfirst, token, htoken, hpresent⟩ | ⟨hfirst, e, he⟩ <;>
    rcases hcases fault' outcome' with ⟨hsecond, token', htoken', hpresent'⟩ | ⟨hsecond, e', he'⟩
  · rw [htoken, htoken']
    exact .ok ⟨hpresent, hpresent'⟩
  · rw [hfirst, hsecond] at h
    cases h
  · rw [hfirst, hsecond] at h
    cases h
  · rw [he, he']
    exact .error e e'

theorem refresh_echoes (url : String) (h : Presentable value) (hother : Presentable other) :
    Echoes 1 (fun a b => Presentable a ∧ Presentable b) (refresh url value)
      (refresh url other) := by
  refine .say_bind _ _ (.lift_bind (refreshRequest_both url h hother) fun request sent _ _ => ?_)
  change Echoes (1 + 0) _ _ _
  refine (Echoes.exchange request sent).bind fun outcome outcome' hsame => ?_
  have hboth := Echoes.lift (tokenOf_both url
    (.transport Http.Method.post.text url (.noResponse request.url.anonymous.text))
    (.transport Http.Method.post.text url (.noResponse sent.url.anonymous.text)) hsame)
  cases outcome <;> cases outcome' <;> exact hboth

def Scheme.tokens : Scheme → Nat
  | .refreshToken _ _ => 1
  | _ => 0

def tokens : List Choice → Nat
  | [] => 0
  | choice :: rest => choice.1.scheme.tokens + tokens rest

theorem credential_echoes {choice choice' : Choice} (h : Choice.Alike choice choice') :
    Echoes choice.1.scheme.tokens Credentials.Alike (credential choice) (credential choice') := by
  obtain ⟨d, value⟩ := choice
  obtain ⟨_, other⟩ := choice'
  obtain ⟨hdefinition, hvalue, hother⟩ := h
  cases hdefinition
  have hheader {v w : String} (header : String) (hv : Presentable v) (hw : Presentable w) :
      (Credentials.ofHeader header v).Alike (.ofHeader header w) :=
    ⟨.cons ⟨rfl, .of_presentable hv hw⟩ .nil, .nil⟩
  have hquery (parameter : String) :
      (Credentials.ofQuery parameter value).Alike (.ofQuery parameter other) :=
    ⟨.nil, .cons rfl .nil⟩
  unfold credential
  dsimp only
  cases d.scheme with
  | keyHeader header => exact .pure (hheader header hvalue hother)
  | keyQuery parameter => exact .pure (hquery parameter)
  | bearerHeader header =>
    exact .pure (hheader header (presentable_bearer hvalue) (presentable_bearer hother))
  | bearerQuery parameter => exact .pure (hquery parameter)
  | refreshToken header url =>
    change Echoes (1 + 0) _ _ _
    exact (refresh_echoes url hvalue hother).bind fun token token' htokens =>
      .pure (hheader header (presentable_bearer htokens.1) (presentable_bearer htokens.2))

theorem credentials_echoes {choices others : List Choice}
    (h : List.Forall₂ Choice.Alike choices others) :
    Echoes (tokens choices) Credentials.Alike (credentials choices) (credentials others) := by
  induction h with
  | nil => exact .pure ⟨.nil, .nil⟩
  | @cons choice choice' choices others hfirst _ ih =>
    have hname : choice.1.name = choice'.1.name := by rw [hfirst.definition]
    unfold credentials
    rw [hname]
    refine .say_bind _ _ ?_
    refine (credential_echoes hfirst).bind fun first first' halike => ?_
    refine ih.bind fun rest rest' hrest => .pure ⟨?_, ?_⟩
    · exact List.rel_append halike.headers hrest.headers
    · exact List.rel_append halike.query hrest.query

end Security

namespace Client

open Http.Run (Echoes)

/-- What a send does first: it finds credentials and puts the request together. -/
def prepare (c : Client) (call : Call) : Run Request := do
  let credentials ← Security.authenticate c.schemes c.config.security call.operation.security
  c.request call credentials

def conclude (c : Client) (call : Call) (request : Request) (start : Duration) :
    Outcome → Run Answer
  | .stopped | .late _ => throw (.cancelled call.resource)
  | .noResponse => noAnswer request .noResponse
  | .response r =>
    match r.body with
    | none => noAnswer request .brokenBody
    | some bytes => do
      let answer := Answer.read r.status (Text.Utf8.decode bytes)
      let finish ← Run.now
      Run.sayAll (c.answerEvents call answer ⟨finish.nanos - start.nanos⟩)
      return answer

def transmit (c : Client) (call : Call) (request : Request) : Run Answer := do
  let start ← Run.now
  c.conclude call request start (← Run.exchange request)

def dispatch (c : Client) (call : Call) (request : Request) : Run Answer := do
  Run.sayAll (c.requestEvents call request)
  if ← Run.isStopped then throw (.cancelled call.resource)
  c.transmit call request

variable {c d : Client} {call other : Call} {t u : Timeline}

theorem send_of_running (h : t.stopped = false) :
    (c.send call).run t = (c.prepare call >>= c.dispatch call).run t := by
  have hsend : (c.send call).run t = (do
      let credentials ← Security.authenticate c.schemes c.config.security call.operation.security
      let request ← c.request call credentials
      c.dispatch call request : Run Answer).run t := Run.run_bind_ok (Run.run_isStopped h)
  have hdispatch : (c.prepare call >>= c.dispatch call) = (do
      let credentials ← Security.authenticate c.schemes c.config.security call.operation.security
      let request ← c.request call credentials
      c.dispatch call request : Run Answer) := bind_assoc _ _ _
  rw [hsend, hdispatch]

def IsAnswer (c : Client) (call : Call) (events : List Log.Event) : Prop :=
  events = [] ∨ ∃ answer took, events = c.answerEvents call answer took

theorem conclude_says (c : Client) (call : Call) (request : Request) (start : Duration)
    (outcome : Outcome) (t : Timeline) :
    ((c.conclude call request start outcome).run t).2.sent = t.sent ∧
    ∃ later, ((c.conclude call request start outcome).run t).2.events = t.events ++ later ∧
      c.IsAnswer call later := by
  have hnothing : ∃ later, t.events = t.events ++ later ∧ c.IsAnswer call later :=
    ⟨[], (List.append_nil _).symm, .inl rfl⟩
  unfold conclude
  cases outcome with
  | stopped => exact ⟨rfl, hnothing⟩
  | late r => exact ⟨rfl, hnothing⟩
  | noResponse => exact ⟨rfl, hnothing⟩
  | response r =>
    dsimp only
    cases r.body with
    | none => exact ⟨rfl, hnothing⟩
    | some bytes => exact ⟨rfl, _, rfl, .inr ⟨_, _, rfl⟩⟩

theorem transmit_says (c : Client) (call : Call) (request : Request) (t : Timeline) :
    ((c.transmit call request).run t).2.sent.getLast? = some request ∧
    ∃ later, ((c.transmit call request).run t).2.events = t.events ++ later ∧
      c.IsAnswer call later := by
  have hrun : (c.transmit call request).run t =
      (c.conclude call request t.now (t.exchange request).1).run (t.exchange request).2 := rfl
  obtain ⟨hsent, later, hevents, hlater⟩ :=
    c.conclude_says call request t.now (t.exchange request).1 (t.exchange request).2
  rw [hrun, hsent, hevents]
  exact ⟨by simp, later, by simp, hlater⟩

theorem dispatch_of_running (request : Request) (h : t.stopped = false) :
    (c.dispatch call request).run t =
      (c.transmit call request).run (t.say (c.requestEvents call request)) := by
  have hsaid : (t.say (c.requestEvents call request)).stopped = false := h
  rw [dispatch, Run.run_bind_ok (Run.run_sayAll _ _)]
  exact Run.run_bind_ok (Run.run_isStopped hsaid)

theorem dispatch_of_stopped (request : Request) (h : t.stopped = true) :
    (c.dispatch call request).run t =
      (.error (.cancelled call.resource), t.say (c.requestEvents call request)) := by
  have hsaid : (t.say (c.requestEvents call request)).stopped = true := h
  rw [dispatch, Run.run_bind_ok (Run.run_sayAll _ _)]
  exact Run.run_bind_ok (Run.run_isStopped hsaid)

/-- A send that fails before its request has been put together, and what it has said. -/
structure Withheld (c : Client) (call : Call) (t : Timeline) (said : List Log.Event) : Prop where
  failed : ∃ e, ((c.send call).run t).1 = .error e
  events : ((c.send call).run t).2.events = t.events ++ said

/-- A send that has said what it sends: the lines about the request are the last ones. Then the
request goes out, and after it only lines about the answer come; or the host has stopped the
provider while tokens were refreshed, and nothing comes any more. -/
inductive Announced (c : Client) (call : Call) (t : Timeline) (said : List Log.Event) : Prop where
  | sent (request : Request) (before later : List Log.Event)
    (lines : said = before ++ c.requestEvents call request)
    (sent : ((c.send call).run t).2.sent.getLast? = some request)
    (events : ((c.send call).run t).2.events = t.events ++ said ++ later)
    (answer : c.IsAnswer call later)
  | recalled (request : Request) (before : List Log.Event)
    (lines : said = before ++ c.requestEvents call request)
    (running : t.stopped = false) (stopped : ((c.send call).run t).2.stopped = true)
    (cancelled : ((c.send call).run t).1 = .error (.cancelled call.resource))
    (events : ((c.send call).run t).2.events = t.events ++ said)

theorem announced_of_prepare (hrunning : t.stopped = false) {request : Request} {u : Timeline}
    {before : List Log.Event} (h : (c.prepare call).run t = (.ok request, u))
    (hevents : u.events = t.events ++ before) :
    c.Announced call t (before ++ c.requestEvents call request) := by
  have hsend : (c.send call).run t = (c.dispatch call request).run u := by
    rw [send_of_running hrunning, Run.run_bind_ok h]
  have hsaid : (u.say (c.requestEvents call request)).events =
      t.events ++ (before ++ c.requestEvents call request) := by
    rw [Timeline.say, hevents, List.append_assoc]
  cases hstopped : u.stopped with
  | true =>
    rw [dispatch_of_stopped request hstopped] at hsend
    refine .recalled request before rfl hrunning ?_ ?_ ?_
    · rw [hsend]
      exact hstopped
    · rw [hsend]
    · rw [hsend, hsaid]
  | false =>
    rw [dispatch_of_running request hstopped] at hsend
    obtain ⟨hsent, later, hlater, hlast⟩ :=
      c.transmit_says call request (u.say (c.requestEvents call request))
    refine .sent request before later rfl ?_ ?_ hlast
    · rw [hsend, hsent]
    · rw [hsend, hlater, hsaid]

theorem withheld_of_prepare (hrunning : t.stopped = false) {e : Error} {u : Timeline}
    {said : List Log.Event} (h : (c.prepare call).run t = (.error e, u))
    (hevents : u.events = t.events ++ said) : c.Withheld call t said := by
  have hsend : (c.send call).run t = (.error e, u) := by
    rw [send_of_running hrunning, Run.run_bind, h]
  exact ⟨⟨e, by rw [hsend]⟩, by rw [hsend, hevents]⟩

theorem withheld_of_stopped (h : t.stopped = true) : c.Withheld call t [] := by
  have hsend : (c.send call).run t = (.error (.cancelled call.resource), t) := send_of_stopped h
  exact ⟨⟨_, by rw [hsend]⟩, by rw [hsend, List.append_nil]⟩

theorem prepare_echoes (hclients : c.Alike d) (hcalls : call.Alike other) {count : Nat}
    (hcount : ∀ choices,
      Security.select c.schemes c.config.security call.operation.security = .ok choices →
      Security.tokens choices = count) :
    Echoes count RequestsAlike (c.prepare call) (d.prepare other) := by
  have hauthenticate : Echoes count Security.Credentials.Alike
      (Security.authenticate c.schemes c.config.security call.operation.security)
      (Security.authenticate d.schemes d.config.security other.operation.security) := by
    rw [← hclients.schemes, ← hcalls.operation]
    refine .lift_bind (select_alike hclients.security _) fun choices others hok halike => ?_
    rw [← hcount choices hok]
    exact Security.credentials_echoes halike
  change Echoes (count + 0) _ _ _
  exact hauthenticate.bind fun _ _ halike => .lift (request_alike hclients hcalls halike)

/-- Sends of a call whose clients differ in nothing but the values of credentials and headers, and
whose bodies in nothing but secrets, say the same until their requests go out. Either both of them
fail before that, or both say what they send. -/
theorem request_log_free_of_secrets (hclients : c.Alike d) (hcalls : call.Alike other)
    (hstopped : t.stopped = u.stopped)
    (htokens : ∀ choices,
      Security.select c.schemes c.config.security call.operation.security = .ok choices →
      SameTokens (Security.tokens choices) t u) :
    ∃ said, (c.Withheld call t said ∧ d.Withheld other u said) ∨
      (c.Announced call t said ∧ d.Announced other u said) := by
  cases hrunning : t.stopped with
  | true =>
    exact ⟨[], .inl ⟨withheld_of_stopped hrunning, withheld_of_stopped (hstopped ▸ hrunning)⟩⟩
  | false =>
    have hother : u.stopped = false := hstopped ▸ hrunning
    obtain ⟨count, hcount, hsame⟩ : ∃ count, (∀ choices,
        Security.select c.schemes c.config.security call.operation.security = .ok choices →
          Security.tokens choices = count) ∧ SameTokens count t u := by
      cases hselect :
          Security.select c.schemes c.config.security call.operation.security with
      | error e => exact ⟨0, by simp, rfl⟩
      | ok choices => exact ⟨Security.tokens choices, by simp, htokens choices hselect⟩
    obtain ⟨before, ht, hu, hboth⟩ := prepare_echoes hclients hcalls hcount 0 t u hsame
    cases hx : (c.prepare call).run t with
    | mk first v =>
      cases hy : (d.prepare other).run u with
      | mk second w =>
        rw [hx] at ht hboth
        rw [hy] at hu hboth
        cases hboth with
        | error e f =>
          exact ⟨before,
            .inl ⟨withheld_of_prepare hrunning hx ht, withheld_of_prepare hother hy hu⟩⟩
        | ok related =>
          refine ⟨_, .inr ⟨announced_of_prepare hrunning hx ht, ?_⟩⟩
          rw [requestEvents_eq hclients hcalls related.1]
          exact announced_of_prepare hother hy hu

def loginClient (secret : String) : Client where
  backend := Lifecycle.firewallClient.backend
  schemes := ⟨[("key", ⟨"key", .keyQuery "key"⟩),
    ("login", ⟨"login", .refreshToken "Authorization" "http://api.example.com/token"⟩)], []⟩
  config := { Configuration.empty with security := [("key", secret), ("login", secret)] }
  settings := .standard

def loginCall (password : String) : Call where
  resource := "users"
  method := .post
  url := "http://api.example.com/users?all"
  operation := { Operation.empty with security := [[⟨"login", []⟩, ⟨"key", []⟩]] }
  record := [Lifecycle.firewallField "name" false (.scalar .string),
    { Lifecycle.firewallField "password" false (.scalar .string) with sensitive := true }]
  body := some (.array [.object [("name", .string "a"), ("password", .string password)]])

def loginReplies (token : String) : List Http.Reply := [
  ⟨.response ⟨200, [("authorization", token)], some []⟩, ⟨0⟩⟩, ⟨.response ⟨204, [], some []⟩, ⟨0⟩⟩]

theorem request_log_free_of_secrets_login :
    ∃ said, (loginClient "a").Announced (loginCall "p") (.ofReplies (loginReplies "t")) said ∧
      (loginClient "b").Announced (loginCall "q") (.ofReplies (loginReplies "u")) said := by
  have hpresentable : Presentable "a" ∧ Presentable "b" :=
    ⟨⟨by decide, by decide⟩, ⟨by decide, by decide⟩⟩
  have hsecurity : (loginClient "a").config.security.Veiled (loginClient "b").config.security := by
    intro key
    simp only [loginClient, Table.get?]
    split
    · exact .some hpresentable
    · split
      · exact .some hpresentable
      · exact .none
  have hclients : (loginClient "a").Alike (loginClient "b") :=
    ⟨rfl, rfl, rfl, rfl, rfl, hsecurity, fun _ => .none⟩
  have hbody : Option.Rel (Payload.Alike (loginCall "p").record) (loginCall "p").body
      (loginCall "q").body :=
    .some (.array (.cons (.object (.same _ _ (.secret rfl rfl rfl rfl (.nil _)))) (.nil _)))
  have hcalls : (loginCall "p").Alike (loginCall "q") := ⟨rfl, rfl, rfl, rfl, rfl, hbody⟩
  have htokens : ∀ choices, Security.select (loginClient "a").schemes
      (loginClient "a").config.security (loginCall "p").operation.security = .ok choices →
      SameTokens (Security.tokens choices) (.ofReplies (loginReplies "t"))
        (.ofReplies (loginReplies "u")) := by
    rintro choices ⟨⟩
    unfold SameTokens
    decide +kernel
  have hsent : (((loginClient "a").send (loginCall "p")).run
      (.ofReplies (loginReplies "t"))).1.isOk = true := by decide +kernel
  obtain ⟨said, ⟨⟨⟨e, he⟩, -⟩, -⟩ | hannounced⟩ :=
    request_log_free_of_secrets hclients hcalls (t := .ofReplies (loginReplies "t"))
      (u := .ofReplies (loginReplies "u")) rfl htokens
  · rw [he] at hsent
    cases hsent
  · exact ⟨said, hannounced⟩

end Client

end SwaggerProvider
