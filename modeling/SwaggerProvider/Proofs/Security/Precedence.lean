import SwaggerProvider.Proofs.Lifecycle.Failures
import SwaggerProvider.Proofs.Lifecycle.RequestLog
import SwaggerProvider.Proofs.Lifecycle.Sending

/-!
Which credentials a request carries. Of several requirements the first one counts for whose schemes
there are definitions and values; they are applied in their order, and only what they ask for is
refreshed. In the request their headers replace others of the same name.
-/

set_option autoImplicit false

namespace SwaggerProvider

open Http (Fields Outcome Request Run Timeline)
open Http.Run (Speaks quiet_say quiet_sayAll quiet_now)

namespace Security

section Selection

variable {c : Client} {requirements : List Requirement} {r : Requirement} {choices : List Choice}

/-- For every scheme of a requirement there is a definition, and a value is configured for it. -/
def Satisfies (c : Client) (r : Requirement) (choices : List Choice) : Prop :=
  List.Forall₂ (fun s choice => c.schemes.definitions.get? s.name = some choice.1 ∧
    c.config.security.get? choice.1.configName = some choice.2) r choices

theorem satisfy?_eq_some_iff :
    satisfy? c.schemes c.config.security r = some choices ↔ Satisfies c r choices := by
  have hchoose (s : SchemeUse) (choice : Choice) :
      choose? c.schemes c.config.security s = some choice ↔
        c.schemes.definitions.get? s.name = some choice.1 ∧
          c.config.security.get? choice.1.configName = some choice.2 := by
    refine ⟨choose?_eq_some, fun ⟨hknown, hvalue⟩ => ?_⟩
    simp [choose?, hknown, hvalue]
  rw [satisfy?, Option.mapM_eq_some, Satisfies]
  simp only [hchoose]

theorem satisfy?_eq_none_iff :
    satisfy? c.schemes c.config.security r = none ↔ ∀ choices, ¬ Satisfies c r choices := by
  simp only [Option.eq_none_iff_forall_ne_some, Ne, satisfy?_eq_some_iff]

/-- The first requirement that is satisfied, if any is required. -/
inductive Selects (c : Client) : List Requirement → Except Error (List Choice) → Prop where
  | unneeded : Selects c [] (.ok [])
  | first {front back : List Requirement} {r : Requirement} {choices : List Choice}
    (passed : ∀ q ∈ front, ∀ choices, ¬ Satisfies c q choices) (satisfied : Satisfies c r choices) :
    Selects c (front ++ r :: back) (.ok choices)
  | unsatisfied {requirements : List Requirement} (nonempty : requirements ≠ [])
    (none : ∀ r ∈ requirements, ∀ choices, ¬ Satisfies c r choices) :
    Selects c requirements (.error (.runtimeConfig (.unsatisfiedSecurity
      (requirements.map fun r => r.map SchemeUse.name))))

theorem select_selects (c : Client) (requirements : List Requirement) :
    Selects c requirements (select c.schemes c.config.security requirements) := by
  unfold select
  split
  · next hempty =>
    rw [List.isEmpty_iff.1 hempty]
    exact .unneeded
  · next hempty =>
    split
    · next choices hfound =>
      obtain ⟨front, r, back, rfl, hr, hfront⟩ := List.findSome?_eq_some_iff.1 hfound
      exact .first (fun q hq => satisfy?_eq_none_iff.1 (hfront q hq)) (satisfy?_eq_some_iff.1 hr)
    · next hnone =>
      exact .unsatisfied (by simpa using hempty) fun r hr =>
        satisfy?_eq_none_iff.1 (List.findSome?_eq_none_iff.1 hnone r hr)

/-- No selection is made exactly where something is required and nothing of it is satisfied. -/
theorem Selects.error_iff {selected : Except Error (List Choice)}
    (h : Selects c requirements selected) :
    (∃ fault, selected = .error (.runtimeConfig fault)) ↔
      requirements ≠ [] ∧ ∀ r ∈ requirements, ∀ choices, ¬ Satisfies c r choices := by
  cases h with
  | unneeded => simp
  | @first front back r choices passed satisfied =>
    simp only [reduceCtorEq, exists_false, false_iff, not_and]
    exact fun _ hnone => hnone r (by simp) choices satisfied
  | unsatisfied nonempty none => exact ⟨fun _ => ⟨nonempty, none⟩, fun _ => ⟨_, rfl⟩⟩

end Selection

section Supply

/-- What one scheme supplies: the value that is configured for it, or the token of the reply to the
one request that refreshes it. -/
inductive Applied : Choice → List Turn → Except Error Credentials → Prop where
  | keyHeader {d : Definition} {value header : String} (scheme : d.scheme = .keyHeader header) :
    Applied (d, value) [] (.ok (.ofHeader header value))
  | bearerHeader {d : Definition} {value header : String}
    (scheme : d.scheme = .bearerHeader header) :
    Applied (d, value) [] (.ok (.ofHeader header (bearer value)))
  | query {d : Definition} {value parameter : String}
    (scheme : d.scheme = .keyQuery parameter ∨ d.scheme = .bearerQuery parameter) :
    Applied (d, value) [] (.ok (.ofQuery parameter value))
  | unsendable {d : Definition} {value header url : String} {e : Error}
    (scheme : d.scheme = .refreshToken header url) (request : refreshRequest url value = .error e) :
    Applied (d, value) [] (.error e)
  | refreshed {d : Definition} {value header url : String} {request : Request} (outcome : Outcome)
    (scheme : d.scheme = .refreshToken header url)
    (request_eq : refreshRequest url value = .ok request) :
    Applied (d, value) [⟨none, request, outcome⟩]
      ((tokenOf url (.transport Http.Method.post.text url
        (.noResponse request.url.anonymous.text)) outcome).map fun token =>
          .ofHeader header (bearer token))

/-- What some schemes supply, one after the other, as long as none fails. -/
inductive Supplied : List Choice → List Turn → Except Error Credentials → Prop where
  | nil : Supplied [] [] (.ok .empty)
  | failed {choice : Choice} {rest : List Choice} {turns : List Turn} {e : Error}
    (applied : Applied choice turns (.error e)) : Supplied (choice :: rest) turns (.error e)
  | cons {choice : Choice} {rest : List Choice} {turns more : List Turn} {first : Credentials}
    {result : Except Error Credentials} (applied : Applied choice turns (.ok first))
    (next : Supplied rest more result) :
    Supplied (choice :: rest) (turns ++ more) (result.map first.append)

variable {c : Client} {d : Definition} {value header url : String} {choices : List Choice}

theorem refresh_applied (hchoice : c.Chooses (d, value))
    (hscheme : d.scheme = .refreshToken header url) :
    Speaks c (refresh url value) fun result turns =>
      Applied (d, value) turns (result.map fun token => .ofHeader header (bearer token)) := by
  refine .quiet_bind (quiet_say _ _) fun _ => .lift_bind (fun request hrequest => ?_)
    fun e he => .unsendable hscheme he
  refine .exchange_bind none (fun _ => ⟨(d, value), header, url, hchoice, hscheme, hrequest⟩)
    fun outcome => ?_
  have happlied := Applied.refreshed outcome hscheme hrequest
  unfold tokenOf at happlied
  split
  · next r hr =>
    rw [hr] at happlied
    exact .lift happlied
  · next hnone =>
    rw [hnone] at happlied
    exact .lift happlied

theorem credential_applied {choice : Choice} (hchoice : c.Chooses choice) :
    Speaks c (credential choice) fun result turns => Applied choice turns result := by
  obtain ⟨d, value⟩ := choice
  unfold credential
  dsimp only
  cases hscheme : d.scheme with
  | keyHeader header => exact .pure (.keyHeader hscheme)
  | keyQuery parameter => exact .pure (.query (.inl hscheme))
  | bearerHeader header => exact .pure (.bearerHeader hscheme)
  | bearerQuery parameter => exact .pure (.query (.inr hscheme))
  | refreshToken header url =>
    refine .bind (refresh_applied hchoice hscheme) (fun token turns h => .pure ?_)
      fun e turns h => h
    rw [List.append_nil]
    exact h

theorem credentials_supplied (h : ∀ choice ∈ choices, c.Chooses choice) :
    Speaks c (credentials choices) fun result turns => Supplied choices turns result := by
  induction choices with
  | nil => exact .pure .nil
  | cons choice rest ih =>
    obtain ⟨hchoice, hrest⟩ := List.forall_mem_cons.1 h
    refine .quiet_bind (quiet_say _ _) fun _ => ?_
    refine .bind (credential_applied hchoice) (fun first turns hfirst => ?_)
      fun e turns hfailed => .failed hfailed
    refine .bind (ih hrest) (fun credentials more hmore => .pure ?_) fun e more hmore =>
      .cons hfirst hmore
    rw [List.append_nil]
    exact .cons hfirst hmore

theorem Supplied.refreshes {turns : List Turn} {result : Except Error Credentials}
    (h : Supplied choices turns result) : ∀ turn ∈ turns, turn.call? = none := by
  have happlied {choice : Choice} {turns : List Turn} {result : Except Error Credentials}
      (h : Applied choice turns result) : ∀ turn ∈ turns, turn.call? = none := by
    cases h <;> simp
  induction h with
  | nil => simp
  | failed applied => exact happlied applied
  | cons applied _ ih => exact List.forall_mem_append.2 ⟨happlied applied, ih⟩

def Scheme.header? : Scheme → Option String
  | .keyHeader header | .bearerHeader header | .refreshToken header _ => some header
  | .keyQuery _ | .bearerQuery _ => none

def Scheme.parameter? : Scheme → Option String
  | .keyQuery parameter | .bearerQuery parameter => some parameter
  | .keyHeader _ | .bearerHeader _ | .refreshToken _ _ => none

/-- Credentials for some schemes, in the order of the schemes. -/
structure InOrder (choices : List Choice) (credentials : Credentials) : Prop where
  headers : credentials.headers.map Prod.fst = choices.filterMap fun choice =>
    choice.1.scheme.header?
  query : credentials.query = choices.filterMap fun choice =>
    choice.1.scheme.parameter?.map fun parameter => (parameter, choice.2)

theorem Applied.inOrder {choice : Choice} {turns : List Turn} {credentials : Credentials}
    (h : Applied choice turns (.ok credentials)) : InOrder [choice] credentials := by
  generalize hresult : (.ok credentials : Except Error Credentials) = result at h
  cases h with
  | keyHeader scheme =>
    cases hresult
    constructor <;> simp [Credentials.ofHeader, Scheme.header?, Scheme.parameter?, scheme]
  | bearerHeader scheme =>
    cases hresult
    constructor <;> simp [Credentials.ofHeader, Scheme.header?, Scheme.parameter?, scheme]
  | query scheme =>
    cases hresult
    rcases scheme with scheme | scheme <;>
      constructor <;> simp [Credentials.ofQuery, Scheme.header?, Scheme.parameter?, scheme]
  | unsendable => cases hresult
  | refreshed _ scheme =>
    obtain ⟨token, -, rfl⟩ := Except.map_eq_ok.1 hresult.symm
    constructor <;> simp [Credentials.ofHeader, Scheme.header?, Scheme.parameter?, scheme]

theorem Supplied.inOrder {turns : List Turn} {result : Except Error Credentials}
    (h : Supplied choices turns result) {credentials : Credentials}
    (hresult : result = .ok credentials) : InOrder choices credentials := by
  induction h generalizing credentials with
  | nil =>
    cases hresult
    exact ⟨rfl, rfl⟩
  | failed => cases hresult
  | cons applied next ih =>
    obtain ⟨rest, hrest, rfl⟩ := Except.map_eq_ok.1 hresult
    have hfirst := applied.inOrder
    have hmore := ih hrest
    constructor
    · rw [Credentials.append, List.map_append, hfirst.headers, hmore.headers,
        ← List.filterMap_append, List.singleton_append]
    · rw [Credentials.append, hfirst.query, hmore.query, ← List.filterMap_append,
        List.singleton_append]

end Supply

/-- What comes of the chosen schemes: their credentials in order, or an error of refreshing one of
them. -/
structure Supplies (choices : List Choice) (turns : List Turn) (result : Except Error Credentials) :
    Prop where
  supplied : Supplied choices turns result
  inOrder : ∀ credentials, result = .ok credentials → InOrder choices credentials
  ofExchange : ∀ e, result = .error e → e.OfExchange

theorem authenticate_supplies (c : Client) (requirements : List Requirement) :
    Speaks c (authenticate c.schemes c.config.security requirements) fun result turns =>
      match select c.schemes c.config.security requirements with
      | .ok choices => Supplies choices turns result
      | .error e => turns = [] ∧ result = .error e := by
  refine .lift_bind (fun choices hselect => ?_) fun e hselect => ?_
  · rw [hselect]
    intro t
    obtain ⟨turns, hheard, hsupplied⟩ :=
      credentials_supplied (Client.chooses_of_select hselect) t
    exact ⟨turns, hheard, hsupplied, fun _ => hsupplied.inOrder, credentials_ofExchange choices t⟩
  · rw [hselect]
    exact ⟨rfl, rfl⟩

/-- Credentials are those of the selected schemes, and for them nothing but tokens is asked for. -/
theorem authenticate_speaks_grants (c : Client) (requirements : List Requirement) :
    Speaks c (authenticate c.schemes c.config.security requirements) fun result turns =>
      (∀ turn ∈ turns, turn.call? = none) ∧ ∀ credentials, result = .ok credentials →
        ∃ choices, Selects c requirements (.ok choices) ∧
          Supplies choices turns (.ok credentials) := by
  have hselects := select_selects c requirements
  refine (authenticate_supplies c requirements).weaken fun result turns h => ?_
  cases hselect : select c.schemes c.config.security requirements with
  | error e =>
    rw [hselect] at h
    obtain ⟨rfl, rfl⟩ := h
    simp
  | ok choices =>
    rw [hselect] at h hselects
    refine ⟨h.supplied.refreshes, fun credentials hresult => ⟨choices, hselects, ?_⟩⟩
    rwa [← hresult]

end Security

section Fields

theorem Http.Fields.set_eq_ok {fields done : Fields} {name value : String}
    (h : fields.set name value = .ok done) :
    done = fields.insert (Fields.lowerName name) value := by
  unfold Fields.set at h
  split at h
  · cases h
  · split at h
    · cases h
    · cases h
      rfl

theorem Http.Fields.setAll_eq_ok {fields done : Fields} {entries : List (String × String)}
    (h : fields.setAll entries = .ok done) :
    done = (entries.map fun e => (Fields.lowerName e.1, e.2)).foldl
      (fun t e => t.insert e.1 e.2) fields := by
  induction entries generalizing fields with
  | nil =>
    cases h
    rfl
  | cons e rest ih =>
    obtain ⟨next, hnext, h⟩ := Except.bind_eq_ok.1 h
    rw [ih h, Fields.set_eq_ok hnext]
    rfl

theorem Http.Fields.get?_setAll {fields done : Fields} {front back : List (String × String)}
    {name value : String} (h : fields.setAll (front ++ (name, value) :: back) = .ok done)
    (hlast : ∀ e ∈ back, Fields.lowerName e.1 ≠ Fields.lowerName name) :
    done.get? (Fields.lowerName name) = some value := by
  have hback : Table.get? (back.map fun e => (Fields.lowerName e.1, e.2)).reverse
      (Fields.lowerName name) = none := by
    refine Table.get?_eq_none_iff.2 fun hkey => ?_
    obtain ⟨e, he, hname⟩ := List.mem_map.1 hkey
    obtain ⟨entry, hentry, rfl⟩ := List.mem_map.1 (List.mem_reverse.1 he)
    exact hlast entry hentry hname
  rw [Fields.setAll_eq_ok h, Table.get?_foldl_insert, List.map_append, List.map_cons,
    List.reverse_append, List.reverse_cons, Table.get?_append, Table.get?_append, hback]
  simp [Table.get?]

end Fields

section Query

def Url.queryParts (url : Url) : List (List Char) :=
  match url.query with
  | some query => if query.isEmpty then [] else Text.pieces '&' query.toList
  | none => []

theorem Url.amp_notMem_pairText (pair : String × String) : '&' ∉ Url.pairText pair := by
  simp [Url.pairText, Log.amp_notMem_formChars]

theorem Url.queryParts_appendQuery (url : Url) (pairs : List (String × String)) :
    (url.appendQuery pairs).queryParts = url.queryParts ++ pairs.map Url.pairText := by
  cases pairs with
  | nil => simp [Url.appendQuery]
  | cons pair rest =>
    have hpieces : Text.pieces '&' (Text.join ['&'] ((pair :: rest).map Url.pairText)) =
        (pair :: rest).map Url.pairText := by
      refine Text.pieces_join (by simp) fun piece hpiece => ?_
      obtain ⟨entry, -, rfl⟩ := List.mem_map.1 hpiece
      exact Url.amp_notMem_pairText entry
    have hne : Text.join ['&'] ((pair :: rest).map Url.pairText) ≠ [] := by
      intro hempty
      rw [hempty] at hpieces
      simp [Text.pieces, Url.pairText] at hpieces
    unfold Url.appendQuery Url.queryParts
    generalize Text.join ['&'] ((pair :: rest).map Url.pairText) = added at hpieces hne
    cases url.query with
    | none => simp [hne, hpieces]
    | some query =>
      by_cases hempty : query.isEmpty = true
      · simp [hempty, hne, hpieces]
      · have hseparated : Text.pieces '&' (query.toList ++ '&' :: added) =
            Text.pieces '&' query.toList ++ (pair :: rest).map Url.pairText := by
          simp [hpieces]
        simp [hempty, hseparated]

end Query

namespace Client

variable {c : Client} {call : Call} {credentials : Security.Credentials} {request : Request}

/-- How a request carries credentials: its fields have their values, unless a later one is for the
same field, and its URL is that of the call with the pairs at the end of the query. -/
structure Carries (call : Call) (credentials : Security.Credentials) (request : Request) :
    Prop where
  headers : ∀ front name value back, credentials.headers = front ++ (name, value) :: back →
    (∀ e ∈ back, Fields.lowerName e.1 ≠ Fields.lowerName name) →
    request.fields.get? (Fields.lowerName name) = some value
  query : ∃ url, Url.parse call.url = .ok url ∧ { request.url with query := url.query } = url ∧
    request.url.queryParts = url.queryParts ++ credentials.query.map Url.pairText

theorem request_carries (h : c.request call credentials = .ok request) :
    Carries call credentials request := by
  obtain ⟨fields, hfields, h⟩ := Except.bind_eq_ok.1 h
  obtain ⟨base, -, hfields⟩ := Except.bind_eq_ok.1 hfields
  obtain ⟨declared, -, hfields⟩ := Except.bind_eq_ok.1 hfields
  split at h
  · cases h
  · next url hurl =>
    cases h
    refine ⟨fun front name value back hheaders hlast => ?_, url, hurl, ?_,
      url.queryParts_appendQuery _⟩
    · rw [hheaders] at hfields
      exact Fields.get?_setAll hfields hlast
    · cases credentials.query <;> rfl

theorem conclude_speaks (start : Duration) (outcome : Outcome) :
    Speaks c (c.conclude call request start outcome) fun _ turns => turns = [] := by
  cases outcome with
  | stopped => exact .throw rfl
  | late r => exact .throw rfl
  | noResponse => exact .lift rfl
  | response r =>
    unfold conclude
    dsimp only
    cases r.body with
    | none => exact .lift rfl
    | some bytes =>
      exact .quiet_bind quiet_now fun finish => .quiet_bind (quiet_sayAll _) fun _ => .pure rfl

theorem transmit_speaks (hrequest : c.request call credentials = .ok request) :
    Speaks c (c.transmit call request) fun _ turns =>
      ∃ outcome, turns = [⟨some call, request, outcome⟩] := by
  refine .quiet_bind quiet_now fun start => ?_
  refine .exchange_bind (some call) (fun _ => ⟨credentials, hrequest⟩) fun outcome => ?_
  exact (conclude_speaks start outcome).weaken fun _ _ hnone => ⟨outcome, by rw [hnone]⟩

/-- With a request at hand, it is sent unless the provider is stopped. -/
theorem dispatch_heard (hrequest : c.request call credentials = .ok request) (t : Timeline) :
    ∃ turns, Heard c t turns ((c.dispatch call request).run t).2 ∧
      ((t.stopped = true ∧ turns = []) ∨ ∃ outcome, turns = [⟨some call, request, outcome⟩]) := by
  have hsaid : Heard c t [] (t.say (c.requestEvents call request)) := .quiet rfl rfl
  cases hstopped : t.stopped with
  | true =>
    rw [dispatch_of_stopped request hstopped]
    exact ⟨[], hsaid, .inl ⟨rfl, rfl⟩⟩
  | false =>
    rw [dispatch_of_running request hstopped]
    obtain ⟨turns, hsent, houtcome⟩ :=
      transmit_speaks hrequest (t.say (c.requestEvents call request))
    exact ⟨turns, hsaid.trans hsent, .inr houtcome⟩

theorem prepare_speaks (c : Client) (call : Call) :
    Speaks c (c.prepare call) fun result turns => (∀ turn ∈ turns, turn.call? = none) ∧
      ∀ request, result = .ok request → ∃ choices credentials,
        Security.Selects c call.operation.security (.ok choices) ∧
        Security.Supplies choices turns (.ok credentials) ∧
        c.request call credentials = .ok request := by
  refine .bind (Security.authenticate_speaks_grants c call.operation.security)
    (fun credentials turns h => .lift ?_) fun e turns h => ⟨h.1, by simp⟩
  obtain ⟨hrefreshes, hgrants⟩ := h
  obtain ⟨choices, hselects, hsupplies⟩ := hgrants credentials rfl
  rw [List.append_nil]
  exact ⟨hrefreshes, fun request hrequest => ⟨choices, credentials, hselects, hsupplies, hrequest⟩⟩

/-- What comes of a call: nothing but tokens is asked for, because the provider is stopped by then
or no request comes about; or the request carries the credentials of the selected schemes. -/
inductive Sends (c : Client) (call : Call) (t : Timeline) : List Turn → Prop where
  | withheld {turns : List Turn} (refreshes : ∀ turn ∈ turns, turn.call? = none)
    (why : t.stopped = true ∨ (∃ e, ((c.prepare call).run t).1 = .error e) ∨
      ((c.prepare call).run t).2.stopped = true) : Sends c call t turns
  | sent {choices : List Security.Choice} {credentials : Security.Credentials}
    {before : List Turn} {request : Request} {outcome : Outcome}
    (selected : Security.Selects c call.operation.security (.ok choices))
    (supplies : Security.Supplies choices before (.ok credentials))
    (built : c.request call credentials = .ok request)
    (carries : Carries call credentials request) :
    Sends c call t (before ++ [⟨some call, request, outcome⟩])

theorem send_sends (c : Client) (call : Call) (t : Timeline) :
    ∃ turns, Heard c t turns ((c.send call).run t).2 ∧ Sends c call t turns := by
  cases hrunning : t.stopped with
  | true =>
    rw [send_of_stopped hrunning]
    exact ⟨[], .quiet rfl rfl, .withheld (by simp) (.inl hrunning)⟩
  | false =>
    obtain ⟨before, hheard, hrefreshes, hbuilt⟩ := prepare_speaks c call t
    rw [send_of_running hrunning, Run.run_bind]
    cases hprepare : (c.prepare call).run t with
    | mk result u =>
      rw [hprepare] at hheard hbuilt
      cases result with
      | error e =>
        exact ⟨before, hheard, .withheld hrefreshes (.inr (.inl ⟨e, by rw [hprepare]⟩))⟩
      | ok request =>
        obtain ⟨choices, credentials, hselects, hsupplies, hrequest⟩ := hbuilt request rfl
        obtain ⟨turns, hsent, ⟨hstopped, rfl⟩ | ⟨outcome, rfl⟩⟩ := dispatch_heard hrequest u
        · refine ⟨before ++ [], hheard.trans hsent, .withheld ?_ (.inr (.inr ?_))⟩
          · rwa [List.append_nil]
          · rwa [hprepare]
        · exact ⟨_, hheard.trans hsent,
            .sent hselects hsupplies hrequest (request_carries hrequest)⟩

/-- Authentication selects the first requirement that is satisfied, complains about the
configuration exactly where there is none but one is needed, and supplies what the schemes of the
selection ask for in their order. What a call sends carries these credentials. -/
theorem credential_precedence (c : Client) :
    (∀ requirements,
      Speaks c (Security.authenticate c.schemes c.config.security requirements)
        fun result turns =>
          ((∃ fault, result = .error (.runtimeConfig fault)) ↔
            requirements ≠ [] ∧
              ∀ r ∈ requirements, ∀ choices, ¬ Security.Satisfies c r choices) ∧
          ∃ selected, Security.Selects c requirements selected ∧
            match selected with
            | .ok choices => Security.Supplies choices turns result
            | .error e => turns = [] ∧ result = .error e) ∧
    ∀ call t, ∃ turns, Heard c t turns ((c.send call).run t).2 ∧ Sends c call t turns := by
  refine ⟨fun requirements => ?_, c.send_sends⟩
  have hselects := Security.select_selects c requirements
  refine (Security.authenticate_supplies c requirements).weaken fun result turns h => ?_
  refine ⟨?_, _, hselects, h⟩
  rw [← hselects.error_iff]
  cases hselect : Security.select c.schemes c.config.security requirements with
  | error e =>
    rw [hselect] at h
    obtain ⟨-, rfl⟩ := h
    simp
  | ok choices =>
    rw [hselect] at h
    simp only [reduceCtorEq, exists_false, iff_false]
    rintro ⟨fault, hfault⟩
    exact h.ofExchange _ hfault

def overlaidClient : Client := { loginClient "a" with
  schemes := ⟨[("key", ⟨"key", .keyHeader "user-agent"⟩), ("token", ⟨"token", .keyQuery "token"⟩),
    ("login", ⟨"login", .refreshToken "Authorization" "http://api.example.com/token"⟩)], []⟩
  config := { Configuration.empty with
    security := [("key", "k"), ("login", "a"), ("token", "t")]
    headers := [("authorization", "declared")] } }

def overlaidCall : Call := { loginCall "p" with
  operation := { Operation.empty with
    headers := [⟨"Authorization", none, true⟩]
    security := [[⟨"oauth", []⟩], [⟨"login", []⟩, ⟨"token", []⟩, ⟨"key", []⟩], []] } }

theorem credential_precedence_overlaid :
    (∃ turns, Heard overlaidClient (.ofReplies (loginReplies "b")) turns
        ((overlaidClient.send overlaidCall).run (.ofReplies (loginReplies "b"))).2 ∧
      Sends overlaidClient overlaidCall (.ofReplies (loginReplies "b")) turns) ∧
    ((overlaidClient.send overlaidCall).run (.ofReplies (loginReplies "b"))).2.sent.map
      (fun request => request.url.query) = [none, some "all&token=t"] :=
  ⟨(credential_precedence overlaidClient).2 overlaidCall _, by decide +kernel⟩

end Client

end SwaggerProvider
