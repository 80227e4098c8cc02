import SwaggerProvider.Client
import SwaggerProvider.Proofs.Analysis.Accounting
import SwaggerProvider.Proofs.Analysis.Operations
import SwaggerProvider.Proofs.Config.Credentials
import SwaggerProvider.Proofs.Config.Endpoints

/-!
Headers on their way from the document to a request. Those of an operation are collected for the
requests, those of all operations for the configuration, and in both the first of a name is kept. So
every header that an operation asks for has a name under which the host can give its value.
-/

set_option autoImplicit false

namespace SwaggerProvider

open Swagger (Document)

namespace Header

/-- The headers among parameters, in the order of the parameters. -/
def declared (parameters : List Swagger.Parameter) : List Header :=
  parameters.filterMap ofParameter?

def first? (headers : List Header) (name : String) : Option Header :=
  headers.find? fun h => h.configName == name

/-- Of the headers with one configuration name the first one is kept. -/
structure FirstOfEach (all kept : List Header) : Prop where
  names : (kept.map configName).Nodup
  mem_iff : ∀ h, h ∈ kept ↔ first? all h.configName = some h

variable {all kept : List Header}

theorem configName_of_first? {name : String} {h : Header} (hfirst : first? all name = some h) :
    h.configName = name := by
  simpa using List.find?_some hfirst

theorem first?_concat (all : List Header) (new : Header) (name : String) :
    first? (all ++ [new]) name =
      (first? all name).or (if new.configName = name then some new else none) := by
  unfold first?
  rw [List.find?_append]
  by_cases h : new.configName = name <;> simp [h]

theorem FirstOfEach.addNew (h : FirstOfEach all kept) (new : Header) :
    FirstOfEach (all ++ [new]) (addNew kept new) := by
  unfold Header.addNew
  split
  · next hknown =>
    obtain ⟨other, hother, hname⟩ := List.any_eq_true.1 hknown
    have hfirst := (h.mem_iff other).1 hother
    rw [beq_iff_eq.1 hname] at hfirst
    refine ⟨h.names, fun x => ?_⟩
    rw [h.mem_iff, first?_concat]
    by_cases hx : new.configName = x.configName
    · rw [← hx, hfirst]
      rfl
    · rw [if_neg hx, Option.or_none]
  · next hunknown =>
    have hnone : first? all new.configName = none := by
      refine Option.eq_none_iff_forall_ne_some.2 fun other hother => hunknown ?_
      have hname := configName_of_first? hother
      rw [← hname, ← h.mem_iff] at hother
      exact List.any_eq_true.2 ⟨other, hother, beq_iff_eq.2 hname⟩
    refine ⟨Analysis.nodup_append_of_new configName h.names hunknown, fun x => ?_⟩
    rw [List.mem_append, List.mem_singleton, h.mem_iff, first?_concat]
    by_cases hx : new.configName = x.configName
    · rw [← hx, hnone, if_pos rfl]
      simp [eq_comm]
    · rw [if_neg hx, Option.or_none]
      refine ⟨fun hmem => hmem.resolve_right ?_, .inl⟩
      rintro rfl
      exact hx rfl

theorem FirstOfEach.addAll (h : FirstOfEach all kept) (more : List Header) :
    FirstOfEach (all ++ more) (more.foldl Header.addNew kept) := by
  induction more generalizing all kept with
  | nil => rwa [List.append_nil]
  | cons new rest ih =>
    rw [List.append_cons]
    exact ih (h.addNew new)

theorem firstOfEach_distinct (all : List Header) : FirstOfEach all (distinct all) := by
  have hnone : FirstOfEach [] [] := ⟨.nil, fun h => by simp [first?]⟩
  exact hnone.addAll all

theorem FirstOfEach.mem_names_iff (h : FirstOfEach all kept) (name : String) :
    name ∈ kept.map configName ↔ name ∈ all.map configName := by
  constructor
  · intro hname
    obtain ⟨x, hx, rfl⟩ := List.mem_map.1 hname
    exact List.mem_map_of_mem (List.mem_of_find?_eq_some ((h.mem_iff x).1 hx))
  · intro hname
    obtain ⟨x, hx, rfl⟩ := List.mem_map.1 hname
    have hsome : (first? all x.configName).isSome = true :=
      List.find?_isSome.2 ⟨x, hx, beq_self_eq_true _⟩
    obtain ⟨y, hy⟩ := Option.isSome_iff_exists.1 hsome
    have hyx := configName_of_first? hy
    rw [← hyx, ← h.mem_iff] at hy
    exact hyx ▸ List.mem_map_of_mem hy

def everywhere (document : Document) : List Header :=
  document.paths.values.flatMap fun item =>
    item.operations.flatMap fun op => ofParameters (item.parameters ++ op.parameters)

theorem mem_ofDocument_names {document : Document} {path : String} {item : Swagger.PathItem}
    {op : Swagger.Operation} {h : Header} (hitem : (path, item) ∈ document.paths)
    (hop : op ∈ item.operations) (hh : h ∈ ofParameters (item.parameters ++ op.parameters)) :
    h.configName ∈ (ofDocument document).map configName := by
  have hall : FirstOfEach (everywhere document) (ofDocument document) := firstOfEach_distinct _
  rw [hall.mem_names_iff]
  refine List.mem_map_of_mem (List.mem_flatMap.2 ⟨item, ?_, List.mem_flatMap.2 ⟨op, hop, hh⟩⟩)
  exact List.mem_map_of_mem (f := Prod.snd) hitem

/-- Enters a header of a call with the value that the host has given for it. -/
def enter (values : Members) (call : Call) (fields : Http.Fields) (h : Header) :
    Except Error Http.Fields :=
  match Configuration.value? values h.configName with
  | some value => fields.set h.name value
  | none =>
    if h.required then
      .error (.runtimeConfig (.requiredHeader h.name call.method.text call.url h.configName))
    else .ok fields

end Header

namespace Configuration

variable {values : Members} {a : Analysis} {c : Configuration}

theorem value?_eq_some_iff {key text : String} :
    value? values key = some text ↔ values.get? key = some (.string text) ∧ text ≠ "" := by
  unfold value?
  rw [Option.filter_eq_some_iff, Option.bind_eq_some_iff]
  constructor
  · rintro ⟨⟨j, hj, htext⟩, hne⟩
    cases j <;> simp_all [Json.string?]
  · rintro ⟨hj, hne⟩
    exact ⟨⟨_, hj, rfl⟩, by simpa using hne⟩

theorem mem_readHeaders {headers : List Header} {key value : String} :
    (key, value) ∈ readHeaders values headers ↔
      key ∈ headers.map Header.configName ∧ value? values key = some value := by
  unfold readHeaders
  simp only [List.mem_filterMap, List.mem_map, Option.map_eq_some_iff, Prod.mk.injEq]
  constructor
  · rintro ⟨h, hh, given, hgiven, rfl, rfl⟩
    exact ⟨⟨h, hh, rfl⟩, hgiven⟩
  · rintro ⟨⟨h, hh, rfl⟩, hgiven⟩
    exact ⟨h, hh, value, hgiven, rfl, rfl⟩

theorem get?_headers (h : ofValues values a = .ok c) {name : String}
    (hname : name ∈ a.headers.map Header.configName) :
    c.headers.get? name = value? values name := by
  obtain ⟨-, -, -, -, -, -, hheaders, -⟩ := ofValues_eq_ok h
  rw [hheaders]
  refine Table.get?_sorted_eq fun found => ?_
  rw [mem_readHeaders, and_iff_right hname]

end Configuration

theorem Client.setDeclared_eq {values : Members} (client : Client) (call : Call)
    {headers : List Header}
    (h : ∀ header ∈ headers, client.config.headers.get? header.configName =
      Configuration.value? values header.configName) (fields : Http.Fields) :
    client.setDeclared call fields headers = headers.foldlM (Header.enter values call) fields := by
  induction headers generalizing fields with
  | nil => rfl
  | cons header rest ih =>
    have hrest := ih fun other hother => h other (List.mem_cons_of_mem _ hother)
    rw [List.foldlM_cons, Client.setDeclared, Header.enter, h header List.mem_cons_self]
    cases Configuration.value? values header.configName with
    | some value => exact congrArg _ (funext hrest)
    | none =>
      cases header.required with
      | true => rfl
      | false => exact hrest fields

namespace Analysis

/-- The operation of a route asks for the headers that its path and the method declare, those of the
path first. -/
def AsksDeclared (document : Document) (route : Route) : Prop :=
  ∃ item source, (route.path, item) ∈ document.paths ∧
    item.operation? route.method = some source ∧
    Header.FirstOfEach (Header.declared (item.parameters ++ source.parameters))
      route.operation.headers

/-- The host can give a value for every header that an operation asks for, and the value is sent. -/
structure HeadersConfigurable (document : Document) (a : Analysis) : Prop where
  names : (a.headers.map Header.configName).Nodup
  declared : ∀ route ∈ a.routes, AsksDeclared document route
  published : ∀ route ∈ a.routes, ∀ h ∈ route.operation.headers,
    ∃ shown, a.configBlock.attribute? h.configName = some shown
  found : ∀ values c, Configuration.ofValues values a = .ok c →
    ∀ route ∈ a.routes, ∀ h ∈ route.operation.headers, ∀ text,
      c.headers.get? h.configName = some text ↔
        values.get? h.configName = some (.string text) ∧ text ≠ ""
  entered : ∀ values (client : Client), Configuration.ofValues values a = .ok client.config →
    ∀ route ∈ a.routes, ∀ call credentials, call.operation = route.operation →
      client.fields call credentials = (client.baseFields call.body.isSome).bind fun fields =>
        (call.operation.headers.foldlM (Header.enter values call) fields).bind fun fields =>
          fields.setAll credentials.headers

theorem mem_headers_names {document : Document} {url : String} {a : Analysis}
    (h : analyse document url = .ok a) {route : Route} (hroute : route ∈ a.routes) {header : Header}
    (hheader : header ∈ route.operation.headers) :
    header.configName ∈ a.headers.map Header.configName := by
  obtain ⟨backend, -, hbasis⟩ := sameBasis_of_analyse h
  obtain ⟨item, source, hitem, hsource, hop⟩ := compiled_of_mem_routes h hroute
  rw [(Operation.compile_eq_ok hop).1] at hheader
  rw [hbasis.headers]
  exact Header.mem_ofDocument_names hitem (Swagger.PathItem.mem_operations hsource) hheader

theorem exists_attribute_of_header {a : Analysis} {name : String}
    (h : name ∈ a.headers.map Header.configName) :
    ∃ shown, a.configBlock.attribute? name = some shown := by
  have hsome : (a.header? name).isSome = true := by
    obtain ⟨header, hheader, rfl⟩ := List.mem_map.1 h
    exact List.find?_isSome.2 ⟨header, List.mem_reverse.2 hheader, beq_self_eq_true _⟩
  obtain ⟨header, hheader⟩ := Option.isSome_iff_exists.1 hsome
  rw [configBlock_attribute?, hheader]
  cases (regionEntry a.backend).get? name with
  | some region => exact ⟨region, rfl⟩
  | none => exact ⟨headerAttribute header, rfl⟩

/-- Every header that an operation of the analysis declares can be configured. -/
theorem declared_headers_configurable {document : Document} {url : String} {a : Analysis}
    (h : analyse document url = .ok a) : HeadersConfigurable document a := by
  have hgiven {values : Members} {c : Configuration} (hc : Configuration.ofValues values a = .ok c)
      {route : Route} (hroute : route ∈ a.routes) :
      ∀ header ∈ route.operation.headers, c.headers.get? header.configName =
        Configuration.value? values header.configName :=
    fun header hheader => Configuration.get?_headers hc (mem_headers_names h hroute hheader)
  constructor
  case names =>
    obtain ⟨backend, -, hbasis⟩ := sameBasis_of_analyse h
    rw [hbasis.headers]
    exact (Header.firstOfEach_distinct _).names
  case declared =>
    intro route hroute
    obtain ⟨item, source, hitem, hsource, hop⟩ := compiled_of_mem_routes h hroute
    refine ⟨item, source, hitem, hsource, ?_⟩
    rw [(Operation.compile_eq_ok hop).1]
    exact Header.firstOfEach_distinct _
  case published =>
    intro route hroute header hheader
    exact exists_attribute_of_header (mem_headers_names h hroute hheader)
  case found =>
    intro values c hc route hroute header hheader text
    rw [hgiven hc hroute header hheader, Configuration.value?_eq_some_iff]
  case entered =>
    intro values client hc route hroute call credentials hop
    have hentered := client.setDeclared_eq call (hgiven hc hroute)
    rw [← hop] at hentered
    exact congrArg _ (funext fun fields => congrArg (Except.bind · _) (hentered fields))

def tracedDocument : Document := { Document.empty with
  host := some "api.example.com"
  schemes := ["https"]
  paths := [
    ("/v1/cdns", { wallItem (some { wallPost with
        parameters := wallPost.parameters ++ [
          ⟨"x_trace_id", "header", true, none, []⟩,
          ⟨"X-Tenant", "header", true, none, [(Header.nameKey, .string "tenantName")]⟩] }) none with
      parameters := [⟨"X-Trace-ID", "header", false, none, []⟩] }),
    ("/v1/cdns/{id}", { wallItem none (some wallGet) with
      parameters := [⟨"X-Trace-Id", "header", false, none, []⟩,
        ⟨"id", "path", true, none, []⟩] })] }

def tracedValues : Members := [("tenant_name", .string "acme"), ("x_trace_id", .string "")]

theorem declared_headers_configurable_trace :
    ∃ a c route tenant, analyse tracedDocument "" = .ok a ∧
      Configuration.ofValues tracedValues a = .ok c ∧ route ∈ a.routes ∧ route.method = .post ∧
      route.operation.headers = [⟨"X-Trace-ID", none, false⟩, tenant] ∧
      HeadersConfigurable tracedDocument a ∧ c.headers.get? tenant.configName = some "acme" := by
  have hseen : (analyse tracedDocument "").toOption.map (fun a =>
      (a.routes.map fun route => (route.method, route.operation.headers),
        (Configuration.ofValues tracedValues a).toOption.map fun _ => ())) =
      some ([(.post, [⟨"X-Trace-ID", none, false⟩, ⟨"X-Tenant", some "tenantName", true⟩]),
        (.get, [⟨"X-Trace-Id", none, false⟩])], some ()) := by decide +kernel
  obtain ⟨a, h, hview⟩ := Except.toOption_map_eq_some.1 hseen
  obtain ⟨hroutes, hok⟩ := Prod.mk.inj hview
  obtain ⟨c, hc, -⟩ := Except.toOption_map_eq_some.1 hok
  obtain ⟨route, hroute, hview⟩ := List.mem_map.1 (hroutes ▸ List.mem_cons_self)
  obtain ⟨hmethod, hheaders⟩ := Prod.mk.inj hview
  have hall := declared_headers_configurable h
  refine ⟨a, c, route, _, h, hc, hroute, hmethod, hheaders, hall, ?_⟩
  refine (hall.found _ c hc route hroute _ (by rw [hheaders]; simp) "acme").2 ⟨?_, by decide⟩
  decide +kernel

end Analysis

end SwaggerProvider
