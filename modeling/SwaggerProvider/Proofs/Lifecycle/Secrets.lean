import SwaggerProvider.Proofs.Lifecycle.Runs
import SwaggerProvider.Proofs.Lifecycle.Turns
import SwaggerProvider.Proofs.Log.Redaction
import SwaggerProvider.Proofs.Payload.Masking

/-!
What the log says of a request does not depend on secrets. Two runs whose clients differ only in the
values that are configured for credentials and headers, and whose bodies differ only in secrets, say
the same until their requests go out.
-/

set_option autoImplicit false

namespace SwaggerProvider

open Http (Outcome Request Run Timeline)
open Security (Choice Credentials)

/-- A value that a header field can hold and that the log shows as present. -/
structure Presentable (value : String) : Prop where
  nonempty : value ≠ ""
  valid : Http.Fields.isValue value = true

/-- Two tables with values for the same names, all of them presentable. -/
def Table.Veiled (t u : Table String) : Prop :=
  ∀ key, Option.Rel (fun v w => Presentable v ∧ Presentable w) (t.get? key) (u.get? key)

/-- Clients that differ in nothing but the values for credentials and headers. -/
structure Client.Alike (c d : Client) : Prop where
  backend : c.backend = d.backend
  schemes : c.schemes = d.schemes
  settings : c.settings = d.settings
  endpoints : c.config.endpoints = d.config.endpoints
  region : c.config.region = d.config.region
  security : c.config.security.Veiled d.config.security
  headers : c.config.headers.Veiled d.config.headers

/-- Calls that differ in nothing but the secrets of their bodies. -/
structure Call.Alike (call other : Call) : Prop where
  resource : call.resource = other.resource
  method : call.method = other.method
  url : call.url = other.url
  operation : call.operation = other.operation
  record : call.record = other.record
  body : Option.Rel (Payload.Alike call.record) call.body other.body

section Select

variable {schemes : Security.Schemes} {values others : Table String}

/-- The same definition, with a presentable value in both. -/
structure Security.Choice.Alike (choice other : Choice) : Prop where
  definition : choice.1 = other.1
  value : Presentable choice.2
  otherValue : Presentable other.2

theorem choose?_alike (h : values.Veiled others) (s : Security.SchemeUse) :
    Option.Rel Choice.Alike (Security.choose? schemes values s)
      (Security.choose? schemes others s) := by
  unfold Security.choose?
  cases schemes.definitions.get? s.name with
  | none => exact .none
  | some d => exact (h d.configName).bind fun v w hvalue => .some ⟨rfl, hvalue.1, hvalue.2⟩

theorem select_alike (h : values.Veiled others) (requirements : List Security.Requirement) :
    Except.Both (List.Forall₂ Choice.Alike) (Security.select schemes values requirements)
      (Security.select schemes others requirements) := by
  have hfound : Option.Rel (List.Forall₂ Choice.Alike)
      (requirements.findSome? (Security.satisfy? schemes values))
      (requirements.findSome? (Security.satisfy? schemes others)) :=
    .findSome? (fun r => .mapM (choose?_alike h) r) requirements
  unfold Security.select
  split
  · exact .ok .nil
  · generalize requirements.findSome? (Security.satisfy? schemes values) = x,
      requirements.findSome? (Security.satisfy? schemes others) = y at hfound
    cases hfound with
    | some hchoices => exact .ok hchoices
    | none => exact .error _ _

end Select

section Fields

open Http (Fields)

/-- Values that are of equal use for a header field and that the log shows alike. -/
structure ShownAlike (value other : String) : Prop where
  valid : Fields.isValue value = Fields.isValue other
  mark : Log.headerMark value = Log.headerMark other

theorem ShownAlike.refl (value : String) : ShownAlike value value := ⟨rfl, rfl⟩

theorem Presentable.mark {value : String} (h : Presentable value) :
    Log.headerMark value = "<present>" := by
  rw [Log.headerMark, if_neg]
  simpa using h.nonempty

theorem ShownAlike.of_presentable {value other : String} (h : Presentable value)
    (hother : Presentable other) : ShownAlike value other where
  valid := h.valid.trans hother.valid.symm
  mark := h.mark.trans hother.mark.symm

/-- Fields of the same names, with values that are shown alike. -/
abbrev FieldsAlike (fields others : List (String × String)) : Prop :=
  List.Forall₂ (fun e f => e.1 = f.1 ∧ ShownAlike e.2 f.2) fields others

theorem insert_alike {fields others : Fields} (h : FieldsAlike fields others) (name : String)
    {value other : String} (hvalue : ShownAlike value other) :
    FieldsAlike (fields.insert name value) (others.insert name other) := by
  induction h with
  | nil => exact .cons ⟨rfl, hvalue⟩ .nil
  | @cons e f fields others hfirst hrest ih =>
    obtain ⟨key, first⟩ := e
    obtain ⟨_, second⟩ := f
    obtain ⟨rfl, hshown⟩ := hfirst
    rw [Table.insert, Table.insert]
    split
    · exact .cons ⟨rfl, hvalue⟩ hrest
    · exact .cons ⟨rfl, hshown⟩ ih

theorem set_alike {fields others : Fields} (h : FieldsAlike fields others) (name : String)
    {value other : String} (hvalue : ShownAlike value other) :
    Except.Both FieldsAlike (fields.set name value) (others.set name other) := by
  unfold Fields.set
  rw [hvalue.valid]
  split
  · exact .error _ _
  · split
    · exact .error _ _
    · exact .ok (insert_alike h _ hvalue)

theorem setAll_alike {fields others : Fields} (h : FieldsAlike fields others)
    {entries more : List (String × String)} (hentries : FieldsAlike entries more) :
    Except.Both FieldsAlike (fields.setAll entries) (others.setAll more) := by
  induction hentries generalizing fields others with
  | nil => exact .ok h
  | @cons e f entries more hfirst _ ih =>
    obtain ⟨name, value⟩ := e
    obtain ⟨_, other⟩ := f
    obtain ⟨rfl, hshown⟩ := hfirst
    exact (set_alike h name hshown).bind fun _ _ hset => ih hset

end Fields

section Request

variable {c d : Client} {call other : Call}

/-- Credentials for the same header fields and query parameters. -/
structure Security.Credentials.Alike (credentials others : Credentials) : Prop where
  headers : FieldsAlike credentials.headers others.headers
  query : Log.SameNames credentials.query others.query

theorem setDeclared_alike (hclients : c.Alike d) {fields others : Http.Fields}
    (h : FieldsAlike fields others) (headers : List Header) :
    Except.Both FieldsAlike (c.setDeclared call fields headers)
      (d.setDeclared other others headers) := by
  induction headers generalizing fields others with
  | nil => exact .ok h
  | cons first rest ih =>
    have hvalue := hclients.headers first.configName
    unfold Client.setDeclared
    generalize c.config.headers.get? first.configName = x,
      d.config.headers.get? first.configName = y at hvalue
    cases hvalue with
    | some hboth =>
      exact (set_alike h first.name (.of_presentable hboth.1 hboth.2)).bind fun _ _ hset => ih hset
    | none =>
      dsimp only
      split
      · exact .error _ _
      · exact ih h

theorem fields_alike (hclients : c.Alike d) (hcalls : call.Alike other)
    {credentials others : Credentials} (h : credentials.Alike others) :
    Except.Both FieldsAlike (c.fields call credentials) (d.fields other others) := by
  have hbase : Except.Both FieldsAlike (c.baseFields call.body.isSome)
      (d.baseFields other.body.isSome) := by
    unfold Client.baseFields
    rw [hcalls.body.isSome_eq, hclients.settings]
    refine (set_alike .nil _ (.refl _)).bind fun _ _ hagent =>
      (set_alike hagent _ (.refl _)).bind fun _ _ haccept => ?_
    split
    · exact set_alike haccept _ (.refl _)
    · exact .ok haccept
  unfold Client.fields
  rw [hcalls.operation]
  exact hbase.bind fun _ _ hbase =>
    (setDeclared_alike hclients hbase _).bind fun _ _ hset => setAll_alike hset h.headers

structure RequestsAlike (request sent : Request) : Prop where
  method : request.method = sent.method
  url : Log.redactQuery request.url.text = Log.redactQuery sent.url.text
  fields : FieldsAlike request.fields sent.fields

theorem request_alike (hclients : c.Alike d) (hcalls : call.Alike other)
    {credentials others : Credentials} (h : credentials.Alike others) :
    Except.Both RequestsAlike (c.request call credentials) (d.request other others) := by
  unfold Client.request
  refine (fields_alike hclients hcalls h).bind fun fields more hfields => ?_
  rw [hcalls.url]
  cases Url.parse other.url with
  | error fault => exact .error _ _
  | ok url => exact .ok ⟨hcalls.method, Log.redactQuery_appendQuery url h.query, hfields⟩

theorem requestEvents_eq (hclients : c.Alike d) (hcalls : call.Alike other)
    {request sent : Request} (h : RequestsAlike request sent) :
    c.requestEvents call request = d.requestEvents other sent := by
  have hfields (shown : String → String → Log.Event) :
      request.fields.map (fun e => shown e.1 (Log.headerMark e.2)) =
        sent.fields.map fun e => shown e.1 (Log.headerMark e.2) := by
    have hboth := h.fields
    generalize request.fields = fields, sent.fields = others at hboth
    induction hboth with
    | nil => rfl
    | cons hfirst _ ih => rw [List.map_cons, List.map_cons, ih, hfirst.1, hfirst.2.mark]
  have hbody := hcalls.body
  unfold Client.requestEvents
  rw [h.method, h.url, hfields fun name mark => ⟨.debug, s!"  {name}: {mark}"⟩]
  congr 1
  generalize call.body = x, other.body = y at hbody
  cases hbody with
  | none => rfl
  | some halike =>
    dsimp only
    rw [Payload.mask_eq_of_alike halike, hcalls.record, Client.bodyEvent, Client.bodyEvent,
      hclients.settings]

end Request

end SwaggerProvider
