import SwaggerProvider.Proofs.Swagger.Members

/-!
The kinds of nodes. Each kind knows its names and keeps all other members in its extensions, and a
node of each kind that was read is read again when it is written.
-/

set_option autoImplicit false

namespace SwaggerProvider.Swagger

open Decode

variable {name : String} {value : Json} {members : Members}

namespace Schema

def names : List String :=
  ["$ref", "type", "description", "properties", "items", "required", "readOnly", "default"]

/-- The members that hold further schemas, and all others. -/
def member (name : String) (value : Json) (schema : Schema) : Option Schema :=
  match name with
  | "properties" => (table? decode value).map fun v => { schema with properties := v }
  | "items" => (Decode.optional decode value).map fun v => { schema with items := v }
  | _ => schema.leafMember name value

theorem decodeProperties_eq (members : Members) :
    decodeProperties members = entries decode members := by
  induction members with
  | nil => rfl
  | cons e rest ih =>
    rw [decodeProperties, entries, ih]
    cases decode e.2 <;> cases entries decode rest <;> rfl

theorem decodeMembers_eq (members : Members) :
    decodeMembers members = node? member empty (.object members) := by
  induction members with
  | nil => rfl
  | cons e rest ih =>
    obtain ⟨name, value⟩ := e
    have hcons : node? member empty (.object ((name, value) :: rest)) =
        (node? member empty (.object rest)).bind (member name value) := rfl
    rw [hcons, decodeMembers_cons, ih]
    cases node? member empty (.object rest) with
    | none => rfl
    | some schema =>
      simp only [Option.bind_some]
      split
      case isTrue hname =>
        subst hname
        cases value with
        | object inner => simp only [decodeProperties_eq, member, table?]
        | _ => rfl
      case isFalse hproperties =>
        split
        case isTrue hname =>
          subst hname
          cases value <;> simp [member, Decode.optional, Function.comp_def]
        case isFalse hitems => grind [member]

theorem decode_eq : decode = node? member empty := by
  funext value
  cases value with
  | object members => rw [decode, decodeMembers_eq]
  | _ => rfl

theorem encodeProperties_eq (properties : List (String × Schema)) :
    encodeProperties properties = properties.map fun e => (e.1, e.2.encode) := by
  induction properties with
  | nil => rfl
  | cons e rest ih => rw [encodeProperties, ih, List.map_cons]

def written (schema : Schema) : Members :=
  Encode.optional "$ref" .string schema.reference ++ Encode.optional "type" .string schema.type ++
    Encode.optional "description" .string schema.description ++
    (if schema.properties.isEmpty then []
      else [("properties", Encode.table encode schema.properties)]) ++
    Encode.optional "items" encode schema.items ++
    (if schema.required.isEmpty then [] else [("required", Encode.texts schema.required)]) ++
    (if schema.readOnly then [("readOnly", .bool true)] else []) ++
    Encode.optional "default" id schema.default ++ schema.extensions

theorem encode_eq (schema : Schema) : schema.encode = .object schema.written := by
  obtain ⟨reference, type, description, properties, items, required, readOnly, default, ext⟩ :=
    schema
  cases properties with
  | nil => cases items <;> rfl
  | cons e rest =>
    rw [written, Encode.table, ← encodeProperties_eq]
    cases items <;> rfl

theorem member_of_not_named (h : name ∉ names) (schema : Schema) :
    member name value schema =
      some { schema with extensions := (name, value) :: schema.extensions } := by
  unfold member leafMember
  split <;> try split
  all_goals simp_all [names]

theorem member_frame {m n : Schema} (h : member name value m = some n) :
    (name ≠ "properties" → n.properties = m.properties) ∧ (name ≠ "items" → n.items = m.items) ∧
      (name ≠ "default" → n.default = m.default) ∧
      (name ∈ names → n.extensions = m.extensions) := by
  simp only [names, List.mem_cons, List.not_mem_nil, or_false]
  unfold member leafMember at h
  split at h <;> try split at h
  all_goals grind [Option.map_eq_some_iff]

theorem keeps : Keeps member names extensions where
  named h := (member_frame h).2.2.2
  unnamed h := ⟨_, member_of_not_named h _, rfl⟩

theorem propertiesField : Field member "properties" (table? decode) properties where
  read h := by grind [member, Option.map_eq_some_iff]
  other h := (member_frame h).1

theorem itemsField : Field member "items" (Decode.optional decode) items where
  read h := by grind [member, Option.map_eq_some_iff]
  other h := (member_frame h).2.1

theorem defaultField : Field member "default" (Decode.optional any?) default where
  read h := by grind [member, leafMember, Option.map_eq_some_iff]
  other h := (member_frame h).2.2.1

theorem encode_ne_null (schema : Schema) : schema.encode ≠ .null := by
  rw [encode_eq]
  exact Json.noConfusion

theorem default_ne_null {schema : Schema} (h : decode value = some schema) :
    schema.default ≠ some .null := by
  intro hnull
  rw [decode_eq] at h
  obtain ⟨members, rfl⟩ := node?_eq_some h
  have hread := defaultField.eq rfl h
  rw [hnull] at hread
  cases hd : Table.get? members "default" with
  | none =>
    rw [hd] at hread
    cases hread
  | some value =>
    rw [hd] at hread
    obtain ⟨hne, hvalue⟩ := optional_eq_some hread
    exact hne (Option.some.inj hvalue)

theorem fills_written (schema : Schema) (hunknown : ∀ e ∈ schema.extensions, e.1 ∉ names)
    (hread : table? decode (Encode.table encode schema.properties) = some schema.properties)
    (hagain : ∀ items, schema.items = some items →
      Decode.optional decode items.encode = some (some items))
    (hnull : schema.default ≠ some .null) : Fills member schema.written empty schema := by
  obtain ⟨reference, type, description, properties, items, required, readOnly, default, ext⟩ :=
    schema
  have hextensions : Fills member ext empty { empty with extensions := ext } :=
    .all (fun ext => { empty with extensions := ext }) rfl rfl fun e he _ =>
      member_of_not_named (hunknown e he) _
  have hdefault : Fills member (Encode.optional "default" id default)
      { empty with extensions := ext } { empty with default, extensions := ext } := by
    cases default with
    | none => rfl
    | some v =>
      have hv : v ≠ .null := fun hv => hnull (congrArg some hv)
      have hvalue : Decode.optional any? v = some (some v) := optional_of_ne_null hv
      exact .one (by simp [member, leafMember, hvalue])
  have hreadOnly : Fills member (if readOnly then [("readOnly", .bool true)] else [])
      { empty with default, extensions := ext }
      { empty with readOnly, default, extensions := ext } := by
    cases readOnly <;> rfl
  have hrequired : Fills member
      (if required.isEmpty then [] else [("required", Encode.texts required)])
      { empty with readOnly, default, extensions := ext }
      { empty with required, readOnly, default, extensions := ext } := by
    have htexts : required? (Encode.texts required) = some required := read_texts required
    cases required with
    | nil => rfl
    | cons name rest => exact .one (by simp [member, leafMember, htexts])
  have hitems : Fills member (Encode.optional "items" encode items)
      { empty with required, readOnly, default, extensions := ext }
      { empty with items, required, readOnly, default, extensions := ext } := by
    cases items with
    | none => rfl
    | some items => exact .one (by simp [member, hagain items rfl])
  have hproperties : Fills member
      (if properties.isEmpty then [] else [("properties", Encode.table encode properties)])
      { empty with items, required, readOnly, default, extensions := ext }
      { empty with properties, items, required, readOnly, default, extensions := ext } := by
    cases properties with
    | nil => rfl
    | cons e rest => exact .one (by simp [member, hread])
  have hdescription : Fills member (Encode.optional "description" .string description)
      { empty with properties, items, required, readOnly, default, extensions := ext }
      { empty with
        description, properties, items, required, readOnly, default, extensions := ext } := by
    cases description <;> rfl
  have htype : Fills member (Encode.optional "type" .string type)
      { empty with
        description, properties, items, required, readOnly, default, extensions := ext }
      { empty with
        type, description, properties, items, required, readOnly, default, extensions := ext } := by
    cases type <;> rfl
  have hreference : Fills member (Encode.optional "$ref" .string reference)
      { empty with
        type, description, properties, items, required, readOnly, default, extensions := ext }
      ⟨reference, type, description, properties, items, required, readOnly, default, ext⟩ := by
    cases reference <;> rfl
  exact (((((((hreference.append htype).append hdescription).append hproperties).append
    hitems).append hrequired).append hreadOnly).append hdefault).append hextensions

theorem lossless : Lossless decode encode := by
  intro value schema h
  induction schema using Schema.induction generalizing value with
  | step schema hproperties hitems =>
    have hnull := default_ne_null h
    rw [decode_eq] at h ⊢
    obtain ⟨members, rfl⟩ := node?_eq_some h
    have hread := propertiesField.read_table rfl h fun e he => hproperties e he
    have hagain := itemsField.read_optional rfl h encode_ne_null fun items he => hitems items he
    rw [encode_eq]
    exact (fills_written schema (keeps.not_mem rfl h) hread hagain hnull).node?

end Schema

namespace Parameter

def names : List String := ["name", "in", "required", "schema"]

theorem member_of_not_named (h : name ∉ names) (p : Parameter) :
    member name value p = some { p with extensions := (name, value) :: p.extensions } := by
  unfold member
  split <;> simp_all [names]

theorem member_frame {m n : Parameter} (h : member name value m = some n) :
    (name ≠ "schema" → n.schema = m.schema) ∧ (name ∈ names → n.extensions = m.extensions) := by
  simp only [names, List.mem_cons, List.not_mem_nil, or_false]
  unfold member at h
  split at h <;> grind [Option.map_eq_some_iff]

theorem keeps : Keeps member names extensions where
  named h := (member_frame h).2
  unnamed h := ⟨_, member_of_not_named h _, rfl⟩

theorem schemaField : Field member "schema" (Decode.optional Schema.decode) schema where
  read h := by grind [member, Option.map_eq_some_iff]
  other h := (member_frame h).1

theorem lossless : Lossless decode encode := by
  intro value p h
  obtain ⟨members, rfl⟩ := node?_eq_some h
  have hs := schemaField.read_optional rfl h Schema.encode_ne_null fun _ _ => Schema.lossless
  have hunknown := keeps.not_mem rfl h
  clear h
  obtain ⟨name, location, required, schema, ext⟩ := p
  have hextensions : Fills member ext empty { empty with extensions := ext } :=
    .all (fun ext => { empty with extensions := ext }) rfl rfl fun e he _ =>
      member_of_not_named (hunknown e he) _
  have hschema : Fills member (Encode.optional "schema" Schema.encode schema)
      { empty with extensions := ext } { empty with schema, extensions := ext } := by
    cases schema with
    | none => rfl
    | some schema => exact .one (by simp [member, hs schema rfl])
  have hrest : Fills member
      [("name", .string name), ("in", .string location), ("required", .bool required)]
      { empty with schema, extensions := ext } ⟨name, location, required, schema, ext⟩ := rfl
  exact ((hrest.append hschema).append hextensions).node?

end Parameter

namespace Response

def names : List String := ["description", "schema"]

theorem member_of_not_named (h : name ∉ names) (r : Response) :
    member name value r = some { r with extensions := (name, value) :: r.extensions } := by
  unfold member
  split <;> simp_all [names]

theorem member_frame {m n : Response} (h : member name value m = some n) :
    (name ≠ "schema" → n.schema = m.schema) ∧ (name ∈ names → n.extensions = m.extensions) := by
  simp only [names, List.mem_cons, List.not_mem_nil, or_false]
  unfold member at h
  split at h <;> grind [Option.map_eq_some_iff]

theorem keeps : Keeps member names extensions where
  named h := (member_frame h).2
  unnamed h := ⟨_, member_of_not_named h _, rfl⟩

theorem schemaField : Field member "schema" (Decode.optional Schema.decode) schema where
  read h := by grind [member, Option.map_eq_some_iff]
  other h := (member_frame h).1

theorem lossless : Lossless decode encode := by
  intro value r h
  obtain ⟨members, rfl⟩ := node?_eq_some h
  have hs := schemaField.read_optional rfl h Schema.encode_ne_null fun _ _ => Schema.lossless
  have hunknown := keeps.not_mem rfl h
  clear h
  obtain ⟨description, schema, ext⟩ := r
  have hextensions : Fills member ext empty { empty with extensions := ext } :=
    .all (fun ext => { empty with extensions := ext }) rfl rfl fun e he _ =>
      member_of_not_named (hunknown e he) _
  have hschema : Fills member (Encode.optional "schema" Schema.encode schema)
      { empty with extensions := ext } { empty with schema, extensions := ext } := by
    cases schema with
    | none => rfl
    | some schema => exact .one (by simp [member, hs schema rfl])
  have hrest : Fills member [("description", .string description)]
      { empty with schema, extensions := ext } ⟨description, schema, ext⟩ := rfl
  exact ((hrest.append hschema).append hextensions).node?

end Response

namespace Operation

def names : List String := ["operationId", "parameters", "responses", "security"]

theorem member_of_not_named (h : name ∉ names) (op : Operation) :
    member name value op = some { op with extensions := (name, value) :: op.extensions } := by
  unfold member
  split <;> simp_all [names]

theorem member_frame {m n : Operation} (h : member name value m = some n) :
    (name ≠ "parameters" → n.parameters = m.parameters) ∧
      (name ≠ "responses" → n.responses = m.responses) ∧
      (name ∈ names → n.extensions = m.extensions) := by
  simp only [names, List.mem_cons, List.not_mem_nil, or_false]
  unfold member at h
  split at h <;> grind [Option.map_eq_some_iff]

theorem keeps : Keeps member names extensions where
  named h := (member_frame h).2.2
  unnamed h := ⟨_, member_of_not_named h _, rfl⟩

theorem parametersField : Field member "parameters" (list? Parameter.decode) parameters where
  read h := by grind [member, Option.map_eq_some_iff]
  other h := (member_frame h).1

theorem responsesField : Field member "responses" (table? Response.decode) responses where
  read h := by grind [member, Option.map_eq_some_iff]
  other h := (member_frame h).2.1

theorem encode_ne_null (op : Operation) : op.encode ≠ .null := Json.noConfusion

theorem lossless : Lossless decode encode := by
  intro value op h
  obtain ⟨members, rfl⟩ := node?_eq_some h
  have hp := parametersField.read_list rfl h fun _ _ => Parameter.lossless
  have hr := responsesField.read_table rfl h fun _ _ => Response.lossless
  have hunknown := keeps.not_mem rfl h
  clear h
  obtain ⟨operationId, parameters, responses, security, ext⟩ := op
  have hextensions : Fills member ext empty { empty with extensions := ext } :=
    .all (fun ext => { empty with extensions := ext }) rfl rfl fun e he _ =>
      member_of_not_named (hunknown e he) _
  have hsecurity : Fills member (Encode.optional "security" Encode.requirements security)
      { empty with extensions := ext } { empty with security, extensions := ext } := by
    cases security with
    | none => rfl
    | some requirements =>
      exact .one (by simp [member, read_optional_requirements])
  have hlists : Fills member [("parameters", .array (parameters.map Parameter.encode)),
      ("responses", Encode.table Response.encode responses)]
      { empty with security, extensions := ext }
      { empty with parameters, responses, security, extensions := ext } :=
    .cons (.one (by simp [member, hr]; rfl)) (by simp [member, hp])
  have hid : Fills member (Encode.optional "operationId" .string operationId)
      { empty with parameters, responses, security, extensions := ext }
      ⟨operationId, parameters, responses, security, ext⟩ := by
    cases operationId <;> rfl
  exact (((hid.append hlists).append hsecurity).append hextensions).node?

end Operation

def Method.key : Method → String
  | .get => "get"
  | .post => "post"
  | .put => "put"
  | .delete => "delete"

namespace PathItem

def names : List String := ["get", "put", "post", "delete", "parameters"]

theorem member_of_not_named (h : name ∉ names) (item : PathItem) :
    member name value item =
      some { item with extensions := (name, value) :: item.extensions } := by
  unfold member
  split <;> simp_all [names]

theorem member_frame {m n : PathItem} (h : member name value m = some n) :
    (∀ method : Method, name ≠ method.key → n.operation? method = m.operation? method) ∧
      (name ≠ "parameters" → n.parameters = m.parameters) ∧
      (name ∈ names → n.extensions = m.extensions) := by
  simp only [names, List.mem_cons, List.not_mem_nil, or_false]
  refine ⟨fun method => ?_, ?_⟩
  · unfold member at h
    split at h <;> cases method <;> grind [Method.key, operation?, Option.map_eq_some_iff]
  · unfold member at h
    split at h <;> grind [Option.map_eq_some_iff]

theorem keeps : Keeps member names extensions where
  named h := (member_frame h).2.2
  unnamed h := ⟨_, member_of_not_named h _, rfl⟩

theorem operationField (method : Method) :
    Field member method.key (Decode.optional Operation.decode) fun item =>
      item.operation? method where
  read h := by cases method <;> grind [member, Method.key, operation?, Option.map_eq_some_iff]
  other h := (member_frame h).1 method

theorem parametersField : Field member "parameters" (list? Parameter.decode) parameters where
  read h := by grind [member, Option.map_eq_some_iff]
  other h := (member_frame h).2.1

theorem lossless : Lossless decode encode := by
  intro value item h
  obtain ⟨members, rfl⟩ := node?_eq_some h
  have ho (method : Method) := (operationField method).read_optional (by cases method <;> rfl) h
    Operation.encode_ne_null fun _ _ => Operation.lossless
  have hp := parametersField.read_list rfl h fun _ _ => Parameter.lossless
  have hunknown := keeps.not_mem rfl h
  clear h
  obtain ⟨get, put, post, delete, parameters, ext⟩ := item
  have hextensions : Fills member ext empty { empty with extensions := ext } :=
    .all (fun ext => { empty with extensions := ext }) rfl rfl fun e he _ =>
      member_of_not_named (hunknown e he) _
  have hparameters : Fills member [("parameters", .array (parameters.map Parameter.encode))]
      { empty with extensions := ext } { empty with parameters, extensions := ext } :=
    .one (by simp [member, hp])
  have hdelete : Fills member (Encode.optional "delete" Operation.encode delete)
      { empty with parameters, extensions := ext }
      { empty with delete, parameters, extensions := ext } := by
    cases delete with
    | none => rfl
    | some op => exact .one (by simp [member, ho .delete op rfl])
  have hpost : Fills member (Encode.optional "post" Operation.encode post)
      { empty with delete, parameters, extensions := ext }
      { empty with post, delete, parameters, extensions := ext } := by
    cases post with
    | none => rfl
    | some op => exact .one (by simp [member, ho .post op rfl])
  have hput : Fills member (Encode.optional "put" Operation.encode put)
      { empty with post, delete, parameters, extensions := ext }
      { empty with put, post, delete, parameters, extensions := ext } := by
    cases put with
    | none => rfl
    | some op => exact .one (by simp [member, ho .put op rfl])
  have hget : Fills member (Encode.optional "get" Operation.encode get)
      { empty with put, post, delete, parameters, extensions := ext }
      ⟨get, put, post, delete, parameters, ext⟩ := by
    cases get with
    | none => rfl
    | some op => exact .one (by simp [member, ho .get op rfl])
  exact (((((hget.append hput).append hpost).append hdelete).append hparameters).append
    hextensions).node?

end PathItem

namespace SecurityDefinition

def names : List String := ["type", "name", "in"]

theorem member_of_not_named (h : name ∉ names) (d : SecurityDefinition) :
    member name value d = some { d with extensions := (name, value) :: d.extensions } := by
  unfold member
  split <;> simp_all [names]

theorem keeps : Keeps member names extensions where
  named h hname := by
    simp only [names, List.mem_cons, List.not_mem_nil, or_false] at hname
    unfold member at h
    split at h <;> grind [Option.map_eq_some_iff]
  unnamed h := ⟨_, member_of_not_named h _, rfl⟩

theorem lossless : Lossless decode encode := by
  intro value d h
  obtain ⟨members, rfl⟩ := node?_eq_some h
  have hunknown := keeps.not_mem rfl h
  clear h
  obtain ⟨type, name, location, ext⟩ := d
  have hextensions : Fills member ext empty { empty with extensions := ext } :=
    .all (fun ext => { empty with extensions := ext }) rfl rfl fun e he _ =>
      member_of_not_named (hunknown e he) _
  have hlocation : Fills member (Encode.optional "in" .string location)
      { empty with extensions := ext } { empty with location, extensions := ext } := by
    cases location <;> rfl
  have hname : Fills member (Encode.optional "name" .string name)
      { empty with location, extensions := ext }
      { empty with name, location, extensions := ext } := by
    cases name <;> rfl
  have htype : Fills member [("type", .string type)]
      { empty with name, location, extensions := ext } ⟨type, name, location, ext⟩ := rfl
  exact (((htype.append hname).append hlocation).append hextensions).node?

end SecurityDefinition

namespace Document

def names : List String :=
  ["swagger", "host", "basePath", "schemes", "paths", "definitions", "securityDefinitions",
    "security"]

theorem member_of_not_named (h : name ∉ names) (d : Document) :
    member name value d = some { d with extensions := (name, value) :: d.extensions } := by
  unfold member
  split <;> simp_all [names]

theorem member_frame {m n : Document} (h : member name value m = some n) :
    (name ≠ "paths" → n.paths = m.paths) ∧ (name ≠ "definitions" → n.definitions = m.definitions) ∧
      (name ≠ "securityDefinitions" → n.securityDefinitions = m.securityDefinitions) ∧
      (name ∈ names → n.extensions = m.extensions) := by
  simp only [names, List.mem_cons, List.not_mem_nil, or_false]
  unfold member at h
  split at h <;> grind [Option.map_eq_some_iff]

theorem keeps : Keeps member names extensions where
  named h := (member_frame h).2.2.2
  unnamed h := ⟨_, member_of_not_named h _, rfl⟩

theorem pathsField : Field member "paths" (table? PathItem.decode) paths where
  read h := by grind [member, Option.map_eq_some_iff]
  other h := (member_frame h).1

theorem definitionsField : Field member "definitions" (table? Schema.decode) definitions where
  read h := by grind [member, Option.map_eq_some_iff]
  other h := (member_frame h).2.1

theorem securityDefinitionsField :
    Field member "securityDefinitions" (table? SecurityDefinition.decode) securityDefinitions where
  read h := by grind [member, Option.map_eq_some_iff]
  other h := (member_frame h).2.2.1

theorem lossless : Lossless decode encode := by
  intro value d h
  obtain ⟨members, rfl⟩ := node?_eq_some h
  have hp := pathsField.read_table rfl h fun _ _ => PathItem.lossless
  have hd := definitionsField.read_table rfl h fun _ _ => Schema.lossless
  have hs := securityDefinitionsField.read_table rfl h fun _ _ => SecurityDefinition.lossless
  have hunknown := keeps.not_mem rfl h
  clear h
  obtain ⟨version, host, basePath, schemes, paths, definitions, securityDefinitions, security,
    ext⟩ := d
  have hextensions : Fills member ext empty { empty with extensions := ext } :=
    .all (fun ext => { empty with extensions := ext }) rfl rfl fun e he _ =>
      member_of_not_named (hunknown e he) _
  have hsecurity : Fills member (Encode.optional "security" Encode.requirements security)
      { empty with extensions := ext } { empty with security, extensions := ext } := by
    cases security with
    | none => rfl
    | some requirements =>
      exact .one (by simp [member, read_optional_requirements])
  have htables : Fills member [("schemes", Encode.texts schemes),
      ("paths", Encode.table PathItem.encode paths),
      ("definitions", Encode.table Schema.encode definitions),
      ("securityDefinitions", Encode.table SecurityDefinition.encode securityDefinitions)]
      { empty with security, extensions := ext }
      { empty with
        schemes, paths, definitions, securityDefinitions, security, extensions := ext } :=
    .cons (.cons (.cons (.one (by simp [member, hs]; rfl)) (by simp [member, hd]; rfl))
      (by simp [member, hp]; rfl)) (by simp [member, read_texts])
  have hbasePath : Fills member (Encode.optional "basePath" .string basePath)
      { empty with
        schemes, paths, definitions, securityDefinitions, security, extensions := ext }
      { empty with
        basePath, schemes, paths, definitions, securityDefinitions, security
        extensions := ext } := by
    cases basePath <;> rfl
  have hhost : Fills member (Encode.optional "host" .string host)
      { empty with
        basePath, schemes, paths, definitions, securityDefinitions, security, extensions := ext }
      { empty with
        host, basePath, schemes, paths, definitions, securityDefinitions, security,
        extensions := ext } := by
    cases host <;> rfl
  have hversion : Fills member [("swagger", .string version)]
      { empty with
        host, basePath, schemes, paths, definitions, securityDefinitions, security,
        extensions := ext }
      ⟨version, host, basePath, schemes, paths, definitions, securityDefinitions, security, ext⟩ :=
    rfl
  exact (((((hversion.append hhost).append hbasePath).append htables).append hsecurity).append
    hextensions).node?

end Document

end SwaggerProvider.Swagger
