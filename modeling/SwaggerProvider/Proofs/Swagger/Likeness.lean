import SwaggerProvider.Proofs.Json.Likeness
import SwaggerProvider.Proofs.Swagger.Nodes

/-!
When schemas are alike: they agree field by field, whatever the order of their properties and of
their extensions. Schemas that were read from documents are alike exactly when their written forms
are the same.
-/

set_option autoImplicit false

namespace SwaggerProvider.Swagger

open Json (MaySame)

namespace Schema

inductive Like : Schema → Schema → Prop where
  | intro {a b : Schema} (reference : a.reference = b.reference) (type : a.type = b.type)
    (description : a.description = b.description)
    (properties : ∀ name, Option.Rel Like (Table.get? a.properties name)
      (Table.get? b.properties name))
    (items : Option.Rel Like a.items b.items) (required : a.required = b.required)
    (readOnly : a.readOnly = b.readOnly) (default : Option.Rel Json.Like a.default b.default)
    (extensions : ∀ name, Option.Rel Json.Like (Table.get? a.extensions name)
      (Table.get? b.extensions name)) :
    Like a b

def Declared (schema : Schema) : Prop :=
  ∃ value, value.distinct = true ∧ decode value = some schema

structure Tidy (schema : Schema) : Prop where
  unknown : ∀ e ∈ schema.extensions, e.1 ∉ names
  extensions : (Table.keys schema.extensions).Nodup
  values : ∀ e ∈ schema.extensions, e.2.distinct = true
  default : ∀ value, schema.default = some value → value.distinct = true
  properties : (Table.keys schema.properties).Nodup
  property : ∀ e ∈ schema.properties, Declared e.2
  items : ∀ items, schema.items = some items → Declared items

theorem distinct_inner (value : Option Json)
    (h : ∀ v, value = some v → v.distinct = true) :
    (Table.keys ((value.bind Json.members?).getD [])).Nodup ∧
      ∀ e ∈ (value.bind Json.members?).getD [], e.2.distinct = true := by
  cases value with
  | none => exact ⟨.nil, by simp⟩
  | some value =>
    cases value with
    | object members =>
      have hdistinct := h _ rfl
      simp only [Json.distinct, Bool.and_eq_true, decide_eq_true_eq, Json.membersDistinct_iff]
        at hdistinct
      exact hdistinct
    | _ => exact ⟨.nil, by simp [Json.members?]⟩

theorem Declared.tidy {schema : Schema} (h : Declared schema) : schema.Tidy := by
  obtain ⟨value, hdistinct, hdecode⟩ := h
  rw [decode_eq] at hdecode
  obtain ⟨members, rfl⟩ := node?_eq_some hdecode
  obtain ⟨hkeys, hvalues⟩ :=
    distinct_inner (some (.object members)) (by simpa using hdistinct)
  have hfound {name : String} {v : Json} (hv : Table.get? members name = some v) :
      v.distinct = true := hvalues _ (Table.mem_of_get? hv)
  have hextensions := keeps.eq rfl hdecode
  have hproperties := forall₂_of_table (propertiesField.eq rfl hdecode)
  obtain ⟨hnames, hinner⟩ :=
    distinct_inner (Table.get? members "properties") fun _ => hfound
  constructor
  case unknown => exact keeps.not_mem rfl hdecode
  case extensions =>
    rw [hextensions]
    exact hkeys.sublist (List.filter_sublist.map Prod.fst)
  case values =>
    rw [hextensions]
    exact fun e he => hvalues e (List.mem_filter.1 he).1
  case default =>
    intro value hvalue
    have hstands := stands_optional (defaultField.eq rfl hdecode)
    rw [hvalue] at hstands
    obtain ⟨v, hv, hread⟩ := hstands.of_some
    cases hread
    exact hfound hv
  case properties =>
    rw [keys_eq hproperties]
    exact hnames
  case property =>
    intro e he
    obtain ⟨f, hf, -, hread⟩ := List.exists_of_mem_forall₂ hproperties he
    exact ⟨f.2, hinner f hf, hread⟩
  case items =>
    intro items hitems
    have hstands := stands_optional (itemsField.eq rfl hdecode)
    rw [hitems] at hstands
    obtain ⟨v, hv, hread⟩ := hstands.of_some
    exact ⟨v, hfound hv, hread⟩

def part (schema : Schema) (name : String) : Option Json :=
  match name with
  | "$ref" => schema.reference.map .string
  | "type" => schema.type.map .string
  | "description" => schema.description.map .string
  | "properties" =>
    if schema.properties.isEmpty then none else some (Encode.table encode schema.properties)
  | "items" => schema.items.map encode
  | "required" => if schema.required.isEmpty then none else some (Encode.texts schema.required)
  | "readOnly" => if schema.readOnly then some (.bool true) else none
  | "default" => schema.default
  | name => Table.get? schema.extensions name

theorem get?_optional {α : Type} (name : String) (write : α → Json) (o : Option α)
    (key : String) :
    Table.get? (Encode.optional name write o) key = if name = key then o.map write else none := by
  cases o <;> simp [Encode.optional, Table.get?]

theorem get?_unless (c : Bool) (name : String) (value : Json) (key : String) :
    Table.get? (if c then [] else [(name, value)]) key =
      if name = key then (if c then none else some value) else none := by
  cases c <;> simp [Table.get?]

theorem get?_when (c : Bool) (name : String) (value : Json) (key : String) :
    Table.get? (if c then [(name, value)] else []) key =
      if name = key then (if c then some value else none) else none := by
  cases c <;> simp [Table.get?]

variable {schema a b : Schema}

theorem part_of_not_named {name : String} (h : name ∉ names) (schema : Schema) :
    schema.part name = Table.get? schema.extensions name := by
  unfold part
  split <;> simp_all [names]

theorem Tidy.get?_of_named (h : schema.Tidy) {name : String} (hname : name ∈ names) :
    Table.get? schema.extensions name = none := by
  cases hget : Table.get? schema.extensions name with
  | none => rfl
  | some value => exact absurd hname (h.unknown _ (Table.mem_of_get? hget))

theorem Tidy.get?_written (h : schema.Tidy) (name : String) :
    Table.get? schema.written name = schema.part name := by
  unfold written
  simp only [Table.get?_append, get?_optional, get?_unless, get?_when]
  by_cases hname : name ∈ names
  · rw [h.get?_of_named hname]
    simp only [names, List.mem_cons, List.not_mem_nil, or_false] at hname
    rcases hname with rfl | rfl | rfl | rfl | rfl | rfl | rfl | rfl <;> simp [part]
  · rw [part_of_not_named hname]
    simp only [names, List.mem_cons, List.not_mem_nil, or_false, not_or] at hname
    simp [eq_comm, hname]

theorem Tidy.keys_written (h : schema.Tidy) : (Table.keys schema.written).Nodup := by
  obtain ⟨named, hnamed, hkeys⟩ : ∃ named : List String, named.Sublist names ∧
      Table.keys schema.written = named ++ Table.keys schema.extensions := by
    refine ⟨_, ?_, List.map_append⟩
    simp only [List.map_append]
    have hsingle {α : Type} (name : String) (write : α → Json) (o : Option α) :
        ((Encode.optional name write o).map Prod.fst).Sublist [name] := by
      cases o <;> simp [Encode.optional]
    have hunless (c : Bool) (name : String) (value : Json) :
        ((if c then [] else [(name, value)]).map Prod.fst).Sublist [name] := by
      cases c <;> simp
    have hwhen (c : Bool) (name : String) (value : Json) :
        ((if c then [(name, value)] else []).map Prod.fst).Sublist [name] := by
      cases c <;> simp
    exact ((((((((hsingle _ _ _).append (hsingle _ _ _)).append (hsingle _ _ _)).append
      (hunless _ _ _)).append (hsingle _ _ _)).append (hunless _ _ _)).append
      (hwhen _ _ _)).append (hsingle _ _ _))
  rw [hkeys]
  refine List.nodup_append.2 ⟨(by decide : names.Nodup).sublist hnamed, h.extensions, ?_⟩
  rintro name hname _ hkey rfl
  obtain ⟨e, he, rfl⟩ := List.mem_map.1 hkey
  exact h.unknown e he (hnamed.subset hname)

theorem same_iff_parts (ha : a.Tidy) (hb : b.Tidy) :
    a.same b = true ↔ ∀ name, MaySame (a.part name) (b.part name) := by
  rw [same, encode_eq, encode_eq, Json.same_object_iff ha.keys_written hb.keys_written]
  simp only [ha.get?_written, hb.get?_written]

theorem maySame_texts {x y : Option String} :
    MaySame (x.map .string) (y.map .string) ↔ x = y := by
  cases x <;> cases y <;> simp [Json.same]

theorem sameItems_texts (xs ys : List String) :
    Json.sameItems (xs.map .string) (ys.map .string) = true ↔ xs = ys := by
  induction xs generalizing ys with
  | nil => cases ys <;> simp [Json.sameItems]
  | cons x xs ih => cases ys <;> simp [Json.sameItems, Json.same, ih]

theorem maySame_required {xs ys : List String} :
    MaySame (if xs.isEmpty then none else some (Encode.texts xs))
      (if ys.isEmpty then none else some (Encode.texts ys)) ↔ xs = ys := by
  cases xs <;> cases ys <;> simp [Encode.texts, Json.same, sameItems_texts, Json.sameItems]

theorem maySame_flag {x y : Bool} :
    MaySame (if x then some (.bool true) else none) (if y then some (.bool true) else none) ↔
      x = y := by
  cases x <;> cases y <;> simp [Json.same]

theorem get?_table (t : Table Schema) (name : String) :
    Table.get? (t.map fun e => (e.1, e.2.encode)) name = (t.get? name).map encode := by
  induction t with
  | nil => rfl
  | cons e rest ih =>
    rw [List.map_cons, Table.get?, Table.get?, ih]
    split <;> rfl

theorem maySame_encode {x y : Option Schema} :
    MaySame (x.map encode) (y.map encode) ↔ Option.Rel (fun a b => a.same b = true) x y := by
  cases x <;> cases y <;> simp [same]

theorem maySame_properties (ha : a.Tidy) (hb : b.Tidy) :
    MaySame (a.part "properties") (b.part "properties") ↔
      ∀ name, Option.Rel (fun a b => a.same b = true) (Table.get? a.properties name)
        (Table.get? b.properties name) := by
  have hkeys (t : Table Schema) : Table.keys (t.map fun e => (e.1, e.2.encode)) = Table.keys t := by
    simp [Table.keys, Function.comp_def]
  have hwritten : MaySame (a.part "properties") (b.part "properties") ↔
      Json.same (Encode.table encode a.properties) (Encode.table encode b.properties) = true := by
    unfold part
    cases a.properties <;> cases b.properties <;>
      simp [Encode.table, Json.same, Json.sameMembers]
  rw [hwritten, Encode.table, Encode.table, Json.same_object_iff (hkeys _ ▸ ha.properties)
    (hkeys _ ▸ hb.properties)]
  simp only [get?_table, maySame_encode]

/-- Schemas from documents have the same written form when they are alike. -/
theorem same_iff_like (ha : Declared a) (hb : Declared b) : a.same b = true ↔ Like a b := by
  induction a using Schema.induction generalizing b with
  | step a hproperties hitems =>
    have hta := ha.tidy
    have htb := hb.tidy
    have eachProperty (name : String) :
        Option.Rel (fun a b => a.same b = true) (Table.get? a.properties name)
          (Table.get? b.properties name) ↔
        Option.Rel Like (Table.get? a.properties name) (Table.get? b.properties name) :=
      Option.Rel.congr fun p hp q hq => hproperties _ (Table.mem_of_get? hp)
        (hta.property _ (Table.mem_of_get? hp)) (htb.property _ (Table.mem_of_get? hq))
    have eachItems : Option.Rel (fun a b => a.same b = true) a.items b.items ↔
        Option.Rel Like a.items b.items :=
      Option.Rel.congr fun i hi j hj => hitems i hi (hta.items i hi) (htb.items j hj)
    have eachDefault : MaySame a.default b.default ↔ Option.Rel Json.Like a.default b.default :=
      Option.Rel.congr fun v hv w hw =>
        Json.same_iff_like v w (hta.default v hv) (htb.default w hw)
    have eachExtension (name : String) :
        MaySame (Table.get? a.extensions name) (Table.get? b.extensions name) ↔
        Option.Rel Json.Like (Table.get? a.extensions name) (Table.get? b.extensions name) :=
      Option.Rel.congr fun v hv w hw => Json.same_iff_like v w
        (hta.values _ (Table.mem_of_get? hv)) (htb.values _ (Table.mem_of_get? hw))
    rw [same_iff_parts hta htb]
    constructor
    · intro h
      refine .intro (maySame_texts.1 (h "$ref")) (maySame_texts.1 (h "type"))
        (maySame_texts.1 (h "description"))
        (fun name => (eachProperty name).1 ((maySame_properties hta htb).1 (h "properties") name))
        (eachItems.1 (maySame_encode.1 (h "items"))) (maySame_required.1 (h "required"))
        (maySame_flag.1 (h "readOnly")) (eachDefault.1 (h "default")) fun name => ?_
      by_cases hname : name ∈ names
      · rw [hta.get?_of_named hname, htb.get?_of_named hname]
        exact .none
      · have hpart := h name
        rw [part_of_not_named hname, part_of_not_named hname] at hpart
        exact (eachExtension name).1 hpart
    · rintro ⟨reference, type, description, properties, items, required, readOnly, default, ext⟩
      intro name
      by_cases hname : name ∈ names
      · simp only [names, List.mem_cons, List.not_mem_nil, or_false] at hname
        rcases hname with rfl | rfl | rfl | rfl | rfl | rfl | rfl | rfl
        · exact maySame_texts.2 reference
        · exact maySame_texts.2 type
        · exact maySame_texts.2 description
        · exact (maySame_properties hta htb).2 fun name => (eachProperty name).2 (properties name)
        · exact maySame_encode.2 (eachItems.2 items)
        · exact maySame_required.2 required
        · exact maySame_flag.2 readOnly
        · exact eachDefault.2 default
      · rw [part_of_not_named hname, part_of_not_named hname]
        exact (eachExtension name).2 (ext name)

end Schema

end SwaggerProvider.Swagger
