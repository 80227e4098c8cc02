import SwaggerProvider.Proofs.Record.Names

/-!
What holds of every compiled record, however deep it lies. A way is a list of places: each place
picks a field of a record and, beside it, the property that the field was compiled from.
-/

set_option autoImplicit false

namespace SwaggerProvider

open Swagger (Schema)

namespace Kind

variable {φ : Type}

def shape : Kind φ → Record.Shape
  | .scalar type => .scalar type
  | .scalars _ | .records _ => .list
  | .record _ => .object

def itemShape? : Kind φ → Option Record.Shape
  | .scalars type => some (.scalar type)
  | .records _ => some .object
  | .scalar _ | .record _ => none

end Kind

namespace Record

/-- What describes the inside of a property: the items of an array, and else the property itself. -/
def contents? (schema : Schema) : Option Schema :=
  if schema.isType "array" then schema.items else some schema

def schemaAt? : List Nat → Schema → Option Schema
  | [], schema => some schema
  | i :: way, schema =>
    (schema.properties[i]?).bind fun e => (contents? e.2).bind (schemaAt? way)

def recordAt? : List Nat → Record → Option Record
  | [], r => some r
  | i :: way, r => (r[i]?).bind fun f => f.kind.fields?.bind (recordAt? way)

/-- The marks of a field do not contradict each other, and what it holds goes with its type. -/
structure Consistent (f : Field) : Prop where
  required : f.required = true → f.readOnly = false
  computed : f.computed = true → f.readOnly = false ∧ f.default = none
  status : f.status = true → f.readOnly = true
  readOnly : f.readOnly = true → f.default = none
  default : f.default ≠ some .null
  anyOrder : f.anyOrder = true → f.kind.shape = .list
  items : f.kind.itemShape?.isSome = true ↔ f.kind.shape = .list
  flat : f.kind.itemShape? ≠ some .list
  nested : f.kind.fields?.isSome = true ↔
    f.kind.shape = .object ∨ f.kind.itemShape? = some .object

/-- The type of a field is the one that its property declares, and so is that of its items. -/
def Typed (schema : Schema) (kind : Kind Field) : Prop :=
  shapeOf schema = .ok kind.shape ∧
    ∀ s, kind.itemShape? = some s → ∃ items, schema.items = some items ∧ shapeOf items = .ok s

/-- A record lists the properties of a schema. -/
structure Lists (schema : Schema) (r : Record) : Prop where
  names : r.map (fun f => f.name) = schema.properties.map Prod.fst
  types : List.Forall₂ (fun e f => Typed e.2 f.kind) schema.properties r
  marked : (r.filter fun f => f.identifier).length ≤ 1
  consistent : ∀ f ∈ r, Consistent f

variable {definitions : Table Schema} {schema : Schema} {r : Record}

theorem checkTraits_eq_ok {t : Traits} (h : checkTraits t = .ok ()) :
    (t.required = true → t.readOnly = false) ∧
      (t.computed = true → t.readOnly = false ∧ t.default = none) ∧
      (t.status = true → t.readOnly = true) := by
  unfold checkTraits at h
  split at h
  · cases h
  next hrequired =>
  split at h
  · cases h
  next hcomputed =>
  split at h
  · cases h
  next hdefault =>
  split at h
  · cases h
  next hstatus =>
  simp only [Bool.and_eq_true, Bool.not_eq_true', not_and, Bool.not_eq_true,
    Option.isSome_eq_false_iff, Option.isNone_iff_eq_none, Bool.not_eq_false]
    at hrequired hcomputed hdefault hstatus
  exact ⟨hrequired, fun hc => ⟨hcomputed hc, hdefault hc⟩, hstatus⟩

theorem checkMarks_marked {checked : Record} (h : checkMarks r = .ok checked) :
    (r.filter fun f => f.identifier).length ≤ 1 := by
  unfold checkMarks at h
  dsimp only at h
  split at h
  · cases h
  · next hmarks =>
    rw [List.length_map] at hmarks
    omega

theorem declared_default_ne_null (name : String) (required readOnly : Bool)
    (default : Option Json) (description : Option String) (ext : Swagger.Extensions) :
    (declared name required readOnly default description ext).default ≠ some .null := by
  intro h
  obtain ⟨-, hnull⟩ := Option.filter_eq_some_iff.1 h
  simp [Json.isNull] at hnull

theorem compileField_consistent {name : String} {required : Bool} {f : Field}
    (h : compileField definitions name required schema = .ok f) : Consistent f := by
  obtain ⟨hcheck, hf, -⟩ := compileField_cases h
  have hnull := declared_default_ne_null name required schema.readOnly schema.default
    schema.description schema.extensions
  generalize declared name required schema.readOnly schema.default schema.description
    schema.extensions = t at hcheck hf hnull
  obtain ⟨hrequired, hcomputed, hstatus⟩ := checkTraits_eq_ok hcheck
  have hsettled : f.toTraits = settle t f.kind.isList := congrArg Field.toTraits hf
  constructor
  case required => rw [hsettled]; exact hrequired
  case computed =>
    rw [hsettled]
    intro hc
    obtain ⟨hread, hdefault⟩ := hcomputed hc
    exact ⟨hread, by simp [settle, hdefault]⟩
  case status => rw [hsettled]; exact hstatus
  case readOnly =>
    rw [hsettled]
    intro (hread : t.readOnly = true)
    simp [settle, hread]
  case default =>
    rw [hsettled]
    change (if t.readOnly then none else t.default) ≠ some .null
    split
    · simp
    · exact hnull
  case anyOrder =>
    rw [hsettled]
    intro horder
    have hlist : f.kind.isList = true := (Bool.and_eq_true_iff.1 horder).2
    cases hk : f.kind <;> simp [hk, Kind.isList, Kind.shape] at hlist ⊢
  case items => cases f.kind <;> simp [Kind.itemShape?, Kind.shape]
  case flat => cases f.kind <;> simp [Kind.itemShape?]
  case nested => cases f.kind <;> simp [Kind.fields?, Kind.itemShape?, Kind.shape]

theorem Holds.typed {kind : Kind Field} (h : Holds definitions schema kind) :
    Typed schema kind := by
  cases h with
  | scalar own | record own _ => exact ⟨own, fun s hs => by cases hs⟩
  | scalars own has each | records own has each _ =>
    refine ⟨own, fun s hs => ⟨_, has, ?_⟩⟩
    cases hs
    exact each

theorem shapeOf_eq_list : shapeOf schema = .ok .list ↔ schema.type = some "array" := by
  unfold shapeOf shape
  split <;> simp_all
  split <;> simp

theorem Holds.contents {kind : Kind Field} {fields : List Field}
    (h : Holds definitions schema kind) (hk : kind.fields? = some fields) :
    ∃ source, contents? schema = some source ∧ Built definitions source fields := by
  unfold contents? Schema.isType
  cases h with
  | scalar | scalars => cases hk
  | record own built =>
    cases hk
    have hne : schema.type ≠ some "array" := by
      rw [Ne, ← shapeOf_eq_list, own]
      simp
    exact ⟨schema, by simp [hne], built⟩
  | records own has _ built =>
    cases hk
    exact ⟨_, by simp [shapeOf_eq_list.1 own, has], built⟩

theorem Built.property {i : Nat} {f : Field} (h : Built definitions schema r)
    (hf : r[i]? = some f) : ∃ e, schema.properties[i]? = some e ∧
      compileField definitions e.1 (schema.required.contains e.1) e.2 = .ok f := by
  have hall := compileFields_eq_ok h.fields
  obtain ⟨hi, rfl⟩ := List.getElem?_eq_some_iff.1 hf
  have hi' : i < schema.properties.length := hall.length_eq ▸ hi
  exact ⟨_, List.getElem?_eq_getElem hi', hall.get hi' hi⟩

theorem Built.lists (h : Built definitions schema r) : Lists schema r := by
  have hall := compileFields_eq_ok h.fields
  constructor
  case names => exact compileFields_names h.fields
  case types => exact hall.imp fun e f hf => (compileField_cases hf).2.2.typed
  case marked => exact checkMarks_marked h.marks
  case consistent =>
    intro f hf
    obtain ⟨e, -, hfield⟩ := exists_property h.fields hf
    exact compileField_consistent hfield

/-- A way that leads to a record leads to the schema that it was compiled from. -/
theorem Built.at {way : List Nat} {inner : Record} (h : Built definitions schema r)
    (hin : recordAt? way r = some inner) :
    ∃ source, schemaAt? way schema = some source ∧ Built definitions source inner := by
  induction way generalizing schema r with
  | nil =>
    cases hin
    exact ⟨schema, rfl, h⟩
  | cons i way ih =>
    obtain ⟨f, hf, hin⟩ := Option.bind_eq_some_iff.1 hin
    obtain ⟨fields, hfields, hin⟩ := Option.bind_eq_some_iff.1 hin
    obtain ⟨e, he, hfield⟩ := h.property hf
    obtain ⟨source, hsource, hbuilt⟩ := (compileField_cases hfield).2.2.contents hfields
    obtain ⟨target, htarget, hinner⟩ := ih hbuilt hin
    exact ⟨target, by simp [schemaAt?, he, hsource, htarget], hinner⟩

/-- Every record inside a compiled record lists the properties of the schema it came from, and its
fields are consistent. -/
theorem compiled_record_invariant (h : compile definitions schema = .ok r) (way : List Nat)
    {inner : Record} (hin : recordAt? way r = some inner) :
    ∃ source, schemaAt? way schema = some source ∧ Lists source inner := by
  obtain ⟨hfields, hmarks⟩ := compile_eq_ok h
  have hbuilt : Built definitions schema r := ⟨hfields, hmarks⟩
  obtain ⟨source, hsource, hinner⟩ := hbuilt.at hin
  exact ⟨source, hsource, hinner.lists⟩

def portSchema : Schema := { Schema.empty with type := some "integer", default := some (.ofNat 80) }

def seenSchema : Schema := { Schema.empty with readOnly := true, default := some (.string "now") }

def wallSchema : Schema := { Schema.empty with
  properties := [("label", { Schema.empty with type := some "string" }),
    ("rules", { Schema.empty with
      type := some "array"
      items := some { Schema.empty with
        properties := [("port", portSchema),
          ("origin", { Schema.empty with properties := [("seen", seenSchema)] })] } })] }

theorem compiled_record_invariant_wall :
    ∃ r origin source, compile [] wallSchema = .ok r ∧ recordAt? [1, 1] r = some origin ∧
      origin.map (fun f => f.name) = ["seen"] ∧
      schemaAt? [1, 1] wallSchema = some source ∧ Lists source origin := by
  have hnames : ((compile [] wallSchema).toOption.bind (recordAt? [1, 1])).map
      (fun r => r.map fun f => f.name) = some ["seen"] := by decide +kernel
  cases h : compile [] wallSchema with
  | error e =>
    rw [h] at hnames
    cases hnames
  | ok r =>
    rw [h] at hnames
    obtain ⟨origin, horigin, hnames⟩ := Option.map_eq_some_iff.1 hnames
    obtain ⟨source, hsource, hlists⟩ := compiled_record_invariant h [1, 1] horigin
    exact ⟨r, origin, source, rfl, horigin, hnames, hsource, hlists⟩

end Record

end SwaggerProvider
