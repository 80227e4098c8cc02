import Mathlib.Data.List.Forall2
import SwaggerProvider.Proofs.Outcome
import SwaggerProvider.Record.Compile

/-!
What a record keeps of the schema that it was compiled from: a field for each property in order,
with the name and the marks of the property, and inside it the fields of the property or of its
items.
-/

set_option autoImplicit false

namespace SwaggerProvider.Record

open Swagger (Schema)

variable {definitions : Table Schema}

theorem within_eq_ok {α : Type} {parent : String} {x : Except Error α} {a : α} :
    within parent x = .ok a ↔ x = .ok a := by
  cases x with
  | ok b => exact Iff.rfl
  | error e => cases e <;> simp [within]

theorem checkMarks_eq_ok {r checked : Record} (h : checkMarks r = .ok checked) : checked = r := by
  unfold checkMarks at h
  dsimp only at h
  split at h
  · cases h
  · cases h
    rfl

theorem atProperty_eq_ok {α : Type} {name : String} {x : Except PropertyFault α} {a : α} :
    atProperty name x = .ok a ↔ x = .ok a := by
  cases x <;> simp [atProperty]

theorem finish_eq_ok {t : Traits} {kind : Kind Field} {f : Field} (h : finish t kind = .ok f) :
    checkTraits t = .ok () ∧ f = ⟨settle t kind.isList, kind⟩ := by
  obtain ⟨_, hcheck, h⟩ := Except.bind_eq_ok.1 h
  cases h
  exact ⟨atProperty_eq_ok.1 hcheck, rfl⟩

structure Built (definitions : Table Schema) (schema : Schema) (r : Record) : Prop where
  fields : compileFields definitions schema.required schema.properties = .ok r
  marks : checkMarks r = .ok r

theorem built_of_bind {schema : Schema} {r : Record}
    (h : (compileFields definitions schema.required schema.properties).bind checkMarks = .ok r) :
    Built definitions schema r := by
  obtain ⟨fields, hfields, hmarks⟩ := Except.bind_eq_ok.1 h
  cases checkMarks_eq_ok hmarks
  exact ⟨hfields, hmarks⟩

def shapeOf (schema : Schema) : Except PropertyFault Shape :=
  shape schema.type schema.hasProperties

inductive Holds (definitions : Table Schema) (schema : Schema) : Kind Field → Prop where
  | scalar {type : Scalar} (own : shapeOf schema = .ok (.scalar type)) :
    Holds definitions schema (.scalar type)
  | record {r : Record} (own : shapeOf schema = .ok .object) (built : Built definitions schema r) :
    Holds definitions schema (.record r)
  | scalars {items : Schema} {type : Scalar} (own : shapeOf schema = .ok .list)
    (has : schema.items = some items) (each : shapeOf items = .ok (.scalar type)) :
    Holds definitions schema (.scalars type)
  | records {items : Schema} {r : Record} (own : shapeOf schema = .ok .list)
    (has : schema.items = some items) (each : shapeOf items = .ok .object)
    (built : Built definitions items r) : Holds definitions schema (.records r)

theorem compileItems_eq_ok {name : String} {schema items : Schema} {kind : Kind Field}
    (own : shapeOf schema = .ok .list) (has : schema.items = some items)
    (h : compileItems definitions name items = .ok kind) : Holds definitions schema kind := by
  obtain ⟨_, type, _, properties, _, required, _, _, _⟩ := items
  unfold compileItems at h
  obtain ⟨_, _, h⟩ := Except.bind_eq_ok.1 h
  obtain ⟨shape, hshape, h⟩ := Except.bind_eq_ok.1 h
  have each := atProperty_eq_ok.1 hshape
  cases shape with
  | scalar type =>
    cases h
    exact .scalars own has each
  | list => cases h
  | object =>
    obtain ⟨r, hr, rfl⟩ := Except.map_eq_ok.1 h
    exact .records own has each (built_of_bind (within_eq_ok.1 hr))

theorem compileField_cases {name : String} {required : Bool} {schema : Schema} {f : Field}
    (h : compileField definitions name required schema = .ok f) :
    let t := declared name required schema.readOnly schema.default schema.description
      schema.extensions
    checkTraits t = .ok () ∧ f = ⟨settle t f.kind.isList, f.kind⟩ ∧
      Holds definitions schema f.kind := by
  have step {t : Traits} {kind : Kind Field} (hkind : Holds definitions schema kind)
      (hf : finish t kind = .ok f) : checkTraits t = .ok () ∧
        f = ⟨settle t f.kind.isList, f.kind⟩ ∧ Holds definitions schema f.kind := by
    obtain ⟨hcheck, rfl⟩ := finish_eq_ok hf
    exact ⟨hcheck, rfl, hkind⟩
  obtain ⟨_, type, _, properties, items, inner, _, _, _⟩ := schema
  unfold compileField at h
  obtain ⟨_, _, h⟩ := Except.bind_eq_ok.1 h
  obtain ⟨shape, hshape, h⟩ := Except.bind_eq_ok.1 h
  have own := atProperty_eq_ok.1 hshape
  cases shape with
  | scalar type =>
    obtain ⟨kind, hkind, h⟩ := Except.bind_eq_ok.1 h
    cases hkind
    exact step (.scalar own) h
  | object =>
    obtain ⟨kind, hkind, h⟩ := Except.bind_eq_ok.1 h
    obtain ⟨r, hr, rfl⟩ := Except.map_eq_ok.1 hkind
    exact step (.record own (built_of_bind (within_eq_ok.1 hr))) h
  | list =>
    cases items with
    | none => cases h
    | some items =>
      obtain ⟨kind, hkind, h⟩ := Except.bind_eq_ok.1 h
      exact step (compileItems_eq_ok own rfl hkind) h

def Inside (definitions : Table Schema) (schema : Schema) (fields : List Field) : Prop :=
  compileFields definitions schema.required schema.properties = .ok fields ∨
    ∃ items, schema.items = some items ∧
      compileFields definitions items.required items.properties = .ok fields

theorem Holds.inside {schema : Schema} {kind : Kind Field} {fields : List Field}
    (h : Holds definitions schema kind) (hk : kind.fields? = some fields) :
    Inside definitions schema fields := by
  cases h with
  | scalar | scalars => cases hk
  | record _ built =>
    cases hk
    exact .inl built.fields
  | records _ has _ built =>
    cases hk
    exact .inr ⟨_, has, built.fields⟩

theorem compileField_eq_ok {name : String} {required : Bool} {schema : Schema} {f : Field}
    (h : compileField definitions name required schema = .ok f) :
    ∃ kind : Kind Field,
      f = ⟨settle (declared name required schema.readOnly schema.default schema.description
        schema.extensions) kind.isList, kind⟩ ∧
      ∀ fields, kind.fields? = some fields → Inside definitions schema fields := by
  obtain ⟨-, hf, hkind⟩ := compileField_cases h
  exact ⟨f.kind, hf, fun fields hk => hkind.inside hk⟩

theorem compileField_name {name : String} {required : Bool} {schema : Schema} {f : Field}
    (h : compileField definitions name required schema = .ok f) : f.name = name := by
  obtain ⟨kind, rfl, -⟩ := compileField_eq_ok h
  rfl

theorem compileField_required {name : String} {required : Bool} {schema : Schema} {f : Field}
    (h : compileField definitions name required schema = .ok f) : f.required = required := by
  obtain ⟨kind, rfl, -⟩ := compileField_eq_ok h
  rfl

theorem compileField_readOnly {name : String} {required : Bool} {schema : Schema} {f : Field}
    (h : compileField definitions name required schema = .ok f) : f.readOnly = schema.readOnly := by
  obtain ⟨kind, rfl, -⟩ := compileField_eq_ok h
  rfl

theorem compileFields_eq_ok {required : List String} {properties : List (String × Schema)}
    {fields : List Field} (h : compileFields definitions required properties = .ok fields) :
    List.Forall₂ (fun e f => compileField definitions e.1 (required.contains e.1) e.2 = .ok f)
      properties fields := by
  induction properties generalizing fields with
  | nil =>
    unfold compileFields at h
    cases h
    exact .nil
  | cons e rest ih =>
    unfold compileFields at h
    obtain ⟨f, hf, h⟩ := Except.bind_eq_ok.1 h
    obtain ⟨more, hmore, rfl⟩ := Except.map_eq_ok.1 h
    exact .cons hf (ih hmore)

theorem exists_property {required : List String} {properties : List (String × Schema)}
    {fields : List Field} {f : Field}
    (h : compileFields definitions required properties = .ok fields) (hf : f ∈ fields) :
    ∃ e ∈ properties, compileField definitions e.1 (required.contains e.1) e.2 = .ok f := by
  have hall := compileFields_eq_ok h
  clear h
  induction hall with
  | nil => simp at hf
  | cons hfirst _ ih =>
    rcases List.mem_cons.1 hf with rfl | hf
    · exact ⟨_, List.mem_cons_self, hfirst⟩
    · obtain ⟨e, he, hef⟩ := ih hf
      exact ⟨e, List.mem_cons_of_mem _ he, hef⟩

theorem compile_eq_ok {schema : Schema} {r : Record} (h : compile definitions schema = .ok r) :
    compileFields definitions schema.required schema.properties = .ok r ∧
      checkMarks r = .ok r := by
  obtain ⟨_, _, _, properties, _, required, _, _, _⟩ := schema
  obtain ⟨_, _, h⟩ := Except.bind_eq_ok.1 h
  unfold compileObject at h
  obtain ⟨fields, hf, hm⟩ := Except.bind_eq_ok.1 h
  cases checkMarks_eq_ok hm
  exact ⟨hf, hm⟩

theorem compileFields_inputs {required : List String} {properties : List (String × Schema)}
    {fields : List Field} (h : compileFields definitions required properties = .ok fields) :
    (inputs fields).map (fun f => f.name) =
      (properties.filter fun e => !e.2.readOnly).map Prod.fst := by
  have hall := compileFields_eq_ok h
  clear h
  induction hall with
  | nil => rfl
  | @cons e f properties fields hfirst _ ih =>
    unfold inputs at ih ⊢
    rw [List.filter_cons, List.filter_cons, compileField_readOnly hfirst]
    cases e.2.readOnly with
    | false => simp [compileField_name hfirst, ih]
    | true => simpa using ih

end SwaggerProvider.Record
