import SwaggerProvider.Proofs.Record.Compile

/-!
Names that differ. A schema has one property for each name, at every depth, and so do the records
that are compiled from it; their host names may still coincide.
-/

set_option autoImplicit false

namespace SwaggerProvider

namespace Swagger

mutual

/-- No object of the schema has two properties of one name. -/
def Schema.distinct : Schema → Bool
  | ⟨_, _, _, properties, items, _, _, _, _⟩ =>
    decide (properties.map Prod.fst).Nodup && propertiesDistinct properties && itemsDistinct items

def propertiesDistinct : List (String × Schema) → Bool
  | [] => true
  | (_, schema) :: rest => schema.distinct && propertiesDistinct rest

def itemsDistinct : Option Schema → Bool
  | none => true
  | some items => items.distinct

end

theorem propertiesDistinct_iff (properties : List (String × Schema)) :
    propertiesDistinct properties = true ↔ ∀ e ∈ properties, e.2.distinct = true := by
  induction properties with
  | nil => simp [propertiesDistinct]
  | cons e rest ih => simp [propertiesDistinct, ih]

theorem Schema.distinct_iff (schema : Schema) :
    schema.distinct = true ↔ (schema.properties.map Prod.fst).Nodup ∧
      (∀ e ∈ schema.properties, e.2.distinct = true) ∧
      ∀ items, schema.items = some items → items.distinct = true := by
  obtain ⟨_, _, _, properties, items, _, _, _, _⟩ := schema
  rw [Schema.distinct, Bool.and_eq_true, Bool.and_eq_true, decide_eq_true_eq,
    propertiesDistinct_iff, and_assoc]
  cases items <;> simp [itemsDistinct]

end Swagger

namespace Record

open Swagger (Schema)

mutual

def distinctBelow (name : Field → String) : Field → Bool
  | ⟨_, kind⟩ => kindDistinct name kind

def kindDistinct (name : Field → String) : Kind Field → Bool
  | .record fields => decide (fields.map name).Nodup && allDistinctBelow name fields
  | .records fields => decide (fields.map name).Nodup && allDistinctBelow name fields
  | .scalar _ | .scalars _ => true

def allDistinctBelow (name : Field → String) : List Field → Bool
  | [] => true
  | f :: rest => distinctBelow name f && allDistinctBelow name rest

end

/-- The fields of the record have different names, and so have those of every record inside it. -/
def distinct (name : Field → String) (r : Record) : Bool := kindDistinct name (.record r)

theorem allDistinctBelow_iff (name : Field → String) (fields : List Field) :
    allDistinctBelow name fields = true ↔ ∀ f ∈ fields, distinctBelow name f = true := by
  induction fields with
  | nil => simp [allDistinctBelow]
  | cons f rest ih => simp [allDistinctBelow, ih]

@[simp] theorem distinctBelow_iff (name : Field → String) (f : Field) :
    distinctBelow name f = true ↔
      ∀ fields, f.kind.fields? = some fields → distinct name fields = true := by
  obtain ⟨traits, kind⟩ := f
  cases kind <;> simp [distinctBelow, kindDistinct, distinct, Kind.fields?]

theorem distinct_iff (name : Field → String) (r : Record) :
    distinct name r = true ↔ (r.map name).Nodup ∧ ∀ f ∈ r, distinctBelow name f = true := by
  have h : distinct name r = (decide (r.map name).Nodup && allDistinctBelow name r) := rfl
  rw [h, Bool.and_eq_true, decide_eq_true_eq, allDistinctBelow_iff]

theorem distinct_of_mem {name : Field → String} {r inner : Record} {f : Field}
    (h : r.distinct name = true) (hf : f ∈ r) (hinner : f.kind.fields? = some inner) :
    inner.distinct name = true :=
  (distinctBelow_iff name f).1 (((distinct_iff name r).1 h).2 f hf) inner hinner

variable {definitions : Table Schema}

theorem compileFields_names {required : List String} {properties : List (String × Schema)}
    {fields : List Field} (h : compileFields definitions required properties = .ok fields) :
    fields.map (fun f => f.name) = properties.map Prod.fst := by
  have hall := compileFields_eq_ok h
  clear h
  induction hall with
  | nil => rfl
  | cons hfirst _ ih => simp [compileField_name hfirst, ih]

theorem inside_distinct {schema : Schema} {fields : List Field} (hs : schema.distinct = true)
    (h : Inside definitions schema fields) : distinct (fun f => f.name) fields = true := by
  induction schema using Schema.induction generalizing fields with
  | step schema ihProperties ihItems =>
    obtain ⟨hnames, hproperties, hitems⟩ := schema.distinct_iff.1 hs
    rcases h with h | ⟨items, hi, h⟩
    · rw [distinct_iff, compileFields_names h]
      refine ⟨hnames, fun f hf => (distinctBelow_iff _ f).2 fun inner hinner => ?_⟩
      obtain ⟨e, he, hef⟩ := exists_property h hf
      obtain ⟨kind, rfl, hkind⟩ := compileField_eq_ok hef
      exact ihProperties e he (hproperties e he) (hkind inner hinner)
    · exact ihItems items hi (hitems items hi) (.inl h)

theorem compile_distinct {schema : Schema} {r : Record} (h : compile definitions schema = .ok r)
    (hs : schema.distinct = true) : r.distinct (fun f => f.name) = true :=
  inside_distinct hs (.inl (compile_eq_ok h).1)

end Record

end SwaggerProvider
