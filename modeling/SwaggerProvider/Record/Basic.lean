import SwaggerProvider.Error
import SwaggerProvider.Json.Basic
import SwaggerProvider.Text.SnakeCase

/-!
Records: the compiled form of object schemas. A field has a wire name, under which the API knows
it, and a host name. A list whose items are lists has no kind here.
-/

set_option autoImplicit false

namespace SwaggerProvider

inductive Scalar where
  | string
  | integer
  | number
  | bool
  deriving DecidableEq

/-- What a field holds: a scalar, a list of scalars, a record or a list of records. -/
inductive Kind (φ : Type) where
  | scalar (type : Scalar)
  | scalars (type : Scalar)
  | record (fields : List φ)
  | records (fields : List φ)

namespace Kind

variable {φ : Type}

def fields? : Kind φ → Option (List φ)
  | .record fields | .records fields => some fields
  | .scalar _ | .scalars _ => none

def isList : Kind φ → Bool
  | .scalars _ | .records _ => true
  | .scalar _ | .record _ => false

def isScalar : Kind φ → Bool
  | .scalar _ => true
  | _ => false

end Kind

structure Traits where
  name : String
  preferred : Option String
  required : Bool
  readOnly : Bool
  computed : Bool
  forceNew : Bool
  immutable : Bool
  sensitive : Bool
  identifier : Bool
  status : Bool
  anyOrder : Bool
  default : Option Json
  description : Option String

structure Field extends Traits where
  kind : Kind Field

abbrev Record := List Field

namespace Traits

def hostName (t : Traits) : String := Text.snakeCase (t.preferred.getD t.name)

/-- The host may leave the field out, and the API then fills it in. -/
def isOptionalComputed (t : Traits) : Bool :=
  !t.required && !t.readOnly && (t.computed || t.default.isSome)

def isComputed (t : Traits) : Bool := t.readOnly || t.isOptionalComputed

end Traits

namespace Field

def hostName (f : Field) : String := f.toTraits.hostName

/-- What holds of a field when it holds of the fields inside it, holds of every field. -/
theorem induction {motive : Field → Prop}
    (scalar : ∀ traits type, motive ⟨traits, .scalar type⟩)
    (scalars : ∀ traits type, motive ⟨traits, .scalars type⟩)
    (record : ∀ traits fields, (∀ f ∈ fields, motive f) → motive ⟨traits, .record fields⟩)
    (records : ∀ traits fields, (∀ f ∈ fields, motive f) → motive ⟨traits, .records fields⟩)
    (f : Field) : motive f := by
  refine @Field.rec motive (fun kind => ∀ traits, motive ⟨traits, kind⟩)
    (fun fields => ∀ f ∈ fields, motive f)
    (fun traits kind ih => ih traits) (fun type traits => scalar traits type)
    (fun type traits => scalars traits type) (fun fields ih traits => record traits fields ih)
    (fun fields ih traits => records traits fields ih) ?_ ?_ f
  · intro f h
    exact absurd h List.not_mem_nil
  · intro first rest ihFirst ihRest f h
    rcases List.mem_cons.1 h with rfl | h
    · exact ihFirst
    · exact ihRest f h

end Field

namespace Record

def idName : String := "id"

def statusName : String := "status"

def field? (r : Record) (name : String) : Option Field :=
  r.find? fun f => f.name == name || f.hostName == name

def inputs (r : Record) : Record := r.filter fun f => !f.readOnly

def identifier? (r : Record) : Option Field :=
  match r.find? fun f => f.identifier with
  | some f => some f
  | none => r.find? fun f => f.hostName == idName

/-- A resource needs an identifier, and at most one marked field. -/
def checkIdentifier (r : Record) : Except Error Field :=
  let marked := (r.filter fun f => f.identifier).length
  if 1 < marked then .error (.resourceCompilation "" (.severalIdentifiers marked))
  else match r.identifier? with
    | some f => .ok f
    | none => .error (.resourceCompilation "" .noIdentifier)

mutual

/-- Looks for a marked status field below a field that is itself a record. -/
def statusBelow : Field → Option (List String)
  | ⟨traits, kind⟩ => (statusOfKind kind).map (traits.name :: ·)

def statusOfKind : Kind Field → Option (List String)
  | .record fields =>
    match fields.find? fun f => f.status with
    | some f => some [f.name]
    | none => firstBelow fields
  | _ => none

def firstBelow : List Field → Option (List String)
  | [] => none
  | f :: rest =>
    match statusBelow f with
    | some path => some path
    | none => firstBelow rest

end

/-- The path to the marked status field; a mark in the record itself comes before all deeper
ones. -/
def markedStatus? (r : Record) : Option (List String) := statusOfKind (.record r)

/-- The path to the status: the marked field, or else the field `status` of the record itself. -/
def statusPath? (r : Record) : Option (List String) :=
  match r.markedStatus? with
  | some path => some path
  | none => (r.find? fun f => f.hostName == statusName).map fun f => [f.name]

end Record

end SwaggerProvider
