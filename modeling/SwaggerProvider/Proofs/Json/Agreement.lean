import SwaggerProvider.Json.Basic

/-!
Values that hold the same, whatever the order of their members: every path of member names and item
positions leads to the same thing in both of them, or nowhere in both of them.
-/

set_option autoImplicit false

namespace SwaggerProvider.Json

/-- A step from a value to one inside it. -/
inductive Step where
  | member (name : String)
  | item (index : Nat)
  deriving DecidableEq

def step? : Json → Step → Option Json
  | .object members, .member name => Table.get? members name
  | .array items, .item index => items[index]?
  | _, _ => none

def at? : List Step → Json → Option Json
  | [], value => some value
  | step :: rest, value => (value.step? step).bind (at? rest)

/-- What a value shows without a look inside it. -/
inductive Face where
  | null
  | bool (value : Bool)
  | number (value : Number)
  | string (value : String)
  | array
  | object
  deriving DecidableEq

def face : Json → Face
  | .null => .null
  | .bool b => .bool b
  | .number n => .number n
  | .string s => .string s
  | .array _ => .array
  | .object _ => .object

def Agrees (a b : Json) : Prop := ∀ path, (at? path a).map face = (at? path b).map face

theorem Agrees.refl (a : Json) : a.Agrees a := fun _ => rfl

theorem Agrees.of_eq {a b : Json} (h : a = b) : a.Agrees b := fun _ => by rw [h]

theorem Agrees.trans {a b c : Json} (hab : a.Agrees b) (hbc : b.Agrees c) : a.Agrees c :=
  fun path => (hab path).trans (hbc path)

abbrev MayAgree : Option Json → Option Json → Prop := Option.Rel Agrees

theorem MayAgree.refl (a : Option Json) : MayAgree a a := by
  cases a with
  | none => exact .none
  | some value => exact .some (.refl value)

theorem MayAgree.bind {a b : Option Json} (h : MayAgree a b) (path : List Step) :
    (a.bind (at? path)).map face = (b.bind (at? path)).map face := by
  cases h with
  | none => rfl
  | some h => exact h path

theorem agrees_object {a b : Members} (h : ∀ name, MayAgree (a.get? name) (b.get? name)) :
    (Json.object a).Agrees (.object b) := by
  intro path
  cases path with
  | nil => rfl
  | cons step rest =>
    cases step with
    | member name => exact (h name).bind rest
    | item _ => rfl

theorem agrees_array {a b : List Json} (h : ∀ i : Nat, MayAgree a[i]? b[i]?) :
    (Json.array a).Agrees (.array b) := by
  intro path
  cases path with
  | nil => rfl
  | cons step rest =>
    cases step with
    | member _ => rfl
    | item i => exact (h i).bind rest

theorem agrees_array_map {items : List Json} {f : Json → Json}
    (h : ∀ item ∈ items, (f item).Agrees item) :
    (Json.array (items.map f)).Agrees (.array items) := by
  refine agrees_array fun i => ?_
  rw [List.getElem?_map]
  cases hi : items[i]? with
  | none => exact .none
  | some item => exact .some (h item (List.mem_of_getElem? hi))

end SwaggerProvider.Json
