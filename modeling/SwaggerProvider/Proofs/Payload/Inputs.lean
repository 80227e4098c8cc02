import SwaggerProvider.Lifecycle
import SwaggerProvider.Proofs.Json.Agreement
import SwaggerProvider.Proofs.Payload.Converter
import SwaggerProvider.Proofs.Record.Names

/-!
What a request takes from a state. Wherever an object of the state is converted, its payload has a
member for each field that is not read-only and has a value, and no other; nothing else of the state
shows in the payload.
-/

set_option autoImplicit false

namespace SwaggerProvider.Payload

open Lifecycle (given)

theorem sent?_eq (state : Members) (f : Field) :
    sent? state f =
      if f.readOnly then none else (given state f.hostName).map (kindOfState f.kind) := by
  have hvalue (value : Json) : valueOfState f value = kindOfState f.kind value := by
    cases f
    rfl
  unfold sent? given
  cases state.get? f.hostName with
  | none => simp
  | some value =>
    cases f.readOnly <;> cases hnull : value.isNull <;> simp [Option.filter, hnull, hvalue]

theorem mem_keys_payloadOf {fields : List Field} {state : Members} {key : String} :
    key ∈ (payloadOf fields state).keys ↔ ∃ f ∈ fields,
      f.readOnly = false ∧ f.name = key ∧ (given state f.hostName).isSome = true := by
  rw [payloadOf_eq_gather, Table.mem_keys_gather]
  refine exists_congr fun f => and_congr_right fun _ => ?_
  rw [sent?_eq]
  cases f.readOnly <;> simp

@[simp] theorem kindOfState_record (fields : List Field) (state : Members) :
    kindOfState (.record fields) (.object state) = .object (payloadOf fields state) := rfl

@[simp] theorem kindOfState_records (fields : List Field) (items : List Json) :
    kindOfState (.records fields) (.array items) =
      .array (items.map (onObject (payloadOf fields))) := by
  refine congrArg Json.array (List.map_congr_left fun item _ => ?_)
  cases item <;> rfl

/-- The objects of a state that are converted, with the record that each is for: the state itself,
and what stands in fields that requests carry as a record or as an item of a list of records. The
host names lead to them in the state, the steps to their payloads. -/
inductive Converts :
    Record → Members → List String → List Json.Step → Record → Members → Prop
  | here (fields : Record) (state : Members) : Converts fields state [] [] fields state
  | record {fields inner target : Record} {state below last : Members} {hosts : List String}
    {way : List Json.Step} {f : Field} (mem : f ∈ fields) (writable : f.readOnly = false)
    (kind : f.kind = .record inner) (value : state.get? f.hostName = some (.object below))
    (next : Converts inner below hosts way target last) :
    Converts fields state (f.hostName :: hosts) (.member f.name :: way) target last
  | item {fields inner target : Record} {state below last : Members} {hosts : List String}
    {way : List Json.Step} {f : Field} {items : List Json} {i : Nat} (mem : f ∈ fields)
    (writable : f.readOnly = false) (kind : f.kind = .records inner)
    (value : state.get? f.hostName = some (.array items)) (item : items[i]? = some (.object below))
    (next : Converts inner below hosts way target last) :
    Converts fields state (f.hostName :: hosts) (.member f.name :: .item i :: way) target last

section Converted

variable {fields target : Record} {state last : Members} {hosts : List String}
  {way : List Json.Step}

theorem get?_payloadOf {f : Field} {value : Json}
    (hnames : fields.distinct (fun f => f.name) = true) (hf : f ∈ fields)
    (hwritable : f.readOnly = false) (hgiven : given state f.hostName = some value) :
    (payloadOf fields state).get? f.name = some (kindOfState f.kind value) := by
  have hhere := ((Record.distinct_iff _ _).1 hnames).1
  rw [payloadOf_eq_gather, Table.get?_gather_of_mem (fun f => f.name) _ hhere hf, sent?_eq,
    hwritable, hgiven]
  rfl

theorem Converts.at?_eq (h : Converts fields state hosts way target last)
    (hnames : fields.distinct (fun f => f.name) = true) :
    (Json.object (payloadOf fields state)).at? way = some (.object (payloadOf target last)) := by
  induction h with
  | here => rfl
  | record mem writable kind value next ih =>
    have hfound := get?_payloadOf hnames mem writable (by rw [given, value]; rfl)
    rw [kind, kindOfState_record] at hfound
    rw [Json.at?, Json.step?, hfound]
    exact ih (Record.distinct_of_mem hnames mem (by rw [kind]; rfl))
  | item mem writable kind value item next ih =>
    have hfound := get?_payloadOf hnames mem writable (by rw [given, value]; rfl)
    rw [kind, kindOfState_records] at hfound
    rw [Json.at?, Json.step?, hfound, Option.bind_some, Json.at?, Json.step?, List.getElem?_map,
      item]
    exact ih (Record.distinct_of_mem hnames mem (by rw [kind]; rfl))

end Converted

mutual

/-- States with the same values in the fields that requests carry, down to every field inside. -/
inductive SameInputs : Record → Members → Members → Prop
  | intro {fields : Record} {state other : Members}
    (same : ∀ f ∈ fields, f.readOnly = false →
      SameGiven f.kind (given state f.hostName) (given other f.hostName)) :
    SameInputs fields state other

inductive SameGiven : Kind Field → Option Json → Option Json → Prop
  | none (kind : Kind Field) : SameGiven kind none none
  | some {kind : Kind Field} {value other : Json} (same : SameValue kind value other) :
    SameGiven kind (some value) (some other)

inductive SameValue : Kind Field → Json → Json → Prop
  | equal (kind : Kind Field) (value : Json) : SameValue kind value value
  | record {fields : Record} {state other : Members} (same : SameInputs fields state other) :
    SameValue (.record fields) (.object state) (.object other)
  | records {fields : Record} {items others : List Json} (same : SameItems fields items others) :
    SameValue (.records fields) (.array items) (.array others)

inductive SameItems : Record → List Json → List Json → Prop
  | nil (fields : Record) : SameItems fields [] []
  | equal {fields : Record} {items others : List Json} (item : Json)
    (rest : SameItems fields items others) : SameItems fields (item :: items) (item :: others)
  | object {fields : Record} {state other : Members} {items others : List Json}
    (same : SameInputs fields state other) (rest : SameItems fields items others) :
    SameItems fields (.object state :: items) (.object other :: others)

end

theorem SameGiven.of_eq {kind : Kind Field} {value other : Option Json} (h : value = other) :
    SameGiven kind value other := by
  subst h
  cases value with
  | none => exact .none kind
  | some value => exact .some (.equal kind value)

mutual

theorem SameInputs.payloadOf_eq {fields : Record} {state other : Members} :
    SameInputs fields state other → payloadOf fields state = payloadOf fields other
  | .intro same => by
    rw [payloadOf_eq_gather, payloadOf_eq_gather]
    refine Table.gather_congr _ fun f hf => ?_
    rw [sent?_eq, sent?_eq]
    cases hwritable : f.readOnly with
    | true => rfl
    | false => exact (same f hf hwritable).map_eq

theorem SameGiven.map_eq {kind : Kind Field} {value other : Option Json} :
    SameGiven kind value other → value.map (kindOfState kind) = other.map (kindOfState kind)
  | .none _ => rfl
  | .some same => congrArg some same.kindOfState_eq

theorem SameValue.kindOfState_eq {kind : Kind Field} {value other : Json} :
    SameValue kind value other → kindOfState kind value = kindOfState kind other
  | .equal _ _ => rfl
  | .record same => by simp [same.payloadOf_eq]
  | .records same => by simp [same.map_eq]

theorem SameItems.map_eq {fields : Record} {items others : List Json} :
    SameItems fields items others →
      items.map (onObject (payloadOf fields)) = others.map (onObject (payloadOf fields))
  | .nil _ => rfl
  | .equal _ rest => by rw [List.map_cons, List.map_cons, rest.map_eq]
  | .object same rest => by
    rw [List.map_cons, List.map_cons, rest.map_eq, onObject, onObject, same.payloadOf_eq]

end

end SwaggerProvider.Payload
