import SwaggerProvider.Proofs.Payload.Entries

/-!
What the conversions of states and payloads have in common: both put members under other names and
leave some out, at every depth in the same way.
-/

set_option autoImplicit false

namespace SwaggerProvider.Payload

def carry (source target : Field → String) (carried : Field → Bool) (convert : Field → Json → Json)
    (fields : List Field) (members : Members) : Members :=
  Table.gather target (fun f => (members.get? (source f)).bind fun value =>
    if carried f && !value.isNull then some (convert f value) else none) fields

def onObject (change : Members → Members) : Json → Json
  | .object members => .object (change members)
  | other => other

structure Converter where
  source : Field → String
  target : Field → String
  carried : Field → Bool
  convert : Field → Json → Json
  carried_of_writable : ∀ f, f.readOnly = false → carried f = true
  convert_scalar : ∀ traits type value, convert ⟨traits, .scalar type⟩ value = value
  convert_scalars : ∀ traits type value, convert ⟨traits, .scalars type⟩ value = value
  convert_record : ∀ traits fields members, convert ⟨traits, .record fields⟩ (.object members) =
    .object (carry source target carried convert fields members)
  convert_records : ∀ traits fields items, convert ⟨traits, .records fields⟩ (.array items) =
    .array (items.map (onObject (carry source target carried convert fields)))

theorem payloadOf_eq_carry (fields : List Field) (state : Members) :
    payloadOf fields state =
      carry Field.hostName (fun f => f.name) (fun f => !f.readOnly) valueOfState fields state := by
  rw [payloadOf_eq_gather, carry]
  congr 1
  funext f
  unfold sent?
  cases state.get? f.hostName with
  | none => rfl
  | some value => cases f.readOnly <;> cases hn : value.isNull <;> simp [hn]

theorem stateOf_eq_carry (fields : List Field) (payload : Members) :
    stateOf fields payload [] =
      carry (fun f => f.name) Field.hostName (fun _ => true)
        (fun f value => valueOfPayload f value none) fields payload := by
  rw [stateOf_eq_gather, carry]
  congr 1
  funext f
  unfold arrived?
  cases payload.get? f.name with
  | none => rfl
  | some value => cases hn : value.isNull <;> simp [hn]

theorem toState_eq_carry (r : Record) (payload : Members) :
    toState r payload [] =
      carry (fun f => f.name) Field.hostName (fun f => f.hostName != Record.idName)
        (fun f value => valueOfPayload f value none) r payload := by
  change stateOf (r.filter fun f => f.hostName != Record.idName) payload [] = _
  rw [stateOf_eq_carry]
  unfold carry Table.gather
  rw [List.filterMap_filter]
  congr 2
  funext f
  cases hid : f.hostName != Record.idName <;> cases hv : Table.get? payload f.name <;>
    simp only [hid, hv, Bool.false_and, Bool.true_and, Bool.false_eq_true, if_true, if_false,
      Option.bind_none, Option.bind_some, Option.map_none]

def toPayload : Converter where
  source := Field.hostName
  target := fun f => f.name
  carried := fun f => !f.readOnly
  convert := valueOfState
  carried_of_writable := fun f h => by rw [h]; rfl
  convert_scalar := fun _ _ _ => rfl
  convert_scalars := fun _ _ _ => rfl
  convert_record := fun _ fields members => by
    rw [← payloadOf_eq_carry]
    rfl
  convert_records := fun _ fields items => by
    refine congrArg Json.array (List.map_congr_left fun item _ => ?_)
    cases item with
    | object members => exact congrArg Json.object (payloadOf_eq_carry fields members)
    | _ => rfl

def fromPayload : Converter where
  source := fun f => f.name
  target := Field.hostName
  carried := fun _ => true
  convert := fun f value => valueOfPayload f value none
  carried_of_writable := fun _ _ => rfl
  convert_scalar := fun _ _ _ => rfl
  convert_scalars := fun traits type value => by cases value <;> rfl
  convert_record := fun _ fields members => by
    rw [← stateOf_eq_carry]
    rfl
  convert_records := fun traits fields items => by
    refine congrArg Json.array (List.map_congr_left fun item _ => ?_)
    cases item with
    | object members => exact congrArg Json.object (stateOf_eq_carry fields members)
    | _ => rfl

end SwaggerProvider.Payload
