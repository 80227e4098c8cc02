import SwaggerProvider.Payload
import SwaggerProvider.Proofs.Gather

/-!
States and payloads field by field: each is gathered from the fields of its record, so a lookup asks
one field only.
-/

set_option autoImplicit false

namespace SwaggerProvider.Payload

def sent? (state : Members) (f : Field) : Option Json :=
  match state.get? f.hostName with
  | some value => if f.readOnly || value.isNull then none else some (valueOfState f value)
  | none => none

def arrived? (payload : Members) (before : Option Json) (f : Field) : Option Json :=
  match payload.get? f.name with
  | some value => if value.isNull then before else some (valueOfPayload f value before)
  | none => before

def payloadOf (fields : List Field) (state : Members) : Members :=
  Table.ofEntries (entriesOfState fields state)

def stateOf (fields : List Field) (payload prior : Members) : Members :=
  Table.ofEntries (entriesOfPayload fields payload prior)

theorem payloadOf_eq_gather (fields : List Field) (state : Members) :
    payloadOf fields state = Table.gather (fun f => f.name) (sent? state) fields := by
  unfold payloadOf Table.gather
  congr 1
  induction fields with
  | nil => rfl
  | cons f rest ih =>
    rw [entriesOfState, List.filterMap_cons, ← ih]
    unfold sent?
    cases state.get? f.hostName with
    | none => rfl
    | some value =>
      by_cases h : (f.readOnly || value.isNull) = true
      · simp only [if_pos h, Option.map_none]
      · simp only [if_neg h, Option.map_some]

theorem stateOf_eq_gather (fields : List Field) (payload prior : Members) :
    stateOf fields payload prior =
      Table.gather Field.hostName (fun f => arrived? payload (prior.get? f.hostName) f) fields := by
  unfold stateOf Table.gather
  congr 1
  induction fields with
  | nil => rfl
  | cons f rest ih =>
    have hf : entriesOfPayload (f :: rest) payload prior =
        match arrived? payload (prior.get? f.hostName) f with
        | some value => (f.hostName, value) :: entriesOfPayload rest payload prior
        | none => entriesOfPayload rest payload prior := rfl
    rw [hf, List.filterMap_cons, ← ih]
    dsimp only
    cases arrived? payload (prior.get? f.hostName) f with
    | none => rfl
    | some value => rfl

end SwaggerProvider.Payload
