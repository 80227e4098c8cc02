import SwaggerProvider.Json.Printer
import SwaggerProvider.Log.Basic
import SwaggerProvider.Record.Basic

/-!
Values of a record on both sides of it: states, which the host keeps under host names, and
payloads, which the API knows under wire names. What does not have the form of the record passes
through as it is.
-/

set_option autoImplicit false

namespace SwaggerProvider.Payload

mutual

/-- The entries of a payload: the fields that requests carry, where the state has a value. -/
def entriesOfState : List Field → Members → List (String × Json)
  | [], _ => []
  | f :: rest, state =>
    match state.get? f.hostName with
    | some value =>
      if f.readOnly || value.isNull then entriesOfState rest state
      else (f.name, valueOfState f value) :: entriesOfState rest state
    | none => entriesOfState rest state

def valueOfState : Field → Json → Json
  | ⟨_, kind⟩, value => kindOfState kind value

def kindOfState : Kind Field → Json → Json
  | .record fields, .object state => .object (Table.ofEntries (entriesOfState fields state))
  | .records fields, .array items =>
    .array (items.map fun item =>
      match item with
      | .object state => .object (Table.ofEntries (entriesOfState fields state))
      | other => other)
  | _, value => value

end

def ofState (r : Record) (state : Members) : Members := Table.ofEntries (entriesOfState r state)

def takeItem? (item : Json) : List Json → Option (List Json)
  | [] => none
  | other :: rest =>
    if item.same other then some rest else (takeItem? item rest).map (other :: ·)

def sameItems : List Json → List Json → Bool
  | [], [] => true
  | [], _ :: _ => false
  | item :: rest, others =>
    match takeItem? item others with
    | some left => sameItems rest left
    | none => false

/-- A list that came back in another order keeps the order it had. -/
def keepOrder (anyOrder : Bool) (prior : Option Json) (items : List Json) : Json :=
  match prior with
  | some (.array before) =>
    if anyOrder && sameItems before items then .array before else .array items
  | _ => .array items

mutual

/-- The entries of a state. A field without a value in the payload keeps the one it had. -/
def entriesOfPayload : List Field → Members → Members → List (String × Json)
  | [], _, _ => []
  | f :: rest, payload, prior =>
    let before := prior.get? f.hostName
    let value := match payload.get? f.name with
      | some value => if value.isNull then before else some (valueOfPayload f value before)
      | none => before
    match value with
    | some value => (f.hostName, value) :: entriesOfPayload rest payload prior
    | none => entriesOfPayload rest payload prior

def valueOfPayload : Field → Json → Option Json → Json
  | ⟨traits, kind⟩, value, prior => kindOfPayload traits.anyOrder kind value prior

def kindOfPayload (anyOrder : Bool) : Kind Field → Json → Option Json → Json
  | .record fields, .object payload, prior =>
    .object (Table.ofEntries (entriesOfPayload fields payload ((prior.bind Json.members?).getD [])))
  | .records fields, .array items, prior =>
    keepOrder anyOrder prior (items.map fun item =>
      match item with
      | .object payload => .object (Table.ofEntries (entriesOfPayload fields payload []))
      | other => other)
  | .scalars _, .array items, prior => keepOrder anyOrder prior items
  | _, value, _ => value

end

/-- The state after a payload has arrived. The identifier of the host is kept apart. -/
def toState (r : Record) (payload prior : Members) : Members :=
  Table.ofEntries
    (entriesOfPayload (r.filter fun f => f.hostName != Record.idName) payload prior)

def identifier? (r : Record) (payload : Members) : Option String := do
  let f ← r.identifier?
  (← payload.get? f.name).scalarText?

def valueAt? : List String → Members → Option Json
  | [], _ => none
  | [name], payload => payload.get? name
  | name :: rest, payload => do valueAt? rest (← (← payload.get? name).members?)

def status? (r : Record) (payload : Members) : Option String := do
  (← valueAt? (← r.statusPath?) payload).scalarText?

/-- What is known of a wire name: nothing, that its values are secret, or the fields below it. -/
inductive Secrecy where
  | unknown
  | secret
  | below (fields : List Field)

def secrecy (r : Record) (name : String) : Secrecy :=
  match r.find? fun f => f.name == name with
  | none => .unknown
  | some f =>
    if f.sensitive then .secret
    else match f.kind.fields? with
      | some fields => .below fields
      | none => .unknown

mutual

def mask (r : Record) : Json → Json
  | .object members => .object (maskMembers r members)
  | .array items => .array (maskItems r items)
  | other => other

def maskMembers (r : Record) : List (String × Json) → List (String × Json)
  | [] => []
  | (name, value) :: rest =>
    (name, match secrecy r name with
      | .unknown => value
      | .secret => if value.isNull then value else .string Log.redacted
      | .below fields => mask fields value) :: maskMembers r rest

def maskItems (r : Record) : List Json → List Json
  | [] => []
  | item :: rest => mask r item :: maskItems r rest

end

end SwaggerProvider.Payload
