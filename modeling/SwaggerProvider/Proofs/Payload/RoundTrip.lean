import Mathlib.Data.List.Nodup
import SwaggerProvider.Proofs.Json.Agreement
import SwaggerProvider.Proofs.Payload.Converter
import SwaggerProvider.Proofs.Record.Names

/-!
Payloads and states undo each other: going there and back, nothing of what requests carry is lost or
misplaced at any depth, if no two fields of a record share a name on either side.
-/

set_option autoImplicit false

namespace SwaggerProvider.Payload

open Record (distinct distinctBelow distinctBelow_iff distinct_iff)
open Swagger (Schema)

mutual

/-- A value other than null that has the form of the field. The members inside it stand under the
given names. -/
def fits (name : Field → String) : Field → Json → Bool
  | ⟨_, kind⟩, value => !value.isNull && kindFits name kind value

def kindFits (name : Field → String) : Kind Field → Json → Bool
  | .scalar _, _ | .scalars _, _ => true
  | .record fields, .object members => members.all fun e => memberFits name fields e.1 e.2
  | .records fields, .array items =>
    items.all fun item =>
      match item with
      | .object members => members.all fun e => memberFits name fields e.1 e.2
      | _ => false
  | _, _ => false

def memberFits (name : Field → String) : List Field → String → Json → Bool
  | [], _, _ => false
  | f :: rest, key, value =>
    (!f.readOnly && name f == key && fits name f value) || memberFits name rest key value

end

/-- Every member stands under the name of a field that requests carry, and fits it. -/
def conforms (name : Field → String) (r : Record) (members : Members) : Bool :=
  members.all fun e => memberFits name r e.1 e.2

theorem memberFits_iff (name : Field → String) (fields : List Field) (key : String) (value : Json) :
    memberFits name fields key value = true ↔
      ∃ f ∈ fields, f.readOnly = false ∧ name f = key ∧ fits name f value = true := by
  induction fields with
  | nil => simp [memberFits]
  | cons f rest ih => simp [memberFits, ih, and_assoc]

theorem conforms_get? {name : Field → String} {r : Record} {members : Members} {key : String}
    {value : Json} (h : conforms name r members = true) (hv : members.get? key = some value) :
    ∃ f ∈ r, f.readOnly = false ∧ name f = key ∧ fits name f value = true :=
  (memberFits_iff name r key value).1 (List.all_eq_true.1 h _ (Table.mem_of_get? hv))

theorem fits_isNull {name : Field → String} {f : Field} {value : Json}
    (h : fits name f value = true) : value.isNull = false := by
  obtain ⟨traits, kind⟩ := f
  simp only [fits, Bool.and_eq_true, Bool.not_eq_true'] at h
  exact h.1

theorem convert_isNull (c : Converter) {f : Field} {value : Json}
    (h : fits c.source f value = true) : (c.convert f value).isNull = false := by
  obtain ⟨traits, kind⟩ := f
  cases kind with
  | scalar type =>
    rw [c.convert_scalar]
    exact fits_isNull h
  | scalars type =>
    rw [c.convert_scalars]
    exact fits_isNull h
  | record fields =>
    cases value with
    | object members => rw [c.convert_record]; rfl
    | _ => simp [fits, kindFits] at h
  | records fields =>
    cases value with
    | array items => rw [c.convert_records]; rfl
    | _ => simp [fits, kindFits] at h

def Restores (there back : Converter) (f : Field) : Prop :=
  ∀ value, fits there.source f value = true →
    (back.convert f (there.convert f value)).Agrees value

/-- Members that fit are there again after both conversions, under the names they had. -/
theorem carry_carry (there back : Converter) (hsource : back.source = there.target)
    (htarget : back.target = there.source) {fields : List Field}
    (hs : (fields.map there.source).Nodup) (ht : (fields.map there.target).Nodup)
    {carried carriedBack : Field → Bool} {members : Members}
    (h : conforms there.source fields members = true)
    (hf : ∀ f ∈ fields, Restores there back f)
    (hc : ∀ f ∈ fields, f.readOnly = false → (members.get? (there.source f)).isSome = true →
      carried f = true ∧ carriedBack f = true) :
    (Json.object (carry back.source back.target carriedBack back.convert fields
      (carry there.source there.target carried there.convert fields members))).Agrees
      (.object members) := by
  rw [hsource, htarget]
  refine Json.agrees_object fun key => ?_
  by_cases hk : key ∈ fields.map there.source
  · obtain ⟨f, hfm, rfl⟩ := List.mem_map.1 hk
    unfold carry
    rw [Table.get?_gather_of_mem _ _ hs hfm, Table.get?_gather_of_mem _ _ ht hfm]
    cases hv : members.get? (there.source f) with
    | none => exact .none
    | some value =>
      obtain ⟨g, hg, hwritable, hname, hfits⟩ := conforms_get? h hv
      obtain rfl : g = f := List.inj_on_of_nodup_map hs hg hfm hname
      obtain ⟨hthere, hback⟩ := hc g hg hwritable (by rw [hv]; rfl)
      have hvalue := fits_isNull hfits
      have hconverted := convert_isNull there hfits
      simp only [hthere, hback, hvalue, hconverted, Bool.not_false, Bool.and_self, if_true,
        Option.bind_some]
      exact .some (hf g hg value hfits)
  · unfold carry
    rw [Table.get?_gather_of_notMem _ _ hk]
    cases hv : members.get? key with
    | none => exact .none
    | some value =>
      obtain ⟨g, hg, _, hname, _⟩ := conforms_get? h hv
      exact absurd (hname ▸ List.mem_map_of_mem hg) hk

theorem carry_restores {there back : Converter} (hsource : back.source = there.target)
    (htarget : back.target = there.source) {fields : List Field}
    (hs : distinct there.source fields = true) (ht : distinct there.target fields = true)
    (ih : ∀ f ∈ fields, distinctBelow there.source f = true →
      distinctBelow there.target f = true → Restores there back f)
    {members : Members} (h : conforms there.source fields members = true) :
    (Json.object (carry back.source back.target back.carried back.convert fields
      (carry there.source there.target there.carried there.convert fields members))).Agrees
      (.object members) := by
  obtain ⟨hs, hsBelow⟩ := (distinct_iff _ _).1 hs
  obtain ⟨ht, htBelow⟩ := (distinct_iff _ _).1 ht
  refine carry_carry there back hsource htarget hs ht h ?_ ?_
  · exact fun f hf => ih f hf (hsBelow f hf) (htBelow f hf)
  · exact fun f _ hw _ => ⟨there.carried_of_writable f hw, back.carried_of_writable f hw⟩

theorem restores {there back : Converter} (hsource : back.source = there.target)
    (htarget : back.target = there.source) {f : Field}
    (hs : distinctBelow there.source f = true) (ht : distinctBelow there.target f = true) :
    Restores there back f := by
  induction f using Field.induction with
  | scalar traits type =>
    intro value _
    rw [there.convert_scalar, back.convert_scalar]
    exact .refl _
  | scalars traits type =>
    intro value _
    rw [there.convert_scalars, back.convert_scalars]
    exact .refl _
  | record traits fields ih =>
    have hs := (distinctBelow_iff _ _).1 hs fields rfl
    have ht := (distinctBelow_iff _ _).1 ht fields rfl
    intro value h
    cases value with
    | object members =>
      rw [there.convert_record, back.convert_record]
      exact carry_restores hsource htarget hs ht (fun f hf hs ht => ih f hf hs ht) h
    | _ => simp [fits, kindFits] at h
  | records traits fields ih =>
    have hs := (distinctBelow_iff _ _).1 hs fields rfl
    have ht := (distinctBelow_iff _ _).1 ht fields rfl
    intro value h
    cases value with
    | array items =>
      rw [there.convert_records, back.convert_records, List.map_map]
      refine Json.agrees_array_map fun item hi => ?_
      have hitem := List.all_eq_true.1 h item hi
      cases item with
      | object members =>
        exact carry_restores hsource htarget hs ht (fun f hf hs ht => ih f hf hs ht) hitem
      | _ => simp at hitem
    | _ => simp [fits, kindFits] at h

/-- The two conversions undo each other on what requests carry. The host keeps the identifier of a
resource to itself, so at the outermost level a member for it has no way back. -/
theorem payload_state_round_trip {definitions : Table Schema} {schema : Schema} {r : Record}
    (h : Record.compile definitions schema = .ok r) (hnames : schema.distinct = true)
    (hhost : r.distinct Field.hostName = true) :
    (∀ state : Members, conforms Field.hostName r state = true →
      state.get? Record.idName = none →
      (Json.object (toState r (ofState r state) [])).Agrees (.object state)) ∧
    (∀ payload : Members, conforms (fun f => f.name) r payload = true →
      (∀ f ∈ r, f.hostName = Record.idName → payload.get? f.name = none) →
      (Json.object (ofState r (toState r payload []))).Agrees (.object payload)) := by
  have hwire := Record.compile_distinct h hnames
  obtain ⟨hhostNames, hhostBelow⟩ := (distinct_iff _ _).1 hhost
  obtain ⟨hwireNames, hwireBelow⟩ := (distinct_iff _ _).1 hwire
  constructor
  · intro state hstate hid
    rw [toState_eq_carry, show ofState r state = _ from payloadOf_eq_carry r state]
    refine carry_carry toPayload fromPayload rfl rfl hhostNames hwireNames hstate
      (fun f hf => restores rfl rfl (hhostBelow f hf) (hwireBelow f hf)) ?_
    intro f _ hw hpresent
    refine ⟨by rw [hw]; rfl, bne_iff_ne.2 fun hname => ?_⟩
    have habsent : state.get? f.hostName = none := hname ▸ hid
    rw [show toPayload.source f = f.hostName from rfl, habsent] at hpresent
    cases hpresent
  · intro payload hpayload hid
    rw [toState_eq_carry, show ofState r _ = _ from payloadOf_eq_carry r _]
    refine carry_carry fromPayload toPayload rfl rfl hwireNames hhostNames hpayload
      (fun f hf => restores rfl rfl (hwireBelow f hf) (hhostBelow f hf)) ?_
    intro f hf hw hpresent
    refine ⟨bne_iff_ne.2 fun hname => ?_, by rw [hw]; rfl⟩
    rw [show fromPayload.source f = f.name from rfl, hid f hf hname] at hpresent
    cases hpresent

def listenerText : Schema := { Schema.empty with type := some "string" }

def listenerNumber : Schema := { Schema.empty with type := some "integer" }

def listenerRule : Schema := { Schema.empty with
  type := some "object"
  properties := [("portNumber", listenerNumber),
    ("hitCount", { listenerNumber with readOnly := true })] }

def listener : Schema := { Schema.empty with
  type := some "object"
  properties := [
    ("id", { listenerText with readOnly := true }),
    ("displayName", { listenerText with
      extensions := [("x-terraform-field-name", .string "title")] }),
    ("limits", { Schema.empty with properties := [("maxSize", listenerNumber),
      ("id", listenerText)] }),
    ("rules", { Schema.empty with type := some "array", items := some listenerRule })] }

def listenerRecord : Record := (Record.compile [] listener).toOption.getD []

def listenerState : Members := [
  ("rules", .array [.object [("port_number", .ofInt 80)], .object []]),
  ("title", .string "edge"),
  ("limits", .object [("id", .string "a"), ("max_size", .ofInt 10)])]

def listenerPayload : Members := [
  ("displayName", .string "edge"),
  ("rules", .array [.object [("portNumber", .ofInt 80)], .object []])]

theorem payload_state_round_trip_listener :
    (Json.object (toState listenerRecord (ofState listenerRecord listenerState) [])).Agrees
      (.object listenerState) ∧
    (Json.object (ofState listenerRecord (toState listenerRecord listenerPayload []))).Agrees
      (.object listenerPayload) := by
  have hcompiled : Record.compile [] listener = .ok listenerRecord := rfl
  have h := payload_state_round_trip hcompiled (by decide) (by decide +kernel)
  have hid : ∀ f ∈ listenerRecord, f.hostName = Record.idName →
      listenerPayload.get? f.name = none := by decide +kernel
  exact ⟨h.1 listenerState (by decide +kernel) (by decide),
    h.2 listenerPayload (by decide +kernel) hid⟩

end SwaggerProvider.Payload
