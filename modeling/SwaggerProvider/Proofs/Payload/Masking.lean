import SwaggerProvider.Payload

/-!
What the log shows of a body does not depend on its secrets: bodies that differ only in values of
sensitive fields, at whatever depth, look the same.
-/

set_option autoImplicit false

namespace SwaggerProvider.Payload

mutual

/-- Bodies of a record that differ in nothing but the values of sensitive fields, and there only in
values that are not null. -/
inductive Alike : Record → Json → Json → Prop where
  | same (r : Record) (value : Json) : Alike r value value
  | object {r : Record} {members others : List (String × Json)}
    (each : AlikeMembers r members others) : Alike r (.object members) (.object others)
  | array {r : Record} {items others : List Json} (each : AlikeItems r items others) :
    Alike r (.array items) (.array others)

inductive AlikeMembers : Record → List (String × Json) → List (String × Json) → Prop where
  | nil (r : Record) : AlikeMembers r [] []
  | same {r : Record} (name : String) (value : Json) {members others : List (String × Json)}
    (rest : AlikeMembers r members others) :
    AlikeMembers r ((name, value) :: members) ((name, value) :: others)
  | secret {r : Record} {name : String} {f : Field} {value other : Json}
    {members others : List (String × Json)}
    (field : r.find? (fun f => f.name == name) = some f) (sensitive : f.sensitive = true)
    (given : value.isNull = false) (otherGiven : other.isNull = false)
    (rest : AlikeMembers r members others) :
    AlikeMembers r ((name, value) :: members) ((name, other) :: others)
  | nested {r : Record} {name : String} {f : Field} {fields : List Field} {value other : Json}
    {members others : List (String × Json)}
    (field : r.find? (fun f => f.name == name) = some f) (below : f.kind.fields? = some fields)
    (alike : Alike fields value other) (rest : AlikeMembers r members others) :
    AlikeMembers r ((name, value) :: members) ((name, other) :: others)

inductive AlikeItems : Record → List Json → List Json → Prop where
  | nil (r : Record) : AlikeItems r [] []
  | cons {r : Record} {item other : Json} {items others : List Json} (alike : Alike r item other)
    (rest : AlikeItems r items others) : AlikeItems r (item :: items) (other :: others)

end

section Secrecy

variable {r : Record} {name : String} {f : Field}

theorem secrecy_of_sensitive (hfield : r.find? (fun f => f.name == name) = some f)
    (hsensitive : f.sensitive = true) : secrecy r name = .secret := by
  rw [secrecy, hfield]
  exact if_pos hsensitive

theorem secrecy_of_nested {fields : List Field}
    (hfield : r.find? (fun f => f.name == name) = some f) (hplain : f.sensitive = false)
    (hnested : f.kind.fields? = some fields) : secrecy r name = .below fields := by
  rw [secrecy, hfield]
  simp [hplain, hnested]

end Secrecy

mutual

theorem mask_eq_of_alike {r : Record} {value other : Json} :
    Alike r value other → mask r value = mask r other
  | .same _ _ => rfl
  | .object each => by rw [mask, mask, maskMembers_eq_of_alike each]
  | .array each => by rw [mask, mask, maskItems_eq_of_alike each]

theorem maskMembers_eq_of_alike {r : Record} {members others : List (String × Json)} :
    AlikeMembers r members others → maskMembers r members = maskMembers r others
  | .nil _ => rfl
  | .same name value rest => by rw [maskMembers, maskMembers, maskMembers_eq_of_alike rest]
  | .secret field sensitive given otherGiven rest => by
    rw [maskMembers, maskMembers, maskMembers_eq_of_alike rest,
      secrecy_of_sensitive field sensitive]
    simp [given, otherGiven]
  | .nested (f := f) field below alike rest => by
    have hvalue := mask_eq_of_alike alike
    rw [maskMembers, maskMembers, maskMembers_eq_of_alike rest]
    cases hsensitive : f.sensitive with
    | true =>
      rw [secrecy_of_sensitive field hsensitive]
      cases alike <;> rfl
    | false =>
      rw [secrecy_of_nested field hsensitive below]
      dsimp only
      rw [hvalue]

theorem maskItems_eq_of_alike {r : Record} {items others : List Json} :
    AlikeItems r items others → maskItems r items = maskItems r others
  | .nil _ => rfl
  | .cons alike rest => by
    rw [maskItems, maskItems, mask_eq_of_alike alike, maskItems_eq_of_alike rest]

end

end SwaggerProvider.Payload
