import SwaggerProvider.Proofs.Json.Agreement
import SwaggerProvider.Proofs.Payload.Entries

/-!
A payload that arrives a second time changes nothing: the state it made is kept, up to the order of
members. Several fields may share a host name; the order of members can change then, but not what
stands under the name.
-/

set_option autoImplicit false

namespace SwaggerProvider.Payload

open Json (Agrees MayAgree)

theorem keepOrder_keepOrder (anyOrder : Bool) (prior : Option Json) (items : List Json) :
    keepOrder anyOrder (some (keepOrder anyOrder prior items)) items =
      keepOrder anyOrder prior items := by
  have hitems : keepOrder anyOrder (some (.array items)) items = .array items := by
    simp only [keepOrder]
    split <;> rfl
  cases prior with
  | none => exact hitems
  | some before =>
    cases before with
    | array before =>
      by_cases h : (anyOrder && sameItems before items) = true
      · have hkept : keepOrder anyOrder (some (.array before)) items = .array before := if_pos h
        rw [hkept, hkept]
      · have hnew : keepOrder anyOrder (some (.array before)) items = .array items := if_neg h
        rw [hnew, hitems]
    | _ => exact hitems

def Stable (f : Field) : Prop :=
  ∀ value before, (valueOfPayload f value (some (valueOfPayload f value before))).Agrees
    (valueOfPayload f value before)

theorem arrived?_stable {payload : Members} {before : Option Json} {f : Field} {w : Json}
    (hf : Stable f) (h : arrived? payload before f = some w) :
    MayAgree (arrived? payload (some w) f) (some w) := by
  unfold arrived? at h ⊢
  cases hv : payload.get? f.name with
  | none => exact .refl _
  | some value =>
    simp only [hv] at h ⊢
    by_cases hn : value.isNull = true
    · rw [if_pos hn]
      exact .refl _
    · rw [if_neg hn] at h ⊢
      cases h
      exact .some (hf value before)

theorem arrived?_eq_none {payload : Members} {before : Option Json} {f : Field}
    (h : arrived? payload before f = none) :
    before = none ∧ ∀ w, arrived? payload (some w) f = some w := by
  unfold arrived? at h ⊢
  cases hv : payload.get? f.name with
  | none => simpa [hv] using h
  | some value =>
    simp only [hv] at h ⊢
    by_cases hn : value.isNull = true
    · rw [if_pos hn] at h
      exact ⟨h, fun w => if_pos hn⟩
    · simp [hn] at h

def shown? (payload : Members) (key : String) (fields : List Field) (before : Option Json) :
    Option Json :=
  (Table.gather Field.hostName (arrived? payload before) fields).get? key

theorem get?_stateOf (fields : List Field) (payload prior : Members) (key : String) :
    (stateOf fields payload prior).get? key = shown? payload key fields (prior.get? key) := by
  rw [stateOf_eq_gather]
  exact Table.get?_gather_congr Field.hostName fun f _ hf => by rw [hf]

theorem shown?_cons (payload : Members) (key : String) (f : Field) (rest : List Field)
    (before : Option Json) :
    shown? payload key (f :: rest) before =
      (shown? payload key rest before).or
        (if f.hostName = key then arrived? payload before f else none) :=
  Table.get?_gather_cons Field.hostName _ f rest key

theorem shown?_of_none {payload : Members} {key : String} {fields : List Field}
    {before : Option Json} (h : shown? payload key fields before = none) (w : Json) :
    shown? payload key fields (some w) = none ∨ shown? payload key fields (some w) = some w := by
  induction fields with
  | nil => exact .inl rfl
  | cons f rest ih =>
    rw [shown?_cons, Option.or_eq_none_iff] at h
    rw [shown?_cons]
    rcases ih h.1 with hr | hr
    · rw [hr, Option.none_or]
      by_cases hk : f.hostName = key
      · rw [if_pos hk] at h ⊢
        exact .inr ((arrived?_eq_none h.2).2 w)
      · exact .inl (if_neg hk)
    · rw [hr, Option.some_or]
      exact .inr rfl

/-- The last field with a value decides, and it decides the same way again. -/
theorem shown?_stable {payload : Members} {key : String} {fields : List Field}
    (hf : ∀ f ∈ fields, Stable f) (before : Option Json) :
    MayAgree (shown? payload key fields (shown? payload key fields before))
      (shown? payload key fields before) := by
  induction fields with
  | nil => exact .none
  | cons f rest ih =>
    have ihr := ih fun g hg => hf g (List.mem_cons_of_mem _ hg)
    simp only [shown?_cons]
    cases hr : shown? payload key rest before with
    | some w =>
      rw [hr] at ihr
      rw [Option.some_or]
      cases hw : shown? payload key rest (some w) with
      | none => rw [hw] at ihr; cases ihr
      | some w' => rw [hw] at ihr; simpa using ihr
    | none =>
      rw [hr] at ihr
      rw [Option.none_or]
      by_cases hk : f.hostName = key
      · simp only [if_pos hk]
        cases ha : arrived? payload before f with
        | some w =>
          rcases shown?_of_none hr w with hw | hw
          · rw [hw, Option.none_or]
            exact arrived?_stable (hf f List.mem_cons_self) ha
          · rw [hw, Option.some_or]
            exact .refl _
        | none =>
          have hb := (arrived?_eq_none ha).1
          subst hb
          rw [hr, ha]
          exact .none
      · simp only [if_neg hk]
        cases hw : shown? payload key rest none with
        | none => exact .none
        | some w => rw [hw] at ihr; cases ihr

theorem stable (f : Field) : Stable f := by
  induction f using Field.induction with
  | scalar traits type => exact fun value before => .refl _
  | scalars traits type =>
    intro value before
    cases value with
    | array items => exact .of_eq (keepOrder_keepOrder traits.anyOrder before items)
    | _ => exact .refl _
  | record traits fields ih =>
    intro value before
    cases value with
    | object payload =>
      refine Json.agrees_object fun name => ?_
      change MayAgree ((stateOf fields payload (stateOf fields payload _)).get? name)
        ((stateOf fields payload _).get? name)
      simp only [get?_stateOf]
      exact shown?_stable ih _
    | _ => exact .refl _
  | records traits fields ih =>
    intro value before
    cases value with
    | array items => exact .of_eq (keepOrder_keepOrder traits.anyOrder before _)
    | _ => exact .refl _

end SwaggerProvider.Payload
