import SwaggerProvider.Swagger.Merge

/-!
What a body can set. Merging the schemas of a request and its response keeps what the request can
set and requires, and makes all else read only.
-/

set_option autoImplicit false

namespace SwaggerProvider.Swagger

def Schema.inputNames (schema : Schema) : List String :=
  (schema.properties.filter fun e => !e.2.readOnly).map Prod.fst

/-- The inputs that the body of an operation takes, if it has a body. -/
def Operation.bodyInputs (op : Operation) : List String :=
  (op.bodySchema?.map Schema.inputNames).getD []

def Operation.bodyRequired (op : Operation) : List String :=
  (op.bodySchema?.map Schema.required).getD []

namespace Schema

theorem mem_inputNames {schema : Schema} {name : String} :
    name ∈ schema.inputNames ↔ ∃ p, (name, p) ∈ schema.properties ∧ p.readOnly = false := by
  simp [inputNames]

theorem writable?_eq_some {request requested : Schema} {name : String}
    (h : request.writable? name = some requested) : requested.readOnly = false := by
  obtain ⟨e, he, rfl⟩ := Option.map_eq_some_iff.1 h
  have hfound := List.find?_some he
  simp only [Bool.and_eq_true, Bool.not_eq_true'] at hfound
  exact hfound.2

theorem writable?_eq_none {request : Schema} {name : String}
    (h : request.writable? name = none) : name ∉ request.inputNames := by
  intro hmem
  obtain ⟨p, hp, hread⟩ := mem_inputNames.1 hmem
  have hnone := List.find?_eq_none.1 (Option.map_eq_none_iff.1 h) (name, p) hp
  simp [hread] at hnone

theorem mergeProperty_readOnly (request : Schema) (name : String) (returned : Schema) :
    (mergeProperty request name returned).readOnly = false ↔ name ∈ request.inputNames := by
  unfold mergeProperty
  cases hw : request.writable? name with
  | none => simp [writable?_eq_none hw]
  | some requested =>
    obtain ⟨e, he, rfl⟩ := Option.map_eq_some_iff.1 hw
    have hname := List.find?_some he
    simp only [Bool.and_eq_true, beq_iff_eq] at hname
    have hmem : (name, e.2) ∈ request.properties := hname.1 ▸ List.mem_of_find?_eq_some he
    have hread := writable?_eq_some hw
    exact iff_of_true hread (mem_inputNames.2 ⟨e.2, hmem, hread⟩)

theorem merge_eq_ok {request response merged : Schema} (h : request.merge response = .ok merged) :
    (∀ name, name ∈ merged.inputNames ↔ name ∈ request.inputNames) ∧
      merged.required = request.required := by
  unfold merge at h
  split at h
  · next hreturned =>
    cases h
    refine ⟨fun name => ?_, rfl⟩
    rw [mem_inputNames]
    constructor
    · rintro ⟨p, hp, hread⟩
      obtain ⟨e, -, he⟩ := List.mem_map.1 hp
      cases he
      exact (mergeProperty_readOnly request e.1 e.2).1 hread
    · intro hname
      have hthere : Table.contains response.properties name = true := by
        obtain ⟨p, hp, hread⟩ := mem_inputNames.1 hname
        cases hc : Table.contains response.properties name with
        | true => rfl
        | false =>
          have hmem : name ∈ unreturned request response :=
            List.mem_map_of_mem (List.mem_filter.2 ⟨hp, by simp [hread, hc]⟩)
          rw [hreturned] at hmem
          exact absurd hmem List.not_mem_nil
      obtain ⟨p, hp⟩ := Option.isSome_iff_exists.1 hthere
      exact ⟨mergeProperty request name p, List.mem_map_of_mem (Table.mem_of_get? hp),
        (mergeProperty_readOnly request name p).2 hname⟩
  · cases h

end Schema

end SwaggerProvider.Swagger
