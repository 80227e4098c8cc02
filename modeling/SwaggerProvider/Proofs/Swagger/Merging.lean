import Mathlib.Data.List.Nodup
import SwaggerProvider.Proofs.Swagger.Inputs

/-!
What comes of merging the schemas of a request and its response: the response, in which the
properties that the request can set are those of the request, and all others are read only. Merging
the result with the response again changes nothing.
-/

set_option autoImplicit false

namespace SwaggerProvider

namespace Swagger

namespace Extensions

theorem get?_union {ext other : Extensions} (h : Table.keys other |>.Nodup) (key : String) :
    Table.get? (ext.union other) key = (Table.get? other key).or (Table.get? ext key) := by
  simp [union, Table.get?_reverse h]

theorem foldl_insert_of_get? {ext other : Extensions}
    (h : ∀ e ∈ other, Table.get? ext e.1 = some e.2) :
    other.foldl (fun t e => Table.insert t e.1 e.2) ext = ext := by
  induction other with
  | nil => rfl
  | cons e rest ih =>
    rw [List.foldl_cons, Table.insert_of_get? (h e List.mem_cons_self)]
    exact ih fun f hf => h f (List.mem_cons_of_mem _ hf)

theorem union_union {ext other : Extensions} (h : Table.keys other |>.Nodup) :
    (ext.union other).union other = ext.union other := by
  refine foldl_insert_of_get? fun e he => ?_
  rw [get?_union h, (Table.get?_eq_some_iff h).2 he]
  rfl

end Extensions

namespace Schema

/-- The properties, and the extensions of each of them, differ in their names. -/
structure Keyed (schema : Schema) : Prop where
  properties : (schema.properties.map Prod.fst).Nodup
  extensions : ∀ e ∈ schema.properties, (Table.keys e.2.extensions).Nodup

/-- The response with the properties that the request can set, and all others read only. -/
structure Merged (request response merged : Schema) : Prop where
  names : merged.properties.map Prod.fst = response.properties.map Prod.fst
  inputs : ∀ name, name ∈ merged.inputNames ↔ name ∈ request.inputNames
  requested : ∀ name requested returned, (name, requested) ∈ request.properties →
    requested.readOnly = false → (name, returned) ∈ response.properties →
    ∃ ext, (name, { requested with extensions := ext }) ∈ merged.properties ∧
      ∀ key, Table.get? ext key =
        (Table.get? returned.extensions key).or (Table.get? requested.extensions key)
  returned : ∀ name returned, (name, returned) ∈ response.properties →
    name ∉ request.inputNames → (name, { returned with readOnly := true }) ∈ merged.properties
  required : merged.required = request.required
  rest : merged = { response with properties := merged.properties, required := merged.required }

variable {request response merged : Schema}

theorem writable?_eq_some_iff (h : (request.properties.map Prod.fst).Nodup) {name : String}
    {requested : Schema} :
    request.writable? name = some requested ↔
      (name, requested) ∈ request.properties ∧ requested.readOnly = false := by
  constructor
  · intro hw
    obtain ⟨e, he, rfl⟩ := Option.map_eq_some_iff.1 hw
    have hfound := List.find?_some he
    simp only [Bool.and_eq_true, beq_iff_eq] at hfound
    refine ⟨?_, writable?_eq_some hw⟩
    rw [← hfound.1]
    exact List.mem_of_find?_eq_some he
  · rintro ⟨hmem, hread⟩
    have hsome : request.writable? name ≠ none := fun hnone =>
      writable?_eq_none hnone (mem_inputNames.2 ⟨requested, hmem, hread⟩)
    obtain ⟨found, hfound⟩ := Option.ne_none_iff_exists'.1 hsome
    obtain ⟨e, he, rfl⟩ := Option.map_eq_some_iff.1 hfound
    have hname := List.find?_some he
    simp only [Bool.and_eq_true, beq_iff_eq] at hname
    have hsame : e = (name, requested) :=
      List.inj_on_of_nodup_map h (List.mem_of_find?_eq_some he) hmem hname.1
    rw [hfound, hsame]

theorem mergeProperty_of_writable {name : String} {requested : Schema}
    (h : request.writable? name = some requested) (returned : Schema) :
    mergeProperty request name returned =
      { requested with extensions := requested.extensions.union returned.extensions } := by
  rw [mergeProperty, h]

theorem mergeProperty_of_not_input {name : String} (h : name ∉ request.inputNames)
    (returned : Schema) :
    mergeProperty request name returned = { returned with readOnly := true } := by
  have hnone : request.writable? name = none := by
    cases hw : request.writable? name with
    | none => rfl
    | some requested =>
      have hread := (mergeProperty_readOnly request name returned).not.2 h
      rw [mergeProperty_of_writable hw] at hread
      exact absurd (writable?_eq_some hw) hread
  rw [mergeProperty, hnone]

theorem mem_unreturned {name : String} :
    name ∈ unreturned request response ↔
      name ∈ request.inputNames ∧ name ∉ response.properties.map Prod.fst := by
  have hthere : name ∈ response.properties.map Prod.fst ↔
      Table.contains response.properties name = true := Table.mem_keys_iff
  rw [hthere]
  unfold unreturned inputNames
  rw [List.mem_map, List.mem_map]
  constructor
  · rintro ⟨e, he, rfl⟩
    obtain ⟨hmem, hnot⟩ := List.mem_filter.1 he
    obtain ⟨hread, hnot⟩ := Bool.and_eq_true_iff.1 hnot
    exact ⟨⟨e, List.mem_filter.2 ⟨hmem, hread⟩, rfl⟩, by simpa using hnot⟩
  · rintro ⟨⟨e, he, rfl⟩, hnot⟩
    obtain ⟨hmem, hread⟩ := List.mem_filter.1 he
    exact ⟨e, List.mem_filter.2 ⟨hmem, Bool.and_eq_true_iff.2 ⟨hread, by simpa using hnot⟩⟩, rfl⟩

theorem merge_eq_error_iff {e : Error} :
    request.merge response = .error e ↔ unreturned request response ≠ [] ∧
      e = .resourceCompilation "" (.missingInResponse (unreturned request response)) := by
  unfold merge
  cases unreturned request response with
  | nil => simp
  | cons name rest => simp [eq_comm]

theorem merge_eq_ok_iff :
    request.merge response = .ok merged ↔ unreturned request response = [] ∧
      merged = { response with
        properties := response.properties.map fun e => (e.1, mergeProperty request e.1 e.2)
        required := request.required } := by
  unfold merge
  cases unreturned request response with
  | nil => simp [eq_comm]
  | cons name rest => simp

theorem merged_of_merge (hrequest : request.Keyed) (hresponse : response.Keyed)
    (h : request.merge response = .ok merged) : Merged request response merged := by
  have hinputs := merge_eq_ok h
  obtain ⟨-, rfl⟩ := merge_eq_ok_iff.1 h
  constructor
  case names => simp [Function.comp_def]
  case inputs => exact hinputs.1
  case requested =>
    intro name requested returned hreq hread hres
    have hw := (writable?_eq_some_iff hrequest.properties).2 ⟨hreq, hread⟩
    refine ⟨requested.extensions.union returned.extensions, ?_,
      Extensions.get?_union (hresponse.extensions _ hres)⟩
    rw [← mergeProperty_of_writable hw]
    exact List.mem_map_of_mem (f := fun e => (e.1, mergeProperty request e.1 e.2)) hres
  case returned =>
    intro name returned hres hnot
    rw [← mergeProperty_of_not_input hnot]
    exact List.mem_map_of_mem (f := fun e => (e.1, mergeProperty request e.1 e.2)) hres
  case required => rfl
  case rest => rfl

/-- A merged property is merged with what was returned to itself. -/
theorem mergeProperty_merged (hrequest : request.Keyed) (hresponse : response.Keyed)
    (h : request.merge response = .ok merged) {e : String × Schema}
    (he : e ∈ response.properties) :
    mergeProperty merged e.1 e.2 = mergeProperty request e.1 e.2 := by
  obtain ⟨name, returned⟩ := e
  have hm := merged_of_merge hrequest hresponse h
  have hnodup : (merged.properties.map Prod.fst).Nodup := by
    rw [hm.names]
    exact hresponse.properties
  by_cases hinput : name ∈ request.inputNames
  · obtain ⟨requested, hreq, hread⟩ := mem_inputNames.1 hinput
    have hw := (writable?_eq_some_iff hrequest.properties).2 ⟨hreq, hread⟩
    have hmem : (name, mergeProperty request name returned) ∈ merged.properties := by
      rw [(merge_eq_ok_iff.1 h).2]
      exact List.mem_map_of_mem (f := fun e => (e.1, mergeProperty request e.1 e.2)) he
    rw [mergeProperty_of_writable hw] at hmem
    have hagain := (writable?_eq_some_iff hnodup).2 ⟨hmem, hread⟩
    rw [mergeProperty_of_writable hw, mergeProperty_of_writable hagain,
      Extensions.union_union (hresponse.extensions _ he)]
  · rw [mergeProperty_of_not_input hinput,
      mergeProperty_of_not_input fun hagain => hinput ((hm.inputs name).1 hagain)]

theorem merge_merged (hrequest : request.Keyed) (hresponse : response.Keyed)
    (h : request.merge response = .ok merged) : merged.merge response = .ok merged := by
  have hm := merged_of_merge hrequest hresponse h
  have hreturned : unreturned merged response = [] := by
    refine List.eq_nil_iff_forall_not_mem.2 fun name hname => ?_
    obtain ⟨hinput, hnot⟩ := mem_unreturned.1 hname
    obtain ⟨p, hp, -⟩ := mem_inputNames.1 hinput
    rw [← hm.names] at hnot
    exact hnot (List.mem_map_of_mem (f := Prod.fst) hp)
  have hproperties : (response.properties.map fun e => (e.1, mergeProperty merged e.1 e.2)) =
      response.properties.map fun e => (e.1, mergeProperty request e.1 e.2) :=
    List.map_congr_left fun e he => by rw [mergeProperty_merged hrequest hresponse h he]
  refine merge_eq_ok_iff.2 ⟨hreturned, ?_⟩
  rw [hproperties, hm.required]
  exact (merge_eq_ok_iff.1 h).2

/-- Merging fails exactly where the response lacks what the request can set. What comes of it
otherwise is the merged schema, which merging with the response again leaves as it is. -/
theorem merge_outcome (hrequest : request.Keyed) (hresponse : response.Keyed) :
    ((∃ e, request.merge response = .error e) ↔
      ∃ name ∈ request.inputNames, name ∉ response.properties.map Prod.fst) ∧
    (∀ e, request.merge response = .error e →
      ∃ missing, e = .resourceCompilation "" (.missingInResponse missing) ∧
        ∀ name, name ∈ missing ↔
          name ∈ request.inputNames ∧ name ∉ response.properties.map Prod.fst) ∧
    ∀ merged, request.merge response = .ok merged →
      Merged request response merged ∧ merged.merge response = .ok merged := by
  refine ⟨?_, ?_, fun merged h => ⟨merged_of_merge hrequest hresponse h,
    merge_merged hrequest hresponse h⟩⟩
  · constructor
    · rintro ⟨e, he⟩
      obtain ⟨name, hname⟩ := List.exists_mem_of_ne_nil _ (merge_eq_error_iff.1 he).1
      exact ⟨name, mem_unreturned.1 hname⟩
    · rintro ⟨name, hname⟩
      have hmissing := List.ne_nil_of_mem (mem_unreturned.2 hname)
      exact ⟨_, merge_eq_error_iff.2 ⟨hmissing, rfl⟩⟩
  · intro e he
    exact ⟨_, (merge_eq_error_iff.1 he).2, fun name => mem_unreturned⟩

def textSchema : Schema := { empty with type := some "string" }

def ruleRequest : Schema := { empty with
  required := ["name"]
  properties := [
    ("name", { textSchema with extensions := [("x-terraform-immutable", .bool true)] }),
    ("age", { textSchema with readOnly := true })] }

def ruleResponse : Schema := { empty with
  properties := [("id", textSchema),
    ("name", { textSchema with extensions :=
      [("x-terraform-immutable", .bool false), ("x-terraform-sensitive", .bool true)] })] }

/-- What the response says about the name counts, and the age is left out. -/
theorem merge_outcome_rule :
    ∃ merged, ruleRequest.merge ruleResponse = .ok merged ∧
      Merged ruleRequest ruleResponse merged ∧ merged.merge ruleResponse = .ok merged := by
  have hrequest : ruleRequest.Keyed := ⟨by decide, by decide⟩
  have hresponse : ruleResponse.Keyed := ⟨by decide, by decide⟩
  obtain ⟨merged, hmerged⟩ : ∃ merged, ruleRequest.merge ruleResponse = .ok merged := ⟨_, rfl⟩
  exact ⟨merged, hmerged, (merge_outcome hrequest hresponse).2.2 merged hmerged⟩

end Schema

end Swagger

end SwaggerProvider
