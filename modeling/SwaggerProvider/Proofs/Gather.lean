import Mathlib.Data.List.Basic
import SwaggerProvider.Table

/-!
Tables that are gathered from a list: each item gives its value, if it has one, under its name. Of
items with one name the last that has a value counts.
-/

set_option autoImplicit false

namespace SwaggerProvider.Table

variable {ι α : Type}

def gather (name : ι → String) (value : ι → Option α) (items : List ι) : Table α :=
  ofEntries (items.filterMap fun i => (value i).map fun v => (name i, v))

@[simp] theorem get?_gather_cons (name : ι → String) (value : ι → Option α) (i : ι) (rest : List ι)
    (key : String) :
    (gather name value (i :: rest)).get? key =
      ((gather name value rest).get? key).or (if name i = key then value i else none) := by
  unfold gather
  cases hv : value i with
  | none => simp [hv]
  | some v =>
    have h : (i :: rest).filterMap (fun i => (value i).map fun v => (name i, v)) =
        (name i, v) :: rest.filterMap fun i => (value i).map fun v => (name i, v) := by
      simp [hv]
    rw [h, get?_ofEntries_cons]

theorem get?_gather_congr (name : ι → String) {value other : ι → Option α} {items : List ι}
    {key : String} (h : ∀ i ∈ items, name i = key → value i = other i) :
    (gather name value items).get? key = (gather name other items).get? key := by
  induction items with
  | nil => rfl
  | cons i rest ih =>
    rw [get?_gather_cons, get?_gather_cons, ih fun j hj => h j (List.mem_cons_of_mem _ hj)]
    by_cases hk : name i = key
    · rw [if_pos hk, if_pos hk, h i List.mem_cons_self hk]
    · rw [if_neg hk, if_neg hk]

theorem get?_gather_of_notMem (name : ι → String) (value : ι → Option α) {items : List ι}
    {key : String} (h : key ∉ items.map name) : (gather name value items).get? key = none := by
  induction items with
  | nil => rfl
  | cons i rest ih =>
    simp only [List.map_cons, List.mem_cons, not_or] at h
    simp [ih h.2, if_neg (Ne.symm h.1)]

theorem get?_gather_of_mem (name : ι → String) (value : ι → Option α) {items : List ι} {i : ι}
    (hn : (items.map name).Nodup) (hi : i ∈ items) :
    (gather name value items).get? (name i) = value i := by
  induction items with
  | nil => simp at hi
  | cons j rest ih =>
    simp only [List.map_cons, List.nodup_cons] at hn
    rw [get?_gather_cons]
    rcases List.mem_cons.1 hi with rfl | hr
    · rw [get?_gather_of_notMem name value hn.1, if_pos rfl, Option.none_or]
    · have hne : name j ≠ name i := fun h => hn.1 (h ▸ List.mem_map_of_mem hr)
      rw [ih hn.2 hr, if_neg hne, Option.or_none]

theorem gather_congr (name : ι → String) {value other : ι → Option α} {items : List ι}
    (h : ∀ i ∈ items, value i = other i) : gather name value items = gather name other items :=
  congrArg ofEntries (List.filterMap_congr fun i hi => by rw [h i hi])

theorem mem_keys_gather {name : ι → String} {value : ι → Option α} {items : List ι} {key : String} :
    key ∈ (gather name value items).keys ↔ ∃ i ∈ items, name i = key ∧ (value i).isSome = true := by
  rw [mem_keys_iff]
  induction items with
  | nil => simp [gather, ofEntries]
  | cons i rest ih =>
    rw [get?_gather_cons, Option.isSome_or, Bool.or_eq_true, ih, List.exists_mem_cons_iff, or_comm]
    by_cases hkey : name i = key <;> simp [hkey]

theorem exists_of_get?_gather {name : ι → String} {value : ι → Option α} {items : List ι}
    {key : String} {found : α} (h : (gather name value items).get? key = some found) :
    ∃ i ∈ items, name i = key ∧ value i = some found := by
  rw [gather, get?_ofEntries] at h
  obtain ⟨i, hi, hentry⟩ := List.mem_filterMap.1 (List.mem_reverse.1 (mem_of_get? h))
  obtain ⟨v, hv, heq⟩ := Option.map_eq_some_iff.1 hentry
  cases heq
  exact ⟨i, hi, rfl, hv⟩

theorem nodup_keys_insert {t : Table α} (h : t.keys.Nodup) (name : String) (new : α) :
    (t.insert name new).keys.Nodup := by
  rw [keys_insert]
  split
  · exact h
  · next hnew =>
    have hfresh : ∀ key ∈ t.keys, key ≠ name := fun key hkey heq => hnew (heq ▸ hkey)
    simpa [List.nodup_append, h] using hfresh

theorem nodup_keys_ofEntries (entries : List (String × α)) : (ofEntries entries).keys.Nodup := by
  have hfold {t : Table α} (ht : t.keys.Nodup) :
      (entries.foldl (fun t e => t.insert e.1 e.2) t).keys.Nodup := by
    induction entries generalizing t with
    | nil => exact ht
    | cons e rest ih => exact ih (nodup_keys_insert ht e.1 e.2)
  exact hfold List.nodup_nil

end SwaggerProvider.Table
