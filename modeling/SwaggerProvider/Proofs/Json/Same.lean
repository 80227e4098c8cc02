import Mathlib.Data.List.Perm.Subperm
import SwaggerProvider.Json.Basic

/-!
Values that are the same. Where no object has a name twice, the same objects have the same members:
a lookup finds values that are the same in both of them, or nothing in both of them.
-/

set_option autoImplicit false

namespace SwaggerProvider.Json

mutual

def distinct : Json → Bool
  | .array items => itemsDistinct items
  | .object members => decide (members.map Prod.fst).Nodup && membersDistinct members
  | _ => true

def itemsDistinct : List Json → Bool
  | [] => true
  | item :: rest => distinct item && itemsDistinct rest

def membersDistinct : List (String × Json) → Bool
  | [] => true
  | (_, value) :: rest => distinct value && membersDistinct rest

end

theorem membersDistinct_iff (members : Members) :
    membersDistinct members = true ↔ ∀ e ∈ members, e.2.distinct = true := by
  induction members with
  | nil => simp [membersDistinct]
  | cons e rest ih => simp [membersDistinct, ih]

theorem distinct_object {members : Members} (h : (Json.object members).distinct = true) :
    members.keys.Nodup ∧ ∀ name value, members.get? name = some value → value.distinct = true := by
  simp only [distinct, Bool.and_eq_true, decide_eq_true_eq, membersDistinct_iff] at h
  exact ⟨h.1, fun name value hvalue => h.2 _ (Table.mem_of_get? hvalue)⟩

theorem sameMembers_iff (a b : Members) :
    sameMembers a b = true ↔
      ∀ e ∈ a, ∃ found, b.get? e.1 = some found ∧ same e.2 found = true := by
  induction a with
  | nil => simp [sameMembers]
  | cons e rest ih =>
    simp only [sameMembers, Bool.and_eq_true, ih, List.forall_mem_cons]
    cases b.get? e.1 <;> simp

abbrev MaySame : Option Json → Option Json → Prop := Option.Rel fun a b => same a b = true

theorem get?_of_same {a b : Members} (hdistinct : a.keys.Nodup)
    (h : same (.object a) (.object b) = true) (name : String) :
    MaySame (a.get? name) (b.get? name) := by
  simp only [same, Bool.and_eq_true, beq_iff_eq] at h
  obtain ⟨hlength, hmembers⟩ := h
  have hfound := (sameMembers_iff a b).1 hmembers
  cases ha : a.get? name with
  | some value =>
    obtain ⟨found, hb, hsame⟩ := hfound _ (Table.mem_of_get? ha)
    rw [hb]
    exact .some hsame
  | none =>
    have hkeys : a.keys ⊆ b.keys := by
      intro key hkey
      obtain ⟨e, he, rfl⟩ := List.mem_map.1 hkey
      obtain ⟨found, hb, -⟩ := hfound e he
      exact Table.mem_keys_iff.2 (by rw [hb]; rfl)
    have hperm : a.keys.Perm b.keys :=
      (List.subperm_of_subset hdistinct hkeys).perm_of_length_le (by simp [Table.keys, hlength])
    have hb : b.get? name = none := by
      rw [Table.get?_eq_none_iff] at ha ⊢
      rwa [← hperm.mem_iff]
    rw [hb]
    exact .none

theorem isNull_of_same {a b : Json} (h : same a b = true) : a.isNull = b.isNull := by
  cases a <;> cases b <;> simp_all [same, isNull]

end SwaggerProvider.Json
