import Mathlib.Data.List.Nodup
import Mathlib.Data.List.Perm.Subperm
import Mathlib.Data.String.Basic
import SwaggerProvider.Table

/-!
Sorted tables have each name once, so one of two entries with the same name is lost in them: the
table is as long as the list of its entries exactly where the names of the entries differ.
-/

set_option autoImplicit false

namespace SwaggerProvider.Table

variable {α : Type}

def Ascending (t : Table α) : Prop := t.keys.Pairwise (· < ·)

theorem mem_keys_insertSorted {t : Table α} {name key : String} {new : α} :
    key ∈ (t.insertSorted name new).keys ↔ name = key ∨ key ∈ t.keys := by
  rw [mem_keys_iff, mem_keys_iff, get?_insertSorted]
  by_cases h : name = key <;> simp [h]

theorem Ascending.insertSorted {t : Table α} (h : Ascending t) (name : String) (new : α) :
    Ascending (t.insertSorted name new) := by
  induction t with
  | nil => simp [Ascending, Table.insertSorted, keys]
  | cons e rest ih =>
    obtain ⟨first, value⟩ := e
    obtain ⟨hfirst, hrest⟩ := List.pairwise_cons.1 h
    rw [Table.insertSorted]
    split
    · next hlt =>
      refine List.pairwise_cons.2 ⟨fun key hkey => ?_, h⟩
      rcases List.mem_cons.1 hkey with rfl | hkey
      · exact hlt
      · exact hlt.trans (hfirst key hkey)
    · next hge =>
      split
      · next heq =>
        subst heq
        exact h
      · next hne =>
        have hgt : first < name := lt_of_le_of_ne (not_lt.1 hge) (Ne.symm hne)
        refine List.pairwise_cons.2 ⟨fun key hkey => ?_, ih hrest⟩
        rcases mem_keys_insertSorted.1 hkey with rfl | hkey
        · exact hgt
        · exact hfirst key hkey

theorem ascending_sorted (entries : List (String × α)) : Ascending (sorted entries) := by
  have hfold (t : Table α) (ht : Ascending t) :
      Ascending (entries.foldl (fun t e => t.insertSorted e.1 e.2) t) := by
    induction entries generalizing t with
    | nil => exact ht
    | cons e rest ih => exact ih _ (ht.insertSorted e.1 e.2)
  exact hfold [] List.Pairwise.nil

theorem nodup_keys_sorted (entries : List (String × α)) : (sorted entries).keys.Nodup :=
  (ascending_sorted entries).imp fun h => h.ne

theorem mem_keys_sorted {entries : List (String × α)} {key : String} :
    key ∈ (sorted entries).keys ↔ key ∈ keys entries := by
  rw [mem_keys_iff, get?_sorted, ← mem_keys_iff, keys, List.map_reverse, List.mem_reverse]
  rfl

theorem length_sorted_eq_iff (entries : List (String × α)) :
    (sorted entries).length = entries.length ↔ (keys entries).Nodup := by
  have hsubset : (sorted entries).keys ⊆ keys entries := fun key hkey => mem_keys_sorted.1 hkey
  have hlength (t : Table α) : t.keys.length = t.length := List.length_map _
  constructor
  · intro h
    have hperm : (sorted entries).keys.Perm (keys entries) := by
      refine (List.subperm_of_subset (nodup_keys_sorted entries) hsubset).perm_of_length_le ?_
      rw [hlength, hlength, h]
    exact hperm.nodup_iff.1 (nodup_keys_sorted entries)
  · intro h
    have hperm : (sorted entries).keys.Perm (keys entries) :=
      (List.perm_ext_iff_of_nodup (nodup_keys_sorted entries) h).2 fun key => mem_keys_sorted
    rw [← hlength, hperm.length_eq, hlength]

theorem get?_sorted_of_mem {entries : List (String × α)} (hkeys : (keys entries).Nodup)
    {e : String × α} (he : e ∈ entries) : (sorted entries).get? e.1 = some e.2 := by
  rw [get?_sorted, get?_reverse hkeys, get?_eq_some_iff hkeys]
  exact he

end SwaggerProvider.Table
