import SwaggerProvider.Proofs.Json.Same
import SwaggerProvider.Proofs.Outcome

/-!
When values are alike: what stands under each name and in each position is alike, and the order of
the members does not count. Where no object has a name twice, these are the values that are the
same.
-/

set_option autoImplicit false

namespace SwaggerProvider.Json

inductive Like : Json → Json → Prop where
  | null : Like .null .null
  | bool (b : Bool) : Like (.bool b) (.bool b)
  | number {m n : Number} (h : m.same n = true) : Like (.number m) (.number n)
  | string (s : String) : Like (.string s) (.string s)
  | array {as bs : List Json} (each : List.Forall₂ Like as bs) : Like (.array as) (.array bs)
  | object {as bs : Members} (each : ∀ name, Option.Rel Like (as.get? name) (bs.get? name)) :
    Like (.object as) (.object bs)

theorem same_object_iff {as bs : Members} (ha : as.keys.Nodup) (hb : bs.keys.Nodup) :
    same (.object as) (.object bs) = true ↔ ∀ name, MaySame (as.get? name) (bs.get? name) := by
  refine ⟨get?_of_same ha, fun h => ?_⟩
  have hkeys (name : String) : name ∈ as.keys ↔ name ∈ bs.keys := by
    rw [Table.mem_keys_iff, Table.mem_keys_iff, (h name).isSome_eq]
  have hlength : as.length = bs.length := by
    simpa [Table.keys] using ((List.perm_ext_iff_of_nodup ha hb).2 hkeys).length_eq
  simp only [same, Bool.and_eq_true, beq_iff_eq]
  refine ⟨hlength, (sameMembers_iff as bs).2 fun e he => ?_⟩
  have hsame := h e.1
  rw [(Table.get?_eq_some_iff ha).2 he] at hsame
  cases hfound : bs.get? e.1 with
  | none =>
    rw [hfound] at hsame
    cases hsame
  | some found =>
    rw [hfound] at hsame
    cases hsame with
    | some hsame => exact ⟨found, rfl, hsame⟩

theorem distinct_array {items : List Json} (h : (Json.array items).distinct = true) :
    ∀ item ∈ items, item.distinct = true := by
  rw [distinct] at h
  induction items with
  | nil => simp
  | cons item rest ih =>
    rw [itemsDistinct, Bool.and_eq_true] at h
    exact List.forall_mem_cons.2 ⟨h.1, ih h.2⟩

mutual

theorem same_iff_like (a b : Json) (ha : a.distinct = true) (hb : b.distinct = true) :
    same a b = true ↔ Like a b := by
  cases a <;> cases b
  case null.null => exact iff_of_true rfl .null
  case bool.bool b c =>
    rw [same, beq_iff_eq]
    exact ⟨fun h => h ▸ .bool b, fun h => by cases h with | bool _ => rfl⟩
  case number.number => exact ⟨.number, fun h => by cases h with | number h => exact h⟩
  case string.string s t =>
    rw [same, beq_iff_eq]
    exact ⟨fun h => h ▸ .string s, fun h => by cases h with | string _ => rfl⟩
  case array.array as bs =>
    rw [same, sameItems_iff_like as bs (distinct_array ha) (distinct_array hb)]
    exact ⟨.array, fun h => by cases h with | array each => exact each⟩
  case object.object as bs =>
    obtain ⟨hnames, hvalues⟩ := distinct_object ha
    obtain ⟨hothers, hfound⟩ := distinct_object hb
    have each (name : String) : MaySame (Table.get? as name) (Table.get? bs name) ↔
        Option.Rel Like (Table.get? as name) (Table.get? bs name) :=
      Option.Rel.congr fun v hv w hw => same_iff_like_of_mem as _ (Table.mem_of_get? hv) w
        (hvalues name v hv) (hfound name w hw)
    rw [same_object_iff hnames hothers, forall_congr' each]
    exact ⟨.object, fun h => by cases h with | object each => exact each⟩
  all_goals exact iff_of_false Bool.false_ne_true fun h => by cases h

theorem sameItems_iff_like (as bs : List Json) (ha : ∀ a ∈ as, a.distinct = true)
    (hb : ∀ b ∈ bs, b.distinct = true) : sameItems as bs = true ↔ List.Forall₂ Like as bs := by
  match as, bs with
  | [], [] => exact iff_of_true rfl .nil
  | [], b :: bs => exact iff_of_false Bool.false_ne_true fun h => by cases h
  | a :: as, [] => exact iff_of_false Bool.false_ne_true fun h => by cases h
  | a :: as, b :: bs =>
    obtain ⟨ha, has⟩ := List.forall_mem_cons.1 ha
    obtain ⟨hb, hbs⟩ := List.forall_mem_cons.1 hb
    rw [sameItems, Bool.and_eq_true, same_iff_like a b ha hb, sameItems_iff_like as bs has hbs,
      List.forall₂_cons]

theorem same_iff_like_of_mem (members : List (String × Json)) (e : String × Json)
    (he : e ∈ members) (b : Json) (ha : e.2.distinct = true) (hb : b.distinct = true) :
    same e.2 b = true ↔ Like e.2 b := by
  match members with
  | [] => cases he
  | (name, value) :: rest =>
    rcases List.mem_cons.1 he with rfl | he
    · exact same_iff_like value b ha hb
    · exact same_iff_like_of_mem rest e he b ha hb

end

end SwaggerProvider.Json
