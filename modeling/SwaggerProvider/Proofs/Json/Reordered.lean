import Mathlib.Data.List.Perm.Basic
import SwaggerProvider.Proofs.Json.Equivalence

/-!
Lists with the same items as often. To compare two of them, the items of the one are taken out of
the other, one by one. Among values in which no object has a name twice it does not matter which of
several items that are the same is taken, nor in which order the others are left.
-/

set_option autoImplicit false

namespace SwaggerProvider.Json

/-- One list is the other one in another order, up to values that are the same. -/
def Reordered (as bs : List Json) : Prop :=
  ∃ cs, as.Perm cs ∧ List.Forall₂ (fun c b => same c b = true) cs bs

/-- How many items of a list are the same as a value. -/
def occurrences (x : Json) (items : List Json) : Nat := items.countP (same x)

structure Takes (take : Json → List Json → Option (List Json)) : Prop where
  some {item : Json} {items left : List Json} (h : take item items = some left) :
    ∃ found, same item found = true ∧ items.Perm (found :: left)
  none {item : Json} {items : List Json} (h : take item items = none) :
    ∀ other ∈ items, same item other = false

def consumes (take : Json → List Json → Option (List Json)) : List Json → List Json → Bool
  | [], others => others.isEmpty
  | item :: rest, others =>
    match take item others with
    | some left => consumes take rest left
    | none => false

@[simp] theorem occurrences_cons (x item : Json) (rest : List Json) :
    occurrences x (item :: rest) = occurrences x rest + if same x item then 1 else 0 :=
  List.countP_cons

theorem occurrences_perm {as bs : List Json} (h : as.Perm bs) (x : Json) :
    occurrences x as = occurrences x bs :=
  h.countP_eq _

theorem occurrences_pos {x item : Json} {items : List Json} (hitem : item ∈ items)
    (h : same x item = true) : 0 < occurrences x items :=
  List.countP_pos_iff.2 ⟨item, hitem, h⟩

theorem occurrences_eq_of_forall₂ {as bs : List Json} {x : Json} (hx : x.distinct = true)
    (h : List.Forall₂ (fun a b => same a b = true) as bs) (ha : ∀ a ∈ as, a.distinct = true)
    (hb : ∀ b ∈ bs, b.distinct = true) : occurrences x as = occurrences x bs := by
  induction h with
  | nil => rfl
  | cons hfirst _ ih =>
    obtain ⟨ha, has⟩ := List.forall_mem_cons.1 ha
    obtain ⟨hb, hbs⟩ := List.forall_mem_cons.1 hb
    simp [ih has hbs, same_congr ha hb hx hfirst]

variable {take : Json → List Json → Option (List Json)} {as bs : List Json}

theorem Takes.reordered (htake : Takes take) (h : consumes take as bs = true) :
    Reordered as bs := by
  induction as generalizing bs with
  | nil =>
    rw [consumes, List.isEmpty_iff] at h
    subst h
    exact ⟨[], .nil, .nil⟩
  | cons item rest ih =>
    rw [consumes] at h
    split at h
    · next left hleft =>
      obtain ⟨found, hsame, hperm⟩ := htake.some hleft
      obtain ⟨cs, hcs, heach⟩ := ih h
      obtain ⟨ds, hds, hbs⟩ : Relation.Comp List.Perm (List.Forall₂ _) (item :: cs) bs := by
        rw [← List.forall₂_comp_perm_eq_perm_comp_forall₂]
        exact ⟨found :: left, .cons hsame heach, hperm.symm⟩
      exact ⟨ds, (hcs.cons item).trans hds, hbs⟩
    · cases h

theorem Reordered.refl (ha : ∀ a ∈ as, a.distinct = true) : Reordered as as :=
  ⟨as, .refl as, List.forall₂_same.2 fun a h => same_refl (ha a h)⟩

theorem Reordered.length_eq (h : Reordered as bs) : as.length = bs.length := by
  obtain ⟨cs, hperm, heach⟩ := h
  exact hperm.length_eq.trans heach.length_eq

theorem Reordered.occurrences_eq (h : Reordered as bs) (ha : ∀ a ∈ as, a.distinct = true)
    (hb : ∀ b ∈ bs, b.distinct = true) {x : Json} (hx : x.distinct = true) :
    occurrences x as = occurrences x bs := by
  obtain ⟨cs, hperm, heach⟩ := h
  rw [occurrences_perm hperm x]
  exact occurrences_eq_of_forall₂ hx heach (fun c hc => ha c (hperm.mem_iff.2 hc)) hb

theorem Takes.consumes_of_occurrences (htake : Takes take) (ha : ∀ a ∈ as, a.distinct = true)
    (hb : ∀ b ∈ bs, b.distinct = true)
    (h : ∀ x : Json, x.distinct = true → occurrences x as = occurrences x bs) :
    consumes take as bs = true := by
  induction as generalizing bs with
  | nil =>
    rw [consumes, List.isEmpty_iff, List.eq_nil_iff_forall_not_mem]
    intro b hmem
    have hb := hb b hmem
    have hpos := occurrences_pos hmem (same_refl hb)
    rw [← h b hb] at hpos
    exact absurd hpos (Nat.lt_irrefl 0)
  | cons item rest ih =>
    obtain ⟨hitem, hrest⟩ := List.forall_mem_cons.1 ha
    rw [consumes]
    cases hleft : take item bs with
    | some left =>
      obtain ⟨found, hsame, hperm⟩ := htake.some hleft
      have hmem : ∀ b ∈ found :: left, b.distinct = true := fun b hb' => hb b (hperm.mem_iff.2 hb')
      obtain ⟨hfound, hleft⟩ := List.forall_mem_cons.1 hmem
      refine ih hrest hleft fun x hx => ?_
      have hall := h x hx
      rw [occurrences_perm hperm, occurrences_cons, occurrences_cons,
        same_congr hitem hfound hx hsame] at hall
      exact Nat.add_right_cancel hall
    | none =>
      have hpos : 0 < occurrences item (item :: rest) :=
        occurrences_pos List.mem_cons_self (same_refl hitem)
      rw [h item hitem] at hpos
      obtain ⟨other, hother, hsame⟩ := List.countP_pos_iff.1 hpos
      rw [htake.none hleft other hother] at hsame
      cases hsame

variable (htake : Takes take) (ha : ∀ a ∈ as, a.distinct = true) (hb : ∀ b ∈ bs, b.distinct = true)

include htake ha hb

/-- However items are taken, all go when the one list is the other one in another order. -/
theorem Takes.consumes_iff : consumes take as bs = true ↔ Reordered as bs :=
  ⟨htake.reordered, fun h => htake.consumes_of_occurrences ha hb fun _ => h.occurrences_eq ha hb⟩

theorem Takes.reordered_iff_occurrences :
    Reordered as bs ↔ ∀ x : Json, x.distinct = true → occurrences x as = occurrences x bs :=
  ⟨fun h _ => h.occurrences_eq ha hb,
    fun h => htake.reordered (htake.consumes_of_occurrences ha hb h)⟩

end SwaggerProvider.Json
