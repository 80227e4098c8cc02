import SwaggerProvider.Proofs.Json.Likeness

/-!
Likeness is an equivalence, and so is being the same among values in which no object has a name
twice.
-/

set_option autoImplicit false

variable {α β γ : Type}

theorem List.Forall₂.symm_of {R : α → β → Prop} {S : β → α → Prop} {as : List α} {bs : List β}
    (h : List.Forall₂ R as bs) (hsymm : ∀ a ∈ as, ∀ b, R a b → S b a) : List.Forall₂ S bs as := by
  induction h with
  | nil => exact .nil
  | cons hfirst _ ih =>
    obtain ⟨hhead, htail⟩ := List.forall_mem_cons.1 hsymm
    exact .cons (hhead _ hfirst) (ih htail)

theorem List.Forall₂.trans_of {R : α → β → Prop} {S : β → γ → Prop} {T : α → γ → Prop}
    {as : List α} {bs : List β} {cs : List γ} (h : List.Forall₂ R as bs)
    (h' : List.Forall₂ S bs cs) (htrans : ∀ a ∈ as, ∀ b c, R a b → S b c → T a c) :
    List.Forall₂ T as cs := by
  induction h generalizing cs with
  | nil =>
    cases h'
    exact .nil
  | cons hfirst _ ih =>
    obtain ⟨hhead, htail⟩ := List.forall_mem_cons.1 htrans
    cases h' with
    | cons hother hothers => exact .cons (hhead _ _ hfirst hother) (ih hothers htail)

theorem Option.Rel.symm_of {R : α → β → Prop} {S : β → α → Prop} {x : Option α} {y : Option β}
    (h : Option.Rel R x y) (hsymm : ∀ a, x = Option.some a → ∀ b, R a b → S b a) :
    Option.Rel S y x := by
  cases h with
  | none => exact .none
  | some h => exact .some (hsymm _ rfl _ h)

theorem Option.Rel.trans_of {R : α → β → Prop} {S : β → γ → Prop} {T : α → γ → Prop}
    {x : Option α} {y : Option β} {z : Option γ} (h : Option.Rel R x y) (h' : Option.Rel S y z)
    (htrans : ∀ a, x = Option.some a → ∀ b c, R a b → S b c → T a c) : Option.Rel T x z := by
  cases h with
  | none =>
    cases h'
    exact .none
  | some h =>
    cases h' with
    | some h' => exact .some (htrans _ rfl _ _ h h')

namespace SwaggerProvider

/-- What holds of a value when it holds of the values inside it, holds of every value. -/
theorem Json.induction {motive : Json → Prop} (null : motive .null)
    (bool : ∀ b, motive (.bool b)) (number : ∀ n, motive (.number n))
    (string : ∀ s, motive (.string s))
    (array : ∀ items, (∀ item ∈ items, motive item) → motive (.array items))
    (object : ∀ members, (∀ e ∈ members, motive e.2) → motive (.object members))
    (a : Json) : motive a := by
  refine @Json.rec motive (fun items => ∀ item ∈ items, motive item)
    (fun members => ∀ e ∈ members, motive e.2) (fun e => motive e.2) null bool number string
    (fun items ih => array items ih) (fun members ih => object members ih) ?_ ?_ ?_ ?_
    (fun name value ih => ih) a
  · intro item h
    cases h
  · intro first rest ihFirst ihRest
    exact List.forall_mem_cons.2 ⟨ihFirst, ihRest⟩
  · intro e h
    cases h
  · intro first rest ihFirst ihRest
    exact List.forall_mem_cons.2 ⟨ihFirst, ihRest⟩

namespace Number

theorem same_refl (n : Number) : n.same n = true := by
  cases n <;> simp [same, Double.same]

theorem same_symm {m n : Number} (h : m.same n = true) : n.same m = true := by
  cases m <;> cases n <;> simp_all [same, Double.same]
  rcases h with rfl | h
  · exact .inl rfl
  · exact .inr h.symm

theorem same_trans {m n k : Number} (h : m.same n = true) (h' : n.same k = true) :
    m.same k = true := by
  cases m <;> cases n <;> cases k <;> simp_all [same, Double.same]
  rcases h with rfl | h
  · exact h'
  · rcases h' with rfl | h'
    · exact .inr h
    · exact .inr ⟨h.1, h'.2⟩

end Number

namespace Json

theorem Like.refl (a : Json) : Like a a := by
  induction a using Json.induction with
  | null => exact .null
  | bool b => exact .bool b
  | number n => exact .number n.same_refl
  | string s => exact .string s
  | array items ih => exact .array (List.forall₂_same.2 ih)
  | object members ih =>
    refine .object fun name => ?_
    cases hfound : Table.get? members name with
    | none => exact .none
    | some value => exact .some (ih _ (Table.mem_of_get? hfound))

theorem Like.symm {a b : Json} (h : Like a b) : Like b a := by
  induction a using Json.induction generalizing b with
  | null | bool _ | string _ =>
    cases h
    constructor
  | number n =>
    cases h with
    | number h => exact .number (Number.same_symm h)
  | array items ih =>
    cases h with
    | array each => exact .array (each.symm_of fun item hitem _ => ih item hitem)
  | object members ih =>
    cases h with
    | object each =>
      exact .object fun name => (each name).symm_of fun value hvalue _ =>
        ih (name, value) (Table.mem_of_get? hvalue)

theorem Like.trans {a b c : Json} (h : Like a b) (h' : Like b c) : Like a c := by
  induction a using Json.induction generalizing b c with
  | null | bool _ | string _ =>
    cases h
    exact h'
  | number n =>
    cases h with
    | number h =>
      cases h' with
      | number h' => exact .number (Number.same_trans h h')
  | array items ih =>
    cases h with
    | array each =>
      cases h' with
      | array each' => exact .array (each.trans_of each' fun item hitem _ _ => ih item hitem)
  | object members ih =>
    cases h with
    | object each =>
      cases h' with
      | object each' =>
        exact .object fun name => (each name).trans_of (each' name) fun value hvalue _ _ =>
          ih (name, value) (Table.mem_of_get? hvalue)

theorem same_refl {a : Json} (ha : a.distinct = true) : same a a = true :=
  (same_iff_like a a ha ha).2 (.refl a)

theorem same_symm {a b : Json} (ha : a.distinct = true) (hb : b.distinct = true)
    (h : same a b = true) : same b a = true :=
  (same_iff_like b a hb ha).2 ((same_iff_like a b ha hb).1 h).symm

theorem same_trans {a b c : Json} (ha : a.distinct = true) (hb : b.distinct = true)
    (hc : c.distinct = true) (h : same a b = true) (h' : same b c = true) : same a c = true :=
  (same_iff_like a c ha hc).2
    (((same_iff_like a b ha hb).1 h).trans ((same_iff_like b c hb hc).1 h'))

theorem same_congr {a b x : Json} (ha : a.distinct = true) (hb : b.distinct = true)
    (hx : x.distinct = true) (h : same a b = true) : same x a = same x b := by
  rw [Bool.eq_iff_iff]
  exact ⟨fun hxa => same_trans hx ha hb hxa h,
    fun hxb => same_trans hx hb ha hxb (same_symm ha hb h)⟩

end Json

end SwaggerProvider
