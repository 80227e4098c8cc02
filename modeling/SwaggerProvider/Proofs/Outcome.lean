import Mathlib.Data.List.Forall2

/-!
Where the outcome of a chain of fallible steps comes from: of a success every step succeeded, and an
error is that of one step. Two chains whose steps come to related outcomes do so, too.
-/

set_option autoImplicit false

theorem List.exists_forall₂ {α β : Type} {R : α → β → Prop} {l : List α}
    (h : ∀ a ∈ l, ∃ b, R a b) : ∃ bs, List.Forall₂ R l bs := by
  induction l with
  | nil => exact ⟨[], .nil⟩
  | cons a rest ih =>
    obtain ⟨b, hb⟩ := h a List.mem_cons_self
    obtain ⟨more, hmore⟩ := ih fun c hc => h c (List.mem_cons_of_mem _ hc)
    exact ⟨b :: more, .cons hb hmore⟩

theorem List.exists_of_mem_forall₂ {α β : Type} {R : α → β → Prop} {l : List α} {l' : List β}
    (h : List.Forall₂ R l l') {b : β} (hb : b ∈ l') : ∃ a ∈ l, R a b := by
  induction h with
  | nil => cases hb
  | cons hab _ ih =>
    rcases List.mem_cons.1 hb with rfl | hb
    · exact ⟨_, List.mem_cons_self, hab⟩
    · obtain ⟨a, ha, hr⟩ := ih hb
      exact ⟨a, List.mem_cons_of_mem _ ha, hr⟩

namespace Except

variable {ε δ α β : Type}

theorem bind_eq_ok {x : Except ε α} {f : α → Except ε β} {b : β} :
    x.bind f = .ok b ↔ ∃ a, x = .ok a ∧ f a = .ok b := by
  cases x <;> simp [Except.bind]

theorem map_eq_ok {x : Except ε α} {f : α → β} {b : β} :
    x.map f = .ok b ↔ ∃ a, x = .ok a ∧ f a = b := by
  cases x <;> simp [Except.map]

theorem mapError_eq_ok {x : Except ε α} {f : ε → δ} {a : α} :
    x.mapError f = .ok a ↔ x = .ok a := by
  cases x <;> simp [Except.mapError]

theorem toOption_map_eq_some {x : Except ε α} {f : α → β} {b : β} :
    x.toOption.map f = some b ↔ ∃ a, x = .ok a ∧ f a = b := by
  cases x <;> simp [Except.toOption]

theorem mapM_congr {f g : α → Except ε β} {l : List α} (h : ∀ a ∈ l, f a = g a) :
    l.mapM f = l.mapM g := by
  induction l with
  | nil => rfl
  | cons a rest ih =>
    have hrest := ih fun b hb => h b (List.mem_cons_of_mem _ hb)
    rw [List.mapM_cons, List.mapM_cons, h a List.mem_cons_self, hrest]

theorem mapM_eq_ok {f : α → Except ε β} {l : List α} {bs : List β} :
    l.mapM f = .ok bs ↔ List.Forall₂ (fun a b => f a = .ok b) l bs := by
  induction l generalizing bs with
  | nil =>
    rw [List.mapM_nil, List.forall₂_nil_left_iff]
    exact ⟨fun h => by cases h; rfl, fun h => by cases h; rfl⟩
  | cons a rest ih =>
    rw [List.mapM_cons, List.forall₂_cons_left_iff]
    constructor
    · intro h
      obtain ⟨b, hb, h⟩ := bind_eq_ok.1 h
      obtain ⟨more, hmore, h⟩ := bind_eq_ok.1 h
      cases h
      exact ⟨b, more, hb, ih.1 hmore, rfl⟩
    · rintro ⟨b, more, hb, hmore, rfl⟩
      rw [hb, ih.2 hmore]
      rfl

theorem exists_mapM_eq_ok {f : α → Except ε β} {l : List α} (h : ∀ a ∈ l, ∃ b, f a = .ok b) :
    ∃ bs, l.mapM f = .ok bs := by
  obtain ⟨bs, hbs⟩ := List.exists_forall₂ h
  exact ⟨bs, mapM_eq_ok.2 hbs⟩

/-- All errors that can come of it have a property. -/
def FailsOnly (P : ε → Prop) (x : Except ε α) : Prop := ∀ e, x = .error e → P e

namespace FailsOnly

variable {P : ε → Prop} {x : Except ε α}

theorem ok (a : α) : FailsOnly P (.ok a : Except ε α) := fun e h => by cases h

theorem error {e : ε} (h : P e) : FailsOnly P (.error e : Except ε α) := by
  intro other hother
  cases hother
  exact h

theorem bind {f : α → Except ε β} (hx : FailsOnly P x) (hf : ∀ a, FailsOnly P (f a)) :
    FailsOnly P (x.bind f) := by
  intro e h
  cases hc : x with
  | error other =>
    rw [hc] at h
    cases h
    exact hx e hc
  | ok a =>
    rw [hc] at h
    exact hf a e h

theorem map (f : α → β) (hx : FailsOnly P x) : FailsOnly P (x.map f) := by
  intro e h
  cases hc : x with
  | error other =>
    rw [hc] at h
    cases h
    exact hx e hc
  | ok a =>
    rw [hc] at h
    cases h

theorem mapM {f : α → Except ε β} {l : List α} (h : ∀ a ∈ l, FailsOnly P (f a)) :
    FailsOnly P (l.mapM f) := by
  induction l with
  | nil => exact .ok []
  | cons a rest ih =>
    rw [List.mapM_cons]
    have hrest := ih fun b hb => h b (List.mem_cons_of_mem _ hb)
    exact .bind (h a List.mem_cons_self) fun b => .bind hrest fun more => .ok (b :: more)

end FailsOnly

inductive Both (R : α → β → Prop) : Except ε α → Except ε β → Prop where
  | ok {a : α} {b : β} (related : R a b) : Both R (.ok a) (.ok b)
  | error (e f : ε) : Both R (.error e) (.error f)

namespace Both

variable {α' β' : Type} {R : α → β → Prop} {S : α' → β' → Prop} {x : Except ε α} {y : Except ε β}

theorem of_eq {y : Except ε α} (h : x = y) : Both Eq x y := by
  subst h
  cases x with
  | ok a => exact .ok rfl
  | error e => exact .error e e

theorem bind {f : α → Except ε α'} {g : β → Except ε β'} (h : Both R x y)
    (hf : ∀ a b, R a b → Both S (f a) (g b)) : Both S (x.bind f) (y.bind g) := by
  cases h with
  | ok related => exact hf _ _ related
  | error e f => exact .error e f

theorem weaken {T : α → β → Prop} (h : Both R x y) (ht : ∀ a b, R a b → T a b) : Both T x y := by
  cases h with
  | ok related => exact .ok (ht _ _ related)
  | error e f => exact .error e f

end Both

end Except

namespace Option.Rel

variable {α β α' β' : Type} {R : α → β → Prop} {S : α' → β' → Prop} {x : Option α} {y : Option β}

theorem isSome_eq (h : Option.Rel R x y) : x.isSome = y.isSome := by
  cases h <;> rfl

theorem congr {Q : α → β → Prop}
    (h : ∀ a, x = Option.some a → ∀ b, y = Option.some b → (R a b ↔ Q a b)) :
    Option.Rel R x y ↔ Option.Rel Q x y := by
  constructor
  · intro hr
    cases hr with
    | none => exact .none
    | some hr => exact .some ((h _ rfl _ rfl).1 hr)
  · intro hq
    cases hq with
    | none => exact .none
    | some hq => exact .some ((h _ rfl _ rfl).2 hq)

theorem bind {f : α → Option α'} {g : β → Option β'} (h : Option.Rel R x y)
    (hf : ∀ a b, R a b → Option.Rel S (f a) (g b)) : Option.Rel S (x.bind f) (y.bind g) := by
  cases h with
  | some related => exact hf _ _ related
  | none => exact .none

theorem mapM {f : α → Option α'} {g : α → Option β'} (h : ∀ a, Option.Rel S (f a) (g a))
    (l : List α) : Option.Rel (List.Forall₂ S) (l.mapM f) (l.mapM g) := by
  induction l with
  | nil => exact .some .nil
  | cons a rest ih =>
    rw [List.mapM_cons, List.mapM_cons]
    exact bind (h a) fun b c hfirst => bind ih fun more others hmore => .some (.cons hfirst hmore)

theorem findSome? {f : α → Option α'} {g : α → Option β'} (h : ∀ a, Option.Rel S (f a) (g a))
    (l : List α) : Option.Rel S (l.findSome? f) (l.findSome? g) := by
  induction l with
  | nil => exact .none
  | cons a rest ih =>
    rw [List.findSome?_cons, List.findSome?_cons]
    have hfirst := h a
    generalize f a = x, g a = y at hfirst
    cases hfirst with
    | some related => exact .some related
    | none => exact ih

end Option.Rel

theorem Option.mapM_eq_some {α β : Type} {f : α → Option β} {l : List α} {bs : List β} :
    l.mapM f = some bs ↔ List.Forall₂ (fun a b => f a = some b) l bs := by
  induction l generalizing bs with
  | nil =>
    rw [List.mapM_nil, List.forall₂_nil_left_iff]
    exact ⟨fun h => by cases h; rfl, fun h => by cases h; rfl⟩
  | cons a rest ih =>
    rw [List.mapM_cons, List.forall₂_cons_left_iff]
    constructor
    · intro h
      obtain ⟨b, hb, h⟩ := Option.bind_eq_some_iff.1 h
      obtain ⟨more, hmore, h⟩ := Option.bind_eq_some_iff.1 h
      cases h
      exact ⟨b, more, hb, ih.1 hmore, rfl⟩
    · rintro ⟨b, more, hb, hmore, rfl⟩
      rw [hb, ih.2 hmore]
      rfl
