import SwaggerProvider.Text.Basic

/-!
Texts in pieces. Pieces hold no separator, and what is put together from such pieces falls apart
into them again.
-/

set_option autoImplicit false

namespace SwaggerProvider.Text

variable {separator : Char}

section Join

@[simp] theorem join_cons_append (separator front piece : List Char) (more : List (List Char)) :
    join separator ((front ++ piece) :: more) = front ++ join separator (piece :: more) := by
  cases more <;> simp [join]

theorem join_cons_of_ne_nil (separator piece : List Char) {more : List (List Char)}
    (h : more ≠ []) :
    join separator (piece :: more) = piece ++ separator ++ join separator more := by
  cases more with
  | nil => exact absurd rfl h
  | cons next rest => rfl

theorem cons_join (separator : Char) {ps : List (List Char)} (h : ps ≠ []) :
    separator :: join [separator] ps = ps.flatMap (separator :: ·) := by
  induction ps with
  | nil => exact absurd rfl h
  | cons piece more ih =>
    by_cases hmore : more = []
    · rw [hmore]
      simp [join]
    · rw [join_cons_of_ne_nil _ _ hmore, List.flatMap_cons, ← ih hmore]
      simp

end Join

@[simp] theorem pieces_append_cons (front rest : List Char) :
    pieces separator (front ++ separator :: rest) =
      pieces separator front ++ pieces separator rest := by
  induction front with
  | nil => simp [pieces]
  | cons c front ih =>
    rw [List.cons_append, pieces, pieces, ih]
    by_cases hc : c = separator
    · rw [if_pos hc, if_pos hc, List.cons_append]
    · rw [if_neg hc, if_neg hc]
      cases hp : pieces separator front with
      | nil => exact absurd hp (pieces_ne_nil _ _)
      | cons piece more => rfl

theorem pieces_of_notMem {cs : List Char} (h : separator ∉ cs) : pieces separator cs = [cs] := by
  induction cs with
  | nil => rfl
  | cons c rest ih =>
    have hc : c ≠ separator := fun heq => h (heq ▸ List.mem_cons_self)
    rw [pieces, if_neg hc, ih fun hmem => h (List.mem_cons_of_mem _ hmem)]

theorem notMem_of_mem_pieces {cs piece : List Char} (h : piece ∈ pieces separator cs) :
    separator ∉ piece := by
  induction cs generalizing piece with
  | nil =>
    cases List.mem_singleton.1 h
    simp
  | cons c rest ih =>
    rw [pieces] at h
    split at h
    · rcases List.mem_cons.1 h with rfl | h
      · simp
      · exact ih h
    · next hc =>
      cases hp : pieces separator rest with
      | nil => exact absurd hp (pieces_ne_nil _ _)
      | cons first more =>
        rw [hp] at h ih
        rcases List.mem_cons.1 h with rfl | h
        · simp [Ne.symm hc, ih List.mem_cons_self]
        · exact ih (List.mem_cons_of_mem _ h)

theorem pieces_join {ps : List (List Char)} (hne : ps ≠ []) (h : ∀ piece ∈ ps, separator ∉ piece) :
    pieces separator (join [separator] ps) = ps := by
  induction ps with
  | nil => exact absurd rfl hne
  | cons first more ih =>
    have hfirst := pieces_of_notMem (h first List.mem_cons_self)
    by_cases hmore : more = []
    · rw [hmore]
      exact hfirst
    · have hrest := ih hmore fun piece hpiece => h piece (List.mem_cons_of_mem _ hpiece)
      rw [join_cons_of_ne_nil _ _ hmore, List.append_assoc, List.singleton_append,
        pieces_append_cons, hfirst, hrest, List.singleton_append]

section Replacing

variable {pattern : List Char}

theorem not_infix_cons_of_after? {c : Char} {piece : List Char} {more : List (List Char)}
    (hpiece : ¬pattern <:+: piece)
    (hstart : after? pattern (c :: join pattern (piece :: more)) = none) :
    ¬pattern <:+: c :: piece := by
  intro hinfix
  rcases List.infix_cons_iff.1 hinfix with hstarts | hinside
  · obtain ⟨rest, hrest⟩ := hstarts
    have hjoin := join_cons_append pattern piece [] more
    rw [List.append_nil] at hjoin
    have hall : c :: join pattern (piece :: more) =
        pattern ++ (rest ++ join pattern ([] :: more)) := by
      rw [hjoin, ← List.append_assoc, hrest, List.cons_append]
    rw [(after?_eq_some_iff pattern _ _).2 hall] at hstart
    cases hstart
  · exact hpiece hinside

theorem exists_pieces_replaceAll_go (hpattern : pattern ≠ []) (image : List Char) {fuel : Nat}
    {cs : List Char} (hfuel : cs.length ≤ fuel) :
    ∃ ps, ps ≠ [] ∧ (∀ piece ∈ ps, ¬pattern <:+: piece) ∧ cs = join pattern ps ∧
      replaceAll.go pattern image fuel cs = join image ps := by
  induction fuel generalizing cs with
  | zero =>
    obtain rfl := List.eq_nil_of_length_eq_zero (Nat.le_zero.1 hfuel)
    exact ⟨[[]], by simp, by simpa using hpattern, rfl, rfl⟩
  | succ n ih =>
    cases cs with
    | nil => exact ⟨[[]], by simp, by simpa using hpattern, rfl, rfl⟩
    | cons c rest =>
      rw [replaceAll.go]
      cases hafter : after? pattern (c :: rest) with
      | some tail =>
        have hcs := (after?_eq_some_iff _ _ _).1 hafter
        have hshorter : tail.length ≤ n := by
          have hlength := congrArg List.length hcs
          have hpos := List.length_pos_iff.2 hpattern
          simp only [List.length_cons, List.length_append] at hlength hfuel
          omega
        obtain ⟨ps, hne, hfree, htail, hgo⟩ := ih hshorter
        refine ⟨[] :: ps, by simp, ?_, ?_, ?_⟩
        · simpa [hpattern] using hfree
        · rw [join_cons_of_ne_nil _ _ hne, ← htail]
          exact hcs
        · rw [join_cons_of_ne_nil _ _ hne, ← hgo]
          rfl
      | none =>
        obtain ⟨ps, hne, hfree, hrest, hgo⟩ := ih (Nat.le_of_succ_le_succ hfuel)
        cases ps with
        | nil => exact absurd rfl hne
        | cons piece more =>
          obtain ⟨hpiece, hmore⟩ := List.forall_mem_cons.1 hfree
          rw [hrest] at hafter
          refine ⟨(c :: piece) :: more, by simp, ?_, ?_, ?_⟩
          · exact List.forall_mem_cons.2 ⟨not_infix_cons_of_after? hpiece hafter, hmore⟩
          · rw [hrest]
            exact (join_cons_append pattern [c] piece more).symm
          · rw [hgo]
            exact (join_cons_append image [c] piece more).symm

theorem exists_pieces_replaceAll (hpattern : pattern ≠ []) (image cs : List Char) :
    ∃ ps, ps ≠ [] ∧ (∀ piece ∈ ps, ¬pattern <:+: piece) ∧ cs = join pattern ps ∧
      replaceAll pattern image cs = join image ps :=
  exists_pieces_replaceAll_go hpattern image (Nat.le_refl _)

end Replacing

end SwaggerProvider.Text
