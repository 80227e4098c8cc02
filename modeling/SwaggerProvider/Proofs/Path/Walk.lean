import SwaggerProvider.Proofs.Path.Steps

/-!
The walk along a path on which its parents are found: where no step starts a character is passed,
and every other step is a parent's unless only slashes follow.
-/

set_option autoImplicit false

namespace SwaggerProvider.Path

def parentAt (done segment parameter : List Char) (name : String) : Parent where
  name := name
  root := String.ofList (done ++ segment)
  instancePath := String.ofList (done ++ (segment ++ ['/']) ++ braced parameter)
  parameter := String.ofList parameter

inductive Walk : List Char → List Char → List Char → List Parent → List Char → Prop where
  | finish (done kept : List Char) : Walk done kept [] [] kept
  | pass {done kept rest tail : List Char} {c : Char} {parents : List Parent}
      (nothing : step? (c :: rest) = none)
      (next : Walk (done ++ [c]) (kept ++ [c]) rest parents tail) :
      Walk done kept (c :: rest) parents tail
  | own {done kept rest segment parameter ending : List Char}
      (step : step? rest = some (segment, parameter, ending)) (slashes : ∀ c ∈ ending, c = '/') :
      Walk done kept rest [] (kept ++ rest)
  | parent {done kept rest segment parameter ahead tail : List Char} {name : String}
      {parents : List Parent} (step : step? rest = some (segment, parameter, ahead))
      (more : ∃ c ∈ ahead, c ≠ '/') (named : resourceName (String.ofList segment) = .ok name)
      (next : Walk (done ++ (segment ++ ['/']) ++ braced parameter) [] ahead parents tail) :
      Walk done kept rest (parentAt done segment parameter name :: parents) tail

section

variable {done kept rest segment parameter ahead tail : List Char} {c : Char}
  {found parents : List Parent}

@[simp] theorem walk_nil : Walk done kept [] found tail ↔ found = [] ∧ tail = kept := by
  constructor
  · intro h
    cases h with
    | finish => exact ⟨rfl, rfl⟩
    | own step => cases step
    | parent step => cases step
  · rintro ⟨rfl, rfl⟩
    exact .finish _ _

theorem walk_pass (h : step? (c :: rest) = none) :
    Walk done kept (c :: rest) found tail ↔ Walk (done ++ [c]) (kept ++ [c]) rest found tail := by
  constructor
  · intro hwalk
    cases hwalk with
    | pass nothing next => exact next
    | own step => exact absurd (h.symm.trans step) (by simp)
    | parent step => exact absurd (h.symm.trans step) (by simp)
  · exact .pass h

theorem walk_own (h : step? rest = some (segment, parameter, ahead))
    (hslashes : ∀ c ∈ ahead, c = '/') :
    Walk done kept rest found tail ↔ found = [] ∧ tail = kept ++ rest := by
  constructor
  · intro hwalk
    cases hwalk with
    | finish => cases h
    | pass nothing => exact absurd (nothing.symm.trans h) (by simp)
    | own => exact ⟨rfl, rfl⟩
    | parent step more =>
      cases h.symm.trans step
      obtain ⟨d, hd, hne⟩ := more
      exact absurd (hslashes d hd) hne
  · rintro ⟨rfl, rfl⟩
    exact .own h hslashes

theorem walk_parent (h : step? rest = some (segment, parameter, ahead))
    (hmore : ∃ c ∈ ahead, c ≠ '/') :
    Walk done kept rest found tail ↔
      ∃ name parents, resourceName (String.ofList segment) = .ok name ∧
        found = parentAt done segment parameter name :: parents ∧
        Walk (done ++ (segment ++ ['/']) ++ braced parameter) [] ahead parents tail := by
  constructor
  · intro hwalk
    cases hwalk with
    | finish => cases h
    | pass nothing => exact absurd (nothing.symm.trans h) (by simp)
    | own step slashes =>
      cases h.symm.trans step
      obtain ⟨d, hd, hne⟩ := hmore
      exact absurd (slashes d hd) hne
    | parent step more named next =>
      cases h.symm.trans step
      exact ⟨_, _, named, rfl, next⟩
  · rintro ⟨name, parents, hname, rfl, hwalk⟩
    exact .parent h hmore hname hwalk

theorem length_ahead_lt (h : step? rest = some (segment, parameter, ahead)) :
    ahead.length + 3 ≤ rest.length := by
  obtain ⟨hrest, -⟩ := step?_found h
  have hlength := congrArg List.length hrest
  simp only [braced, List.length_cons, List.length_append, List.length_nil] at hlength
  omega

theorem chainFrom_eq_ok {fuel : Nat} {chain : Chain} (hfuel : rest.length < fuel) :
    chainFrom fuel done parents kept rest = .ok chain ↔
      ∃ found tail, Walk done kept rest found tail ∧
        chain = ⟨parents.reverse ++ found, String.ofList tail⟩ := by
  induction fuel generalizing done parents kept rest with
  | zero => omega
  | succ fuel ih =>
    have hnothing (left : List Char) : (∃ found tail, (found = [] ∧ tail = left) ∧
        chain = ⟨parents.reverse ++ found, String.ofList tail⟩) ↔
        (.ok ⟨parents.reverse, String.ofList left⟩ : Except Error Chain) = .ok chain := by
      constructor
      · rintro ⟨_, _, ⟨rfl, rfl⟩, rfl⟩
        rw [List.append_nil]
      · intro h
        rw [← Except.ok.inj h]
        exact ⟨[], left, ⟨rfl, rfl⟩, by rw [List.append_nil]⟩
    cases rest with
    | nil => simp only [chainFrom, walk_nil, hnothing]
    | cons c rest =>
      rw [List.length_cons] at hfuel
      rw [chainFrom]
      cases hs : step? (c :: rest) with
      | none =>
        dsimp only
        rw [ih (by omega)]
        simp only [walk_pass hs]
      | some step =>
        obtain ⟨segment, parameter, ahead⟩ := step
        have hlt := length_ahead_lt hs
        rw [List.length_cons] at hlt
        dsimp only
        by_cases hslashes : ahead.all (· == '/') = true
        · rw [if_pos hslashes]
          simp only [walk_own hs (by simpa using hslashes), hnothing]
        · have hdone : done ++ segment ++ ['/', '{'] ++ parameter ++ ['}'] =
              done ++ (segment ++ ['/']) ++ braced parameter := by simp [braced]
          rw [if_neg hslashes, hdone]
          simp only [walk_parent hs (by simpa using hslashes)]
          cases resourceName (String.ofList segment) with
          | error e => simp
          | ok name =>
            dsimp only
            rw [ih (by omega)]
            constructor
            · rintro ⟨found, tail, hwalk, rfl⟩
              exact ⟨_, tail, ⟨name, found, rfl, rfl, hwalk⟩, by simp [parentAt]⟩
            · rintro ⟨_, tail, ⟨_, found, hname, rfl, hwalk⟩, rfl⟩
              cases hname
              exact ⟨found, tail, hwalk, by simp [parentAt]⟩

theorem chain_eq_ok {path : String} {c : Chain} :
    chain path = .ok c ↔ Walk [] [] path.toList c.parents c.tail.toList := by
  unfold chain
  rw [chainFrom_eq_ok (Nat.lt_succ_self _)]
  constructor
  · rintro ⟨found, tail, hwalk, rfl⟩
    simpa using hwalk
  · intro h
    exact ⟨_, _, h, by simp⟩

end

section Missed

variable {done rest name tail : List Char} {c : Char}

def Missed (done rest : List Char) : Prop :=
  ∀ front back, done = front ++ '/' :: back → '}' ∉ back → step? ('/' :: back ++ rest) = none

@[simp] theorem missed_nil (rest : List Char) : Missed [] rest := by
  intro front back h
  simp at h

theorem snoc_eq_split {front back : List Char} (h : done ++ [c] = front ++ '/' :: back) :
    (c = '/' ∧ back = []) ∨ ∃ init, back = init ++ [c] ∧ done = front ++ '/' :: init := by
  rcases List.eq_nil_or_concat back with rfl | ⟨init, d, rfl⟩
  · obtain ⟨-, hc⟩ := List.append_inj' h rfl
    exact .inl ⟨List.singleton_inj.1 hc, rfl⟩
  · rw [List.concat_eq_append, ← List.cons_append, ← List.append_assoc] at h
    obtain ⟨hdone, hc⟩ := List.append_inj' h rfl
    exact .inr ⟨init, by rw [List.concat_eq_append, hc], hdone⟩

theorem missed_braced (done name rest : List Char) : Missed (done ++ braced name) rest := by
  intro front back h hbrace
  rw [braced, ← List.append_assoc] at h
  rcases snoc_eq_split h with ⟨hc, -⟩ | ⟨init, rfl, -⟩
  · cases hc
  · simp at hbrace

theorem Missed.next (h : Missed done (c :: rest)) (hstep : step? (c :: rest) = none) :
    Missed (done ++ [c]) rest := by
  intro front back hdone hbrace
  rcases snoc_eq_split hdone with ⟨rfl, rfl⟩ | ⟨init, rfl, rfl⟩
  · exact hstep
  · have hinit : '}' ∉ init := fun hmem => hbrace (List.mem_append_left _ hmem)
    simpa using h front init rfl hinit

theorem Missed.not_led (h : Missed done (braced name ++ tail)) (hname : IsName name) :
    ¬ Led done := by
  rintro ⟨front, literal, rfl, hne, hall⟩
  have hbrace : '}' ∉ literal ++ ['/'] := by
    intro hmem
    rcases List.mem_append.1 hmem with hmem | hmem
    · exact absurd (hall _ hmem) (by decide)
    · exact absurd hmem (by decide)
  have hnone := h front (literal ++ ['/']) (by simp) hbrace
  have hfound := step?_isSome hne hall hname tail
  rw [show '/' :: literal ++ '/' :: (braced name ++ tail) =
    '/' :: (literal ++ ['/']) ++ (braced name ++ tail) by simp, hnone] at hfound
  cases hfound

inductive Parent.Met : Parent → Prop where
  | intro {done rest segment parameter ahead : List Char} {name : String}
      (missed : Missed done rest) (step : step? rest = some (segment, parameter, ahead))
      (named : resourceName (String.ofList segment) = .ok name) :
      Met (parentAt done segment parameter name)

theorem Walk.met {kept tail : List Char} {parents : List Parent}
    (h : Walk done kept rest parents tail) (hmissed : Missed done rest) :
    ∀ p ∈ parents, p.Met := by
  induction h with
  | finish => simp
  | pass nothing next ih => exact ih (hmissed.next nothing)
  | own => simp
  | parent step more named next ih =>
    intro p hp
    rcases List.mem_cons.1 hp with rfl | hp
    · exact ⟨hmissed, step, named⟩
    · exact ih (missed_braced _ _ _) p hp

theorem chain_met {path : String} {found : Chain} (h : chain path = .ok found) :
    ∀ p ∈ found.parents, p.Met :=
  (chain_eq_ok.1 h).met (missed_nil _)

end Missed

end SwaggerProvider.Path
