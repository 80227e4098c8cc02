import SwaggerProvider.Path.Parents

/-!
What a step along a path finds: segments, the last of them a literal one, that lead to a parameter.
A step is found exactly where they stand.
-/

set_option autoImplicit false

namespace SwaggerProvider.Path

theorem run?_eq_some {p : Char → Bool} {cs run rest : List Char}
    (h : run? p cs = some (run, rest)) : cs = run ++ rest ∧ run ≠ [] ∧ ∀ c ∈ run, p c = true := by
  unfold run? at h
  have hsplit := List.takeWhile_append_dropWhile (p := p) (l := cs)
  have hall := List.all_takeWhile (p := p) (l := cs)
  dsimp only at h
  split at h
  · cases h
  · next hne =>
    simp only [Option.some.injEq, Prod.mk.injEq] at h
    obtain ⟨rfl, rfl⟩ := h
    have hprefix := List.takeWhile_prefix (l := cs) p
    exact ⟨(List.prefix_iff_eq_append.1 hprefix).symm, by simpa using hne, List.all_eq_true.1 hall⟩

theorem run?_append {p : Char → Bool} {run : List Char} {c : Char} (hne : run ≠ [])
    (hrun : ∀ c ∈ run, p c = true) (hc : p c = false) (rest : List Char) :
    run? p (run ++ c :: rest) = some (run, c :: rest) := by
  have htake : (run ++ c :: rest).takeWhile p = run := by
    rw [List.takeWhile_append_of_pos hrun, List.takeWhile_cons_of_neg (by simp [hc]),
      List.append_nil]
  unfold run?
  rw [htake]
  simp [hne]

theorem segment?_eq_some {p : Char → Bool} {cs run rest : List Char}
    (h : segment? p cs = some (run, rest)) :
    cs = run ++ '/' :: rest ∧ run ≠ [] ∧ ∀ c ∈ run, p c = true := by
  unfold segment? at h
  split at h
  · next hrun =>
    cases h
    exact run?_eq_some hrun
  · cases h

theorem segment?_append {p : Char → Bool} {run : List Char} (hne : run ≠ [])
    (hrun : ∀ c ∈ run, p c = true) (hslash : p '/' = false) (rest : List Char) :
    segment? p (run ++ '/' :: rest) = some (run, rest) := by
  unfold segment?
  rw [run?_append hne hrun hslash rest]
  rfl

def IsName (name : List Char) : Prop := name ≠ [] ∧ ∀ c ∈ name, isDelimiter c = false

def braced (name : List Char) : List Char := '{' :: name ++ ['}']

theorem parameter?_eq_some {cs name tail : List Char} :
    parameter? cs = some (name, tail) ↔ cs = braced name ++ tail ∧ IsName name := by
  constructor
  · intro h
    unfold parameter? at h
    split at h
    · split at h
      · next hrun =>
        cases h
        obtain ⟨rfl, hne, hname⟩ := run?_eq_some hrun
        exact ⟨by simp [braced], hne, fun c hc => by simpa using hname c hc⟩
      · cases h
    · cases h
  · rintro ⟨rfl, hne, hname⟩
    have hrun := run?_append (p := fun c => !isDelimiter c) (c := '}') hne
      (fun c hc => by simp [hname c hc]) (by decide) tail
    have hcs : braced name ++ tail = '{' :: (name ++ '}' :: tail) := by simp [braced]
    rw [hcs, parameter?, hrun]
    rfl

def Led (before : List Char) : Prop :=
  ∃ front literal, before = front ++ '/' :: literal ++ ['/'] ∧ literal ≠ [] ∧
    ∀ c ∈ literal, isSegmentChar c = true

theorem Led.append {before : List Char} (h : Led before) (front : List Char) :
    Led (front ++ before) := by
  obtain ⟨start, literal, rfl, hliteral⟩ := h
  exact ⟨front ++ start, literal, by simp, hliteral⟩

structure Found (front cs : List Char) (step : Step) : Prop where
  split : ∃ passed literal, step.1 = front ++ passed ++ literal ∧
    cs = passed ++ literal ++ '/' :: braced step.2.1 ++ step.2.2 ∧
    (passed = [] ∨ ∃ more, passed = more ++ ['/']) ∧ '{' ∉ passed ∧
    literal ≠ [] ∧ ∀ c ∈ literal, isSegmentChar c = true
  name : IsName step.2.1

theorem literalStep_found {front cs : List Char} {step : Step}
    (h : literalStep front cs = some step) : Found front cs step := by
  unfold literalStep at h
  split at h
  · next literal rest hs =>
    obtain ⟨rfl, hne, hall⟩ := segment?_eq_some hs
    obtain ⟨⟨name, tail⟩, hparameter, hstep⟩ := Option.map_eq_some_iff.1 h
    cases hstep
    obtain ⟨rfl, hname⟩ := parameter?_eq_some.1 hparameter
    exact ⟨⟨[], literal, by simp, by simp, .inl rfl, by simp, hne, hall⟩, hname⟩
  · cases h

theorem literalStep_append {literal name : List Char} (hne : literal ≠ [])
    (hall : ∀ c ∈ literal, isSegmentChar c = true) (hname : IsName name)
    (front tail : List Char) :
    literalStep front (literal ++ '/' :: (braced name ++ tail)) =
      some (front ++ literal, name, tail) := by
  have hsegment := segment?_append hne hall (by decide) (braced name ++ tail)
  unfold literalStep
  rw [hsegment]
  dsimp only
  rw [parameter?_eq_some.2 ⟨rfl, hname⟩]
  rfl

theorem notMem_version {d : Char} {digits : List Char}
    (hall : ∀ c ∈ digits, Text.isDigit c = true) (hv : d ≠ 'v') (hd : Text.isDigit d = false) :
    d ∉ 'v' :: digits := by
  intro hmem
  rcases List.mem_cons.1 hmem with rfl | hmem
  · exact hv rfl
  · rw [hall d hmem] at hd
    cases hd

theorem versionSegment?_digits {cs version rest : List Char}
    (h : versionSegment? cs = some (version, rest)) :
    ∃ digits, version = 'v' :: digits ∧ cs = version ++ '/' :: rest ∧ digits ≠ [] ∧
      ∀ c ∈ digits, Text.isDigit c = true := by
  unfold versionSegment? at h
  split at h
  · obtain ⟨⟨digits, tail⟩, hs, h⟩ := Option.map_eq_some_iff.1 h
    cases h
    obtain ⟨rfl, hne, hall⟩ := segment?_eq_some hs
    exact ⟨digits, rfl, rfl, hne, hall⟩
  · cases h

theorem versionSegment?_append {digits : List Char} (hne : digits ≠ [])
    (hall : ∀ c ∈ digits, Text.isDigit c = true) (rest : List Char) :
    versionSegment? ('v' :: digits ++ '/' :: rest) = some ('v' :: digits, rest) := by
  have hsegment := segment?_append hne hall (by decide) rest
  rw [List.cons_append, versionSegment?, hsegment]
  rfl

theorem versionSegment?_eq_some {cs version rest : List Char}
    (h : versionSegment? cs = some (version, rest)) :
    cs = version ++ '/' :: rest ∧ '{' ∉ version := by
  obtain ⟨digits, rfl, rfl, -, hall⟩ := versionSegment?_digits h
  exact ⟨rfl, notMem_version hall (by decide) (by decide)⟩

theorem versionedStep_found {front cs : List Char} {step : Step}
    (h : versionedStep front cs = some step) : Found front cs step := by
  unfold versionedStep at h
  split at h
  · next version rest hv =>
    split at h
    · next hs =>
      cases h
      obtain ⟨rfl, hbrace⟩ := versionSegment?_eq_some hv
      obtain ⟨⟨passed, literal, hstep, rfl, hpassed, hno, hliteral⟩, hname⟩ := literalStep_found hs
      refine ⟨⟨version ++ '/' :: passed, literal, by simp [hstep], by simp, .inr ?_, ?_, hliteral⟩,
        hname⟩
      · rcases hpassed with rfl | ⟨more, rfl⟩
        · exact ⟨version, rfl⟩
        · exact ⟨version ++ '/' :: more, by simp⟩
      · simp [hbrace, hno]
    · exact literalStep_found h
  · exact literalStep_found h

theorem step?_found {cs : List Char} {step : Step} (h : step? cs = some step) :
    cs = step.1 ++ '/' :: (braced step.2.1 ++ step.2.2) ∧ Led (step.1 ++ ['/']) ∧
      '{' ∉ step.1 ∧ IsName step.2.1 := by
  have hfound : ∃ front rest, Found (front ++ ['/']) rest step ∧ cs = front ++ '/' :: rest ∧
      '{' ∉ front := by
    unfold step? at h
    split at h
    · next rest =>
      split at h
      · next hs =>
        cases h
        exact ⟨[], rest, versionedStep_found hs, rfl, by simp⟩
      · split at h
        · next first more hfirst =>
          obtain ⟨rfl, -, hall⟩ := segment?_eq_some hfirst
          refine ⟨'/' :: first, more, versionedStep_found h, rfl, fun hmem => ?_⟩
          rcases List.mem_cons.1 hmem with hmem | hmem
          · exact absurd hmem (by decide)
          · exact absurd (hall _ hmem) (by decide)
        · cases h
    · cases h
  obtain ⟨front, rest, ⟨⟨passed, literal, hstep, rfl, hpassed, hno, hne, hall⟩, hname⟩, rfl,
    hfront⟩ := hfound
  have hliteral : '{' ∉ literal := fun hmem => absurd (hall _ hmem) (by decide)
  rw [hstep]
  refine ⟨by simp, ?_, by simp [hfront, hno, hliteral], hname⟩
  rcases hpassed with rfl | ⟨more, rfl⟩
  · exact ⟨front, literal, by simp, hne, hall⟩
  · exact ⟨front ++ '/' :: more, literal, by simp, hne, hall⟩

/-- A step is found wherever a literal segment and a parameter stand. -/
theorem step?_isSome {literal name : List Char} (hne : literal ≠ [])
    (hall : ∀ c ∈ literal, isSegmentChar c = true) (hname : IsName name) (tail : List Char) :
    (step? ('/' :: literal ++ '/' :: (braced name ++ tail))).isSome = true := by
  have hliteral := literalStep_append hne hall hname ['/'] tail
  have hversioned : (versionedStep ['/']
      (literal ++ '/' :: (braced name ++ tail))).isSome = true := by
    unfold versionedStep
    split
    · split
      · rfl
      · rw [hliteral]
        rfl
    · rw [hliteral]
      rfl
  obtain ⟨step, hstep⟩ := Option.isSome_iff_exists.1 hversioned
  rw [List.cons_append, step?, hstep]
  rfl

theorem step?_version_isSome {digits literal name : List Char} (hdigits : digits ≠ [])
    (hversion : ∀ c ∈ digits, Text.isDigit c = true) (hne : literal ≠ [])
    (hall : ∀ c ∈ literal, isSegmentChar c = true) (hname : IsName name) (tail : List Char) :
    (step? ('/' :: 'v' :: digits ++ '/' :: literal ++ '/' :: (braced name ++ tail))).isSome =
      true := by
  have hsegment := versionSegment?_append hdigits hversion (literal ++ '/' :: (braced name ++ tail))
  have hliteral := literalStep_append hne hall hname (['/'] ++ 'v' :: digits ++ ['/']) tail
  have hversioned : versionedStep ['/']
      ('v' :: digits ++ '/' :: (literal ++ '/' :: (braced name ++ tail))) =
        some (['/'] ++ 'v' :: digits ++ ['/'] ++ literal, name, tail) := by
    rw [versionedStep, hsegment]
    dsimp only
    rw [hliteral]
  rw [List.append_assoc, List.cons_append, List.cons_append, step?, List.cons_append,
    ← List.cons_append, hversioned]
  rfl

end SwaggerProvider.Path
