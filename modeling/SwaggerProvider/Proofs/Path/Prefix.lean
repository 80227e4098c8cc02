import SwaggerProvider.Proofs.Path.Walk

/-!
The chain of a parent's own path. What a step finds ends with a parameter, and nothing after that
parameter can change it; so the parents on the way to a parent are those that stand before it.
-/

set_option autoImplicit false

namespace SwaggerProvider.Path

section More

def Closed (cs : List Char) : Prop :=
  ∃ d ∈ (cs.dropWhile fun c => c != '{').tail, isDelimiter d = true

variable {p : Char → Bool} {cs front rest run : List Char}

theorem closed_append (h : '{' ∉ front) : Closed (front ++ rest) ↔ Closed rest := by
  have hskip : ∀ c ∈ front, (c != '{') = true := by
    intro c hc
    simpa using fun heq : c = '{' => h (heq ▸ hc)
  unfold Closed
  rw [List.dropWhile_append_of_pos hskip]

theorem closed_braced (name rest : List Char) : Closed (braced name ++ rest) :=
  ⟨'}', by simp [braced], rfl⟩

theorem Closed.cons (c : Char) (h : Closed rest) : Closed (c :: rest) := by
  by_cases hc : c = '{'
  · obtain ⟨d, hd, hdelimiter⟩ := h
    have hmem := (List.dropWhile_sublist _).subset (List.mem_of_mem_tail hd)
    exact ⟨d, by simpa [hc] using hmem, hdelimiter⟩
  · have hfront : '{' ∉ [c] := by simpa using Ne.symm hc
    exact (closed_append hfront).2 h

theorem Closed.mem (h : Closed cs) : '{' ∈ cs := by
  by_cases hmem : '{' ∈ cs
  · exact hmem
  · have hnil : Closed [] := (closed_append hmem).1 (by rwa [List.append_nil])
    obtain ⟨d, hd, -⟩ := hnil
    cases hd

theorem run?_more (h : ∃ c ∈ cs, p c = false) (more : List Char) :
    run? p (cs ++ more) = (run? p cs).map fun s => (s.1, s.2 ++ more) := by
  have htake : (cs ++ more).takeWhile p = cs.takeWhile p := by
    rw [List.takeWhile_append, if_neg]
    intro hlength
    obtain ⟨c, hc, hp⟩ := h
    have hsame : cs.takeWhile p = cs := (List.takeWhile_prefix p).eq_of_length hlength
    have hall := List.all_takeWhile (p := p) (l := cs)
    rw [hsame] at hall
    rw [List.all_eq_true.1 hall c hc] at hp
    cases hp
  have hshort : (cs.takeWhile p).length ≤ cs.length := (List.takeWhile_prefix p).length_le
  unfold run?
  rw [htake]
  dsimp only
  split
  · rfl
  · rw [List.drop_append_of_le_length hshort]
    rfl

theorem segment?_more (hp : p '{' = false) (h : '{' ∈ cs) (more : List Char) :
    segment? p (cs ++ more) = (segment? p cs).map fun s => (s.1, s.2 ++ more) := by
  have hrun := run?_more ⟨'{', h, hp⟩ more
  unfold segment?
  rw [hrun]
  cases hr : run? p cs with
  | none => rfl
  | some found =>
    obtain ⟨run, rest⟩ := found
    obtain ⟨rfl, -, hall⟩ := run?_eq_some hr
    cases rest with
    | nil =>
      rw [List.append_nil] at h
      rw [hall _ h] at hp
      cases hp
    | cons c rest => by_cases hc : c = '/' <;> simp [hc]

theorem Closed.segment (h : Closed cs) (hp : p '{' = false)
    (hs : segment? p cs = some (run, rest)) : Closed rest := by
  obtain ⟨rfl, -, hall⟩ := segment?_eq_some hs
  have hno : '{' ∉ run ++ ['/'] := by
    intro hmem
    rcases List.mem_append.1 hmem with hmem | hmem
    · rw [hall _ hmem] at hp
      cases hp
    · exact absurd hmem (by decide)
  refine (closed_append hno).1 ?_
  simpa using h

theorem parameter?_more (h : Closed cs) (more : List Char) :
    parameter? (cs ++ more) = (parameter? cs).map fun s => (s.1, s.2 ++ more) := by
  cases cs with
  | nil => exact absurd h.mem (by simp)
  | cons c rest =>
    by_cases hc : c = '{'
    · subst hc
      obtain ⟨d, hd, hdelimiter⟩ := h
      have hmem : d ∈ rest := by simpa using hd
      have hrun := run?_more (p := fun c => !isDelimiter c) ⟨d, hmem, by simp [hdelimiter]⟩ more
      rw [List.cons_append, parameter?, parameter?, hrun]
      cases hr : run? (fun c => !isDelimiter c) rest with
      | none => rfl
      | some found =>
        obtain ⟨name, tail⟩ := found
        obtain ⟨rfl, -, hall⟩ := run?_eq_some hr
        cases tail with
        | nil =>
          have hplain := hall d (by simpa using hmem)
          rw [hdelimiter] at hplain
          cases hplain
        | cons e tail => by_cases he : e = '}' <;> simp [he]
    · simp [parameter?, hc]

def Step.extend (more : List Char) (step : Step) : Step := (step.1, step.2.1, step.2.2 ++ more)

theorem literalStep_more (h : Closed cs) (more : List Char) :
    literalStep front (cs ++ more) = (literalStep front cs).map (Step.extend more) := by
  unfold literalStep
  rw [segment?_more (by decide) h.mem]
  cases hs : segment? isSegmentChar cs with
  | none => rfl
  | some found =>
    obtain ⟨literal, rest⟩ := found
    have hrest : Closed rest := h.segment (by decide) hs
    simp only [Option.map_some, parameter?_more hrest, Option.map_map]
    rfl

theorem versionSegment?_more (h : Closed cs) (more : List Char) :
    versionSegment? (cs ++ more) = (versionSegment? cs).map fun s => (s.1, s.2 ++ more) := by
  cases cs with
  | nil => exact absurd h.mem (by simp)
  | cons c rest =>
    by_cases hc : c = 'v'
    · subst hc
      have hrest : '{' ∈ rest := by simpa using h.mem
      rw [List.cons_append, versionSegment?, versionSegment?, segment?_more (by decide) hrest,
        Option.map_map, Option.map_map]
      rfl
    · simp [versionSegment?, hc]

theorem versionedStep_more (h : Closed cs) (more : List Char) :
    versionedStep front (cs ++ more) = (versionedStep front cs).map (Step.extend more) := by
  unfold versionedStep
  rw [versionSegment?_more h]
  cases hv : versionSegment? cs with
  | none => exact literalStep_more h more
  | some found =>
    obtain ⟨version, rest⟩ := found
    obtain ⟨rfl, hbrace⟩ := versionSegment?_eq_some hv
    have hno : '{' ∉ version ++ ['/'] := by simp [hbrace]
    have hrest : Closed rest := (closed_append hno).1 (by simpa using h)
    simp only [Option.map_some, literalStep_more hrest]
    cases literalStep (front ++ version ++ ['/']) rest with
    | none => exact literalStep_more h more
    | some step => rfl

theorem step?_more (h : Closed cs) (more : List Char) :
    step? (cs ++ more) = (step? cs).map (Step.extend more) := by
  cases cs with
  | nil => exact absurd h.mem (by simp)
  | cons c rest =>
    by_cases hc : c = '/'
    · subst hc
      have hslash : '{' ∉ ['/'] := by decide
      have hrest : Closed rest := (closed_append hslash).1 h
      rw [List.cons_append, step?, step?, versionedStep_more hrest]
      cases versionedStep ['/'] rest with
      | some step => rfl
      | none =>
        rw [Option.map_none, segment?_more (by decide) hrest.mem]
        cases hs : segment? Text.isWord rest with
        | none => rfl
        | some found => exact versionedStep_more (hrest.segment (by decide) hs) more
    · simp [step?, hc]

end More

section Chains

variable {cs segment parameter ahead beyond : List Char}

theorem step?_cut (hclosed : Closed cs)
    (h : step? (cs ++ beyond) = some (segment, parameter, ahead ++ beyond)) :
    step? cs = some (segment, parameter, ahead) := by
  rw [step?_more hclosed] at h
  obtain ⟨⟨found, name, rest⟩, hstep, hextend⟩ := Option.map_eq_some_iff.1 h
  obtain ⟨rfl, rfl, hrest⟩ : found = segment ∧ name = parameter ∧
      rest ++ beyond = ahead ++ beyond := by
    simpa [Step.extend] using hextend
  rw [hstep, List.append_cancel_right hrest]

/-- Up to a parent the walk along a path is the walk along the parent's own path, on which the
parents before it are found. -/
theorem Walk.cut {done kept rest tail : List Char} {parents before after : List Parent} {p : Parent}
    (h : Walk done kept rest parents tail) (hp : parents = before ++ p :: after) :
    ∃ cut beyond, rest = cut ++ beyond ∧ Closed cut ∧
      p.instancePath = String.ofList (done ++ cut) ∧
      ∀ kept, ∃ tail, Walk done kept cut before tail := by
  induction h generalizing before with
  | finish => simp at hp
  | own => simp at hp
  | @pass done kept rest tail c parents nothing next ih =>
    obtain ⟨cut, beyond, rfl, hclosed, hpath, hwalk⟩ := ih hp
    have hnone : step? (c :: cut) = none := by
      have hmore := step?_more (hclosed.cons c) beyond
      rw [List.cons_append, nothing] at hmore
      exact Option.map_eq_none_iff.1 hmore.symm
    refine ⟨c :: cut, beyond, rfl, hclosed.cons c, by simpa using hpath, fun kept => ?_⟩
    obtain ⟨tail, htail⟩ := hwalk (kept ++ [c])
    exact ⟨tail, .pass hnone htail⟩
  | @parent done kept rest segment parameter ahead tail name parents step more named next ih =>
    obtain ⟨hrest, -, hbrace, -⟩ := step?_found step
    dsimp only at hrest hbrace
    have hno : '{' ∉ segment ++ ['/'] := by simp [hbrace]
    have hclosed (more : List Char) : Closed (segment ++ ['/'] ++ (braced parameter ++ more)) :=
      (closed_append hno).2 (closed_braced parameter more)
    cases before with
    | nil =>
      obtain ⟨rfl, rfl⟩ := List.cons.inj hp
      have hsplit : rest = segment ++ ['/'] ++ (braced parameter ++ []) ++ ahead := by simp [hrest]
      have hstep : step? (segment ++ ['/'] ++ (braced parameter ++ [])) =
          some (segment, parameter, []) := step?_cut (hclosed []) (hsplit ▸ step)
      refine ⟨_, ahead, hsplit, hclosed [], by simp [parentAt], fun kept => ⟨_, .own hstep ?_⟩⟩
      simp
    | cons first before =>
      obtain ⟨rfl, hparents⟩ := List.cons.inj hp
      obtain ⟨cut, beyond, rfl, hcut, hpath, hwalk⟩ := ih hparents
      have hsplit : rest = segment ++ ['/'] ++ (braced parameter ++ cut) ++ beyond := by
        simp [hrest]
      have hstep := step?_cut (hclosed cut) (hsplit ▸ step)
      refine ⟨_, beyond, hsplit, hclosed cut, by simpa using hpath, fun kept => ?_⟩
      obtain ⟨tail, htail⟩ := hwalk []
      exact ⟨tail, .parent hstep ⟨'{', hcut.mem, by decide⟩ named htail⟩

/-- The chain of a parent's own path holds the parents before it. -/
theorem chain_parent {path : String} {c : Chain} {before after : List Parent} {p : Parent}
    (h : chain path = .ok c) (hp : c.parents = before ++ p :: after) :
    ∃ d, chain p.instancePath = .ok d ∧ d.parents = before := by
  obtain ⟨cut, beyond, -, -, hpath, hwalk⟩ := (chain_eq_ok.1 h).cut hp
  obtain ⟨tail, htail⟩ := hwalk []
  refine ⟨⟨before, String.ofList tail⟩, chain_eq_ok.2 ?_, rfl⟩
  rw [hpath]
  simpa using htail

end Chains

end SwaggerProvider.Path
