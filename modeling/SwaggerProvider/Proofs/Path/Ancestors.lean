import SwaggerProvider.Proofs.Path.Places
import SwaggerProvider.Proofs.Path.Prefix
import SwaggerProvider.Proofs.Path.Root

/-!
Routes: paths of literal segments, each with a parameter behind it or none. A chain is found for
every path and gives the path back; on a route it holds a parent for each parameter that more
segments follow, and every parent has the name of the path up to its parameter.
-/

set_option autoImplicit false

namespace SwaggerProvider.Path

def IsLiteralSegment (cs : List Char) : Prop := cs ≠ [] ∧ ∀ c ∈ cs, isSegmentChar c = true

theorem IsLiteralSegment.slash_notMem {cs : List Char} (h : IsLiteralSegment cs) : '/' ∉ cs :=
  fun hmem => absurd (h.2 _ hmem) (by decide)

theorem IsLiteralSegment.brace_notMem {cs : List Char} (h : IsLiteralSegment cs) : '{' ∉ cs :=
  fun hmem => absurd (h.2 _ hmem) (by decide)

/-- A literal segment and the parameter behind it, if there is one. -/
structure Stage where
  literal : List Char
  parameter : Option (List Char)
  isLiteral : IsLiteralSegment literal
  isName : ∀ name ∈ parameter, IsName name

def Stage.text (s : Stage) : List Char :=
  '/' :: s.literal ++
    match s.parameter with
    | some name => '/' :: braced name
    | none => []

def route (stages : List Stage) : List Char := stages.flatMap Stage.text

def Stage.crossing? (before : List Char) (s : Stage) : Option Crossing :=
  s.parameter.map fun name =>
    ⟨String.ofList (before ++ '/' :: s.literal), String.ofList name,
      String.ofList (before ++ s.text)⟩

def crossings (before : List Char) : List Stage → List Crossing
  | [] => []
  | s :: stages => (s.crossing? before).toList ++ crossings (before ++ s.text) stages

section Join

/-- The path through the last of the parents, or what stands there if there is none. -/
def reached (start : List Char) (parents : List Parent) : List Char :=
  match parents.getLast? with
  | some p => p.instancePath.toList
  | none => start

@[simp] theorem reached_cons (start : List Char) (p : Parent) (parents : List Parent) :
    reached start (p :: parents) = reached p.instancePath.toList parents := by
  unfold reached
  rw [List.getLast?_cons]
  cases parents.getLast? <;> rfl

theorem toList_join (c : Chain) : c.join.toList = reached [] c.parents ++ c.tail.toList := by
  unfold Chain.join reached
  cases c.parents.getLast? <;> simp

/-- The parents take what they pass, and the tail is all the rest. -/
theorem Walk.reached_append {done kept rest tail : List Char} {parents : List Parent}
    (h : Walk done kept rest parents tail) (start : List Char) (hdone : done = start ++ kept) :
    reached start parents ++ tail = done ++ rest := by
  induction h generalizing start with
  | finish => simp [reached, hdone]
  | pass nothing next ih =>
    rw [ih start (by simp [hdone])]
    simp
  | own => simp [reached, hdone]
  | @parent done kept rest segment parameter ahead tail name parents step more named next ih =>
    obtain ⟨hrest, -⟩ := step?_found step
    rw [reached_cons, ih _ (by simp [parentAt])]
    simp [hrest]

theorem chain_join {path : String} {c : Chain} (h : chain path = .ok c) : c.join = path := by
  have hjoin := (chain_eq_ok.1 h).reached_append [] rfl
  exact String.toList_inj.1 (by rw [toList_join, hjoin, List.nil_append])

end Join

section Names

variable {front before cs rest literal segment : List Char}

def Whole (front : List Char) : Prop :=
  front = [] ∨ ∃ start last, front = start ++ '/' :: last ∧ last ≠ [] ∧ '/' ∉ last

theorem literalStep_literal {step : Step} (h : literalStep front cs = some step) :
    ∃ literal, IsLiteralSegment literal ∧ step.1 = front ++ literal := by
  unfold literalStep at h
  split at h
  · next literal rest hs =>
    obtain ⟨-, hliteral⟩ := segment?_eq_some hs
    obtain ⟨⟨name, tail⟩, -, rfl⟩ := Option.map_eq_some_iff.1 h
    exact ⟨literal, hliteral, rfl⟩
  · cases h

theorem versionedStep_literal {step : Step} (hwhole : Whole front)
    (h : versionedStep (front ++ ['/']) cs = some step) :
    ∃ inner literal, Whole inner ∧ IsLiteralSegment literal ∧ step.1 = inner ++ '/' :: literal := by
  have hplain (h : literalStep (front ++ ['/']) cs = some step) : ∃ inner literal,
      Whole inner ∧ IsLiteralSegment literal ∧ step.1 = inner ++ '/' :: literal := by
    obtain ⟨literal, hliteral, hstep⟩ := literalStep_literal h
    exact ⟨front, literal, hwhole, hliteral, by simp [hstep]⟩
  unfold versionedStep at h
  split at h
  · next version rest hv =>
    split at h
    · next hs =>
      cases h
      obtain ⟨digits, rfl, -, -, hall⟩ := versionSegment?_digits hv
      obtain ⟨literal, hliteral, hstep⟩ := literalStep_literal hs
      have hslash : '/' ∉ 'v' :: digits := notMem_version hall (by decide) (by decide)
      exact ⟨front ++ '/' :: 'v' :: digits, literal, .inr ⟨front, _, rfl, by simp, hslash⟩,
        hliteral, by simp [hstep]⟩
    · exact hplain h
  · exact hplain h

theorem step?_literal {step : Step} (h : step? cs = some step) :
    ∃ inner literal, Whole inner ∧ IsLiteralSegment literal ∧ step.1 = inner ++ '/' :: literal := by
  unfold step? at h
  split at h
  · split at h
    · next hs =>
      cases h
      have hwhole : Whole ([] : List Char) := .inl rfl
      exact versionedStep_literal hwhole hs
    · split at h
      · next first more hfirst =>
        obtain ⟨-, hne, hall⟩ := segment?_eq_some hfirst
        have hslash : '/' ∉ first := fun hmem => absurd (hall _ hmem) (by decide)
        exact versionedStep_literal (.inr ⟨[], first, rfl, hne, hslash⟩) h
      · cases h
  · cases h

theorem resourceName_literal (front : List Char) (h : IsLiteralSegment literal) :
    resourceName (String.ofList (front ++ '/' :: literal)) =
      .ok (Name.render ⟨String.ofList literal,
        (segments (String.ofList front)).getLast?.bind version?⟩ none) := by
  have hsegments := segments_append (String.ofList front) h.1 h.slash_notMem
  have hparameter : isParameter literal = false := by
    have hhead : literal.head? ≠ some '{' := fun hhead =>
      h.brace_notMem (List.mem_of_mem_head? hhead)
    simp [isParameter, hhead]
  have hname : name (String.ofList (front ++ '/' :: literal)) =
      .ok ⟨String.ofList literal, (segments (String.ofList front)).getLast?.bind version?⟩ := by
    rw [name_eq_ok, String.ofList_append, hsegments, List.reverse_append, List.reverse_singleton,
      List.singleton_append, nameFrom, hparameter, ← List.head?_reverse]
    rfl
  rw [resourceName, hname]
  rfl

@[simp] theorem getLast?_segments (start : List Char) {last : List Char} (hne : last ≠ [])
    (hslash : '/' ∉ last) :
    (segments (String.ofList (start ++ '/' :: last))).getLast? = some last := by
  rw [String.ofList_append, segments_append _ hne hslash, List.getLast?_concat]

theorem version?_isSome {last : List Char} (h : (version? last).isSome = true) :
    ∃ digits, last = 'v' :: digits ∧ digits ≠ [] ∧ ∀ c ∈ digits, Text.isDigit c = true := by
  unfold version? at h
  split at h
  · next digits =>
    split at h
    · next hdigits => exact ⟨digits, rfl, by simpa using hdigits⟩
    · cases h
  · cases h

theorem Missed.no_version {start last name tail : List Char} (hliteral : IsLiteralSegment literal)
    (hname : IsName name)
    (h : Missed (start ++ '/' :: last) ('/' :: literal ++ '/' :: (braced name ++ tail))) :
    version? last = none := by
  refine Option.not_isSome_iff_eq_none.1 fun hversion => ?_
  obtain ⟨digits, rfl, hne, hall⟩ := version?_isSome hversion
  have hbrace : '}' ∉ 'v' :: digits := notMem_version hall (by decide) (by decide)
  have hnone := h start ('v' :: digits) rfl hbrace
  have hfound := step?_version_isSome hne hall hliteral.1 hliteral.2 hname tail
  rw [List.append_assoc, hnone] at hfound
  cases hfound

theorem Parent.Met.resourceName_root {p : Parent} (h : p.Met) (hwhole : Whole front)
    (hliteral : IsLiteralSegment literal)
    (hroot : p.root = String.ofList (front ++ '/' :: literal)) :
    resourceName p.root = .ok p.name := by
  cases h with
  | @intro before rest segment parameter ahead name missed step named =>
    obtain ⟨hrest, -, -, hname⟩ := step?_found step
    obtain ⟨inner, last, hinner, hlast, hsegment⟩ := step?_literal step
    dsimp only at hrest hname hsegment
    subst hsegment
    have hsame : before ++ inner ++ '/' :: last = front ++ '/' :: literal := by
      have hpath := congrArg String.toList hroot
      simpa [parentAt] using hpath
    have hlasts := congrArg (fun cs => (segments (String.ofList cs)).getLast?) hsame
    simp only [getLast?_segments _ hlast.1 hlast.slash_notMem,
      getLast?_segments _ hliteral.1 hliteral.slash_notMem, Option.some.injEq] at hlasts
    subst hlasts
    have hfront : before ++ inner = front := List.append_cancel_right hsame
    have habove : (segments (String.ofList front)).getLast?.bind version? =
        (segments (String.ofList inner)).getLast?.bind version? := by
      rcases hinner with rfl | ⟨start, above, rfl, hne, hslash⟩
      · rw [List.append_nil] at hfront
        subst hfront
        rcases hwhole with rfl | ⟨start, above, rfl, hne, hslash⟩
        · rfl
        · rw [getLast?_segments _ hne hslash]
          rw [hrest] at missed
          exact missed.no_version hlast hname
      · rw [← hfront, ← List.append_assoc, getLast?_segments _ hne hslash,
          getLast?_segments _ hne hslash]
    rw [resourceName_literal inner hlast] at named
    rw [hroot, resourceName_literal _ hlast, habove]
    exact named

end Names

/-- A walk goes on to the end of every path, for what a step finds has a name. -/
theorem exists_walk (done kept rest : List Char) :
    ∃ parents tail, Walk done kept rest parents tail := by
  match rest with
  | [] => exact ⟨_, _, .finish _ _⟩
  | c :: rest =>
    cases hstep : step? (c :: rest) with
    | none =>
      obtain ⟨parents, tail, hwalk⟩ := exists_walk (done ++ [c]) (kept ++ [c]) rest
      exact ⟨_, _, .pass hstep hwalk⟩
    | some step =>
      obtain ⟨segment, parameter, ahead⟩ := step
      by_cases hslashes : ∀ c ∈ ahead, c = '/'
      · exact ⟨_, _, .own hstep hslashes⟩
      · have hmore : ∃ c ∈ ahead, c ≠ '/' := by simpa using hslashes
        have hlt : ahead.length < rest.length + 1 := by
          have hshorter := length_ahead_lt hstep
          rw [List.length_cons] at hshorter
          omega
        obtain ⟨inner, literal, -, hliteral, rfl⟩ := step?_literal hstep
        obtain ⟨parents, tail, hwalk⟩ :=
          exists_walk (done ++ (inner ++ '/' :: literal ++ ['/']) ++ braced parameter) [] ahead
        exact ⟨_, _, .parent hstep hmore (resourceName_literal inner hliteral) hwalk⟩
termination_by rest.length

theorem exists_chain (path : String) : ∃ c, chain path = .ok c := by
  obtain ⟨parents, tail, hwalk⟩ := exists_walk [] [] path.toList
  exact ⟨⟨parents, String.ofList tail⟩, chain_eq_ok.2 (by simpa using hwalk)⟩

section Routes

variable {before slashes : List Char} {stages : List Stage}

theorem Stage.led (s : Stage) (before : List Char) : Led (before ++ '/' :: (s.literal ++ ['/'])) :=
  ⟨before, s.literal, by simp, s.isLiteral⟩

theorem Stage.exists_not_slash (s : Stage) (rest : List Char) :
    ∃ c ∈ s.text ++ rest, c ≠ '/' := by
  obtain ⟨c, literal, hliteral⟩ := List.exists_cons_of_ne_nil s.isLiteral.1
  have hc : c ∈ s.literal := by simp [hliteral]
  refine ⟨c, by simp [Stage.text, hliteral], fun hslash => ?_⟩
  exact s.isLiteral.slash_notMem (hslash ▸ hc)

theorem placesFrom_stage (s : Stage) (before rest : List Char) :
    placesFrom before (pieces (s.text ++ rest)) =
      (s.parameter.map fun name => ⟨before ++ '/' :: (s.literal ++ ['/']), name, rest⟩).toList ++
        placesFrom (before ++ s.text) (pieces rest) := by
  have hbrace : '{' ∉ '/' :: s.literal := by simp [s.isLiteral.brace_notMem]
  cases hparameter : s.parameter with
  | none =>
    have htext : s.text = '/' :: s.literal := by simp [Stage.text, hparameter]
    rw [htext, pieces_append hbrace, placesFrom_literals]
    rfl
  | some name =>
    have hname : IsName name := s.isName name hparameter
    have htext : s.text = '/' :: s.literal ++ ['/'] ++ braced name := by
      simp [Stage.text, hparameter]
    have hbrace : '{' ∉ '/' :: s.literal ++ ['/'] := by simpa using hbrace
    rw [htext, List.append_assoc _ _ rest, placesFrom_segment hbrace hname]
    simp

theorem crossing_stage {s : Stage} {name : List Char} (before rest : List Char)
    (hparameter : s.parameter = some name) :
    (⟨before ++ '/' :: (s.literal ++ ['/']), name, rest⟩ : Place).crossing =
      ⟨String.ofList (before ++ '/' :: s.literal), String.ofList name,
        String.ofList (before ++ s.text)⟩ := by
  have hroot : (before ++ '/' :: (s.literal ++ ['/'])).dropLast = before ++ '/' :: s.literal := by
    rw [← List.cons_append, ← List.append_assoc, List.dropLast_concat]
  rw [Place.crossing, Place.instancePath, hroot, Stage.text, hparameter]
  simp

theorem filter_places_route (hslashes : ∀ c ∈ slashes, c = '/') :
    ((placesFrom before (pieces (route stages ++ slashes))).filter fun p => p.IsParent).map
      Place.crossing = crossings before stages.dropLast := by
  induction stages generalizing before with
  | nil =>
    have hplaces := placesFrom_slashes hslashes before
    simp [route, hplaces, crossings]
  | cons s stages ih =>
    have hroute : route (s :: stages) ++ slashes = s.text ++ (route stages ++ slashes) := by
      simp [route]
    rw [hroute, placesFrom_stage, List.filter_append, List.map_append, ih]
    cases stages with
    | nil =>
      have hlast (name : List Char) :
          ¬ Place.IsParent ⟨before ++ '/' :: (s.literal ++ ['/']), name, slashes⟩ := by
        rintro ⟨-, c, hc, hne⟩
        exact hne (hslashes c hc)
      cases s.parameter with
      | none => rfl
      | some name => simp [hlast name, route, crossings]
    | cons t stages =>
      have hparent (name : List Char) : Place.IsParent ⟨before ++ '/' :: (s.literal ++ ['/']), name,
          route (t :: stages) ++ slashes⟩ := by
        refine ⟨s.led before, ?_⟩
        have hmore := t.exists_not_slash (route stages ++ slashes)
        simpa [route] using hmore
      rw [List.dropLast_cons_cons, crossings]
      cases hparameter : s.parameter with
      | none => simp [Stage.crossing?, hparameter]
      | some name =>
        have hcrossing := crossing_stage before (route (t :: stages) ++ slashes) hparameter
        simp [hparent name, hcrossing, Stage.crossing?, hparameter]

theorem whole_route (stages : List Stage) : Whole (route stages) := by
  rcases List.eq_nil_or_concat stages with rfl | ⟨stages, s, rfl⟩
  · exact .inl rfl
  · have hroute : route (stages ++ [s]) = route stages ++ s.text := by simp [route]
    rw [List.concat_eq_append, hroute, Stage.text]
    cases hparameter : s.parameter with
    | none =>
      exact .inr ⟨route stages, s.literal, by simp, s.isLiteral.1, s.isLiteral.slash_notMem⟩
    | some name =>
      have hslash : '/' ∉ name := fun hmem =>
        absurd ((s.isName name hparameter).2 _ hmem) (by decide)
      exact .inr ⟨route stages ++ '/' :: s.literal, braced name, by simp, by simp [braced],
        by simp [braced, hslash]⟩

theorem exists_root_of_mem_crossings {x : Crossing} (h : x ∈ crossings before stages) :
    ∃ (front : List Stage) (s : Stage),
      x.root = String.ofList (before ++ route front ++ '/' :: s.literal) := by
  induction stages generalizing before with
  | nil => simp [crossings] at h
  | cons s stages ih =>
    rw [crossings, List.mem_append] at h
    rcases h with h | h
    · obtain ⟨name, -, rfl⟩ := Option.map_eq_some_iff.1 (Option.mem_toList.1 h)
      exact ⟨[], s, by simp [route]⟩
    · obtain ⟨front, t, hroot⟩ := ih h
      exact ⟨s :: front, t, by simpa [route] using hroot⟩

/-- The parents of a route stand at all its parameters that more segments follow. -/
theorem chain_route {c : Chain} (hslashes : ∀ c ∈ slashes, c = '/')
    (h : chain (String.ofList (route stages ++ slashes)) = .ok c) :
    c.parents.map Parent.crossing = crossings [] stages.dropLast := by
  rw [chain_crossings h, places, String.toList_ofList, filter_places_route hslashes]

theorem chain_route_name {c : Chain} (hslashes : ∀ c ∈ slashes, c = '/')
    (h : chain (String.ofList (route stages ++ slashes)) = .ok c) {p : Parent}
    (hp : p ∈ c.parents) : resourceName p.root = .ok p.name := by
  have hcrossing : p.crossing ∈ crossings [] stages.dropLast :=
    chain_route hslashes h ▸ List.mem_map_of_mem hp
  obtain ⟨front, s, hroot⟩ := exists_root_of_mem_crossings hcrossing
  exact (chain_met h p hp).resourceName_root (whole_route front) s.isLiteral hroot

end Routes

/-- On a route the parents are found that its parameters make, in their order and with the names of
their root paths. On every path a chain is found that puts it together again, with the tail as what
the last parent leaves, and the path of each parent has the parents before it. -/
theorem chain_ancestry :
    (∀ (stages : List Stage) (slashes : Nat), ∃ c,
      chain (String.ofList (route stages ++ List.replicate slashes '/')) = .ok c ∧
      c.parents.map Parent.crossing = crossings [] stages.dropLast ∧
      ∀ p ∈ c.parents, resourceName p.root = .ok p.name) ∧
    ∀ path, ∃ c, chain path = .ok c ∧ c.join = path ∧ chain c.join = .ok c ∧
      ∀ (i : Nat) (hi : i < c.parents.length),
        ∃ d, chain c.parents[i].instancePath = .ok d ∧ d.parents = c.parents.take i := by
  constructor
  · intro stages slashes
    have hslashes : ∀ c ∈ List.replicate slashes '/', c = '/' :=
      fun c hc => List.eq_of_mem_replicate hc
    obtain ⟨c, hc⟩ := exists_chain (String.ofList (route stages ++ List.replicate slashes '/'))
    exact ⟨c, hc, chain_route hslashes hc, fun p hp => chain_route_name hslashes hc hp⟩
  · intro path
    obtain ⟨c, hc⟩ := exists_chain path
    have hjoin : c.join = path := chain_join hc
    refine ⟨c, hc, hjoin, by rw [hjoin, hc], fun i hi => ?_⟩
    have hsplit : c.parents = c.parents.take i ++ c.parents[i] :: c.parents.drop (i + 1) := by
      simp
    exact chain_parent hc hsplit

theorem chain_ancestry_rules :
    ∃ c, chain "/v1/cdns/{id}/v1/firewalls/{fw}/rules" = .ok c ∧ 1 < c.parents.length ∧
      ∃ d, chain "/v1/cdns/{id}/v1/firewalls/{fw}" = .ok d ∧ d.parents = c.parents.take 1 := by
  have hchain : chain "/v1/cdns/{id}/v1/firewalls/{fw}/rules" = .ok
      ⟨[⟨"cdns_v1", "/v1/cdns", "/v1/cdns/{id}", "id"⟩,
        ⟨"firewalls_v1", "/v1/cdns/{id}/v1/firewalls", "/v1/cdns/{id}/v1/firewalls/{fw}", "fw"⟩],
        "/rules"⟩ := by rfl
  obtain ⟨c, hc, -, -, hparents⟩ := chain_ancestry.2 "/v1/cdns/{id}/v1/firewalls/{fw}/rules"
  obtain rfl := Except.ok.inj (hchain.symm.trans hc)
  exact ⟨_, hc, by decide, hparents 1 (by decide)⟩

end SwaggerProvider.Path
