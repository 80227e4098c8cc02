import SwaggerProvider.Path.Template
import SwaggerProvider.Proofs.Path.Walk

/-!
The parameters of a path in their places. Those to which a literal segment leads are the parents of
the path, unless nothing but slashes follows; identifiers are asked for all of them.
-/

set_option autoImplicit false

namespace SwaggerProvider.Path

section Pieces

def Piece.text : Piece → List Char
  | .literal c => [c]
  | .parameter name => braced name

def text (pieces : List Piece) : List Char := pieces.flatMap Piece.text

def pieces (cs : List Char) : List Piece := piecesFrom cs none

theorem piecesFrom_held (cs held : List Char) :
    (∃ name tail, cs = name ++ '}' :: tail ∧ held.reverse ++ name ≠ [] ∧
        (∀ c ∈ name, isDelimiter c = false) ∧
        piecesFrom cs (some held) = .parameter (held.reverse ++ name) :: pieces tail) ∨
      piecesFrom cs (some held) = literals ('{' :: held.reverse) ++ pieces cs := by
  induction cs generalizing held with
  | nil => exact .inr (by simp [piecesFrom, pieces])
  | cons c rest ih =>
    by_cases hopen : c = '{'
    · exact .inr (by simp [piecesFrom, pieces, hopen])
    · by_cases hslash : c = '/'
      · exact .inr (by simp [piecesFrom, pieces, hslash])
      · by_cases hclose : c = '}'
        · subst hclose
          cases held with
          | nil => exact .inr (by simp [piecesFrom, pieces, literals])
          | cons h held =>
            exact .inl ⟨[], rest, rfl, by simp, by simp, by simp [piecesFrom, pieces]⟩
        · have hstep : piecesFrom (c :: rest) (some held) = piecesFrom rest (some (c :: held)) := by
            rw [piecesFrom, if_neg hopen, if_neg hslash, if_neg hclose]
          rcases ih (c :: held) with ⟨name, tail, rfl, -, hname, hpieces⟩ | htext
          · refine .inl ⟨c :: name, tail, rfl, by simp, fun d hd => ?_, ?_⟩
            · rcases List.mem_cons.1 hd with rfl | hd
              · simp [isDelimiter, hopen, hslash, hclose]
              · exact hname d hd
            · rw [hstep, hpieces]
              simp
          · refine .inr ?_
            rw [hstep, htext]
            simp [literals, pieces, piecesFrom, hopen]

theorem pieces_cons {c : Char} (h : c ≠ '{') (rest : List Char) :
    pieces (c :: rest) = .literal c :: pieces rest := by
  rw [pieces, piecesFrom, if_neg h]
  rfl

theorem pieces_append {cs : List Char} (h : '{' ∉ cs) (rest : List Char) :
    pieces (cs ++ rest) = literals cs ++ pieces rest := by
  induction cs with
  | nil => rfl
  | cons c cs ih =>
    simp only [List.mem_cons, not_or] at h
    rw [List.cons_append, pieces_cons (Ne.symm h.1), ih h.2]
    rfl

theorem piecesFrom_name {name : List Char} (hname : ∀ c ∈ name, isDelimiter c = false)
    (held : List Char) (hne : held.reverse ++ name ≠ []) (tail : List Char) :
    piecesFrom (name ++ '}' :: tail) (some held) =
      .parameter (held.reverse ++ name) :: pieces tail := by
  induction name generalizing held with
  | nil =>
    have hheld : held ≠ [] := by simpa using hne
    simp [piecesFrom, pieces, hheld]
  | cons c name ih =>
    have hc : isDelimiter c = false := hname c List.mem_cons_self
    simp only [isDelimiter, Bool.or_eq_false_iff, beq_eq_false_iff_ne, ne_eq] at hc
    have hrest := ih (fun d hd => hname d (List.mem_cons_of_mem _ hd)) (c :: held) (by simp)
    rw [List.cons_append, piecesFrom, if_neg hc.1.2, if_neg hc.1.1, if_neg hc.2, hrest]
    simp

theorem pieces_braced {name : List Char} (h : IsName name) (tail : List Char) :
    pieces (braced name ++ tail) = .parameter name :: pieces tail := by
  have hname := piecesFrom_name h.2 [] h.1 tail
  simpa [pieces, braced, piecesFrom] using hname

theorem pieces_start (c : Char) (rest : List Char) :
    (∃ name tail, c :: rest = braced name ++ tail ∧ IsName name) ∨
      pieces (c :: rest) = .literal c :: pieces rest := by
  by_cases hc : c = '{'
  · subst hc
    have hheld : pieces ('{' :: rest) = piecesFrom rest (some []) := by simp [pieces, piecesFrom]
    rcases piecesFrom_held rest [] with ⟨name, tail, rfl, hne, hname, -⟩ | htext
    · exact .inl ⟨name, tail, by simp [braced], by simpa using hne, hname⟩
    · exact .inr (by rw [hheld, htext]; rfl)
  · exact .inr (pieces_cons hc rest)

theorem piecesFrom_slash (cs rest : List Char) (held : Option (List Char)) :
    piecesFrom (cs ++ '/' :: rest) held = piecesFrom cs held ++ .literal '/' :: pieces rest := by
  induction cs generalizing held with
  | nil => cases held <;> simp [piecesFrom, pieces]
  | cons c cs ih =>
    rw [List.cons_append]
    cases held with
    | none =>
      unfold piecesFrom
      split <;> simp [ih]
    | some held =>
      unfold piecesFrom
      split
      · simp [ih]
      · split
        · simp [ih]
        · split
          · split <;> simp [ih]
          · exact ih _

theorem pieces_slash (cs rest : List Char) :
    pieces (cs ++ '/' :: rest) = pieces cs ++ .literal '/' :: pieces rest :=
  piecesFrom_slash cs rest none

theorem text_pieces (cs : List Char) : text (pieces cs) = cs := by
  match cs with
  | [] => rfl
  | c :: rest =>
    rcases pieces_start c rest with ⟨name, tail, hcs, hname⟩ | hliteral
    · have hlt : tail.length < rest.length + 1 := by
        have hlength := congrArg List.length hcs
        simp only [braced, List.length_cons, List.length_append] at hlength
        omega
      rw [hcs, pieces_braced hname, text, List.flatMap_cons, ← text, text_pieces tail]
      rfl
    · rw [hliteral, text, List.flatMap_cons, ← text, text_pieces rest]
      rfl
termination_by cs.length

end Pieces

section Led

variable {before : List Char}

def leads (before : List Char) : Bool :=
  match before.reverse with
  | '/' :: front => (segment? isSegmentChar front).isSome
  | _ => false

theorem leads_iff : leads before = true ↔ Led before := by
  unfold leads
  constructor
  · intro h
    split at h
    · next front hreverse =>
      obtain ⟨⟨literal, rest⟩, hsegment⟩ := Option.isSome_iff_exists.1 h
      obtain ⟨rfl, hne, hall⟩ := segment?_eq_some hsegment
      refine ⟨rest.reverse, literal.reverse, ?_, by simpa using hne, fun c hc => ?_⟩
      · have hbefore := congrArg List.reverse hreverse
        simpa using hbefore
      · exact hall c (List.mem_reverse.1 hc)
    · cases h
  · rintro ⟨start, literal, rfl, hne, hall⟩
    have hsegment := segment?_append (p := isSegmentChar) (List.reverse_ne_nil_iff.2 hne)
      (fun c hc => hall c (List.mem_reverse.1 hc)) (by decide) start.reverse
    simp [hsegment]

instance : DecidablePred Led := fun _ => decidable_of_iff _ leads_iff

end Led

/-- A parameter between what comes before it and what comes after it. -/
structure Place where
  before : List Char
  name : List Char
  after : List Char

def Place.instancePath (p : Place) : String := String.ofList (p.before ++ braced p.name)

/-- A parent's parameter: a segment leads to it and more than slashes follow. -/
def Place.IsParent (p : Place) : Prop := Led p.before ∧ ∃ c ∈ p.after, c ≠ '/'

instance : DecidablePred Place.IsParent := fun p =>
  decidable_of_iff ((leads p.before && p.after.any fun c => c != '/') = true) <| by
    simp [Place.IsParent, leads_iff]

def placesFrom (before : List Char) : List Piece → List Place
  | [] => []
  | .literal c :: rest => placesFrom (before ++ [c]) rest
  | .parameter name :: rest =>
    ⟨before, name, text rest⟩ :: placesFrom (before ++ braced name) rest

def places (path : String) : List Place := placesFrom [] (pieces path.toList)

theorem placesFrom_literals (before cs : List Char) (rest : List Piece) :
    placesFrom before (literals cs ++ rest) = placesFrom (before ++ cs) rest := by
  induction cs generalizing before with
  | nil => simp [literals]
  | cons c cs ih =>
    have hcs := ih (before ++ [c])
    simpa [literals, placesFrom] using hcs

theorem length_placesFrom (before : List Char) (ps : List Piece) :
    (placesFrom before ps).length = (ps.filter Piece.isParameter).length := by
  induction ps generalizing before with
  | nil => rfl
  | cons p rest ih =>
    cases p with
    | literal c =>
      rw [List.filter_cons_of_neg (by simp [Piece.isParameter])]
      exact ih _
    | parameter name =>
      rw [List.filter_cons_of_pos rfl, List.length_cons, ← ih (before ++ braced name)]
      rfl

theorem parameterCount_eq (path : String) : parameterCount path = (places path).length :=
  (length_placesFrom _ _).symm

theorem placesFrom_append (before : List Char) (ps qs : List Piece) :
    placesFrom before (ps ++ qs) =
      (placesFrom before ps).map (fun p => { p with after := p.after ++ text qs }) ++
        placesFrom (before ++ text ps) qs := by
  induction ps generalizing before with
  | nil => simp [placesFrom, text]
  | cons p rest ih =>
    cases p with
    | literal c => simpa [placesFrom, text, Piece.text] using ih (before ++ [c])
    | parameter name =>
      have hrest := ih (before ++ braced name)
      simpa [placesFrom, text, Piece.text] using hrest

theorem placesFrom_segment {segment name : List Char} (hsegment : '{' ∉ segment)
    (hname : IsName name) (before tail : List Char) :
    placesFrom before (pieces (segment ++ (braced name ++ tail))) =
      ⟨before ++ segment, name, tail⟩ ::
        placesFrom (before ++ segment ++ braced name) (pieces tail) := by
  rw [pieces_append hsegment, placesFrom_literals, pieces_braced hname, placesFrom, text_pieces]

theorem placesFrom_slashes {cs : List Char} (h : ∀ c ∈ cs, c = '/') (before : List Char) :
    placesFrom before (pieces cs) = [] := by
  have hno : '{' ∉ cs := fun hmem => absurd (h _ hmem) (by decide)
  have hpieces := pieces_append hno []
  rw [List.append_nil] at hpieces
  rw [hpieces, placesFrom_literals]
  rfl

theorem filter_places_cons {done rest : List Char} {c : Char} (h : Missed done (c :: rest)) :
    (placesFrom done (pieces (c :: rest))).filter (fun p => p.IsParent) =
      (placesFrom (done ++ [c]) (pieces rest)).filter fun p => p.IsParent := by
  rcases pieces_start c rest with ⟨name, tail, hcs, hname⟩ | hliteral
  · have hnot : ¬ Led done := (hcs ▸ h).not_led hname
    obtain ⟨rfl, hrest⟩ : c = '{' ∧ rest = name ++ ['}'] ++ tail := by simpa [braced] using hcs
    have hbrace : '{' ∉ name ++ ['}'] := by
      intro hmem
      rcases List.mem_append.1 hmem with hmem | hmem
      · exact absurd (hname.2 _ hmem) (by decide)
      · exact absurd hmem (by decide)
    have hplace : ¬ Place.IsParent ⟨done, name, text (pieces tail)⟩ := fun hp => hnot hp.1
    rw [hcs, pieces_braced hname, placesFrom, List.filter_cons_of_neg (by simpa using hplace),
      hrest, pieces_append hbrace, placesFrom_literals]
    simp [braced]
  · rw [hliteral, placesFrom]

theorem filter_places_step {cs segment name tail : List Char} (done : List Char)
    (h : step? cs = some (segment, name, tail)) :
    (placesFrom done (pieces cs)).filter (fun p => p.IsParent) =
      if tail.all (· == '/') then []
      else ⟨done ++ (segment ++ ['/']), name, tail⟩ ::
        (placesFrom (done ++ (segment ++ ['/']) ++ braced name) (pieces tail)).filter
          fun p => p.IsParent := by
  obtain ⟨hcs, hled, hbrace, hname⟩ := step?_found h
  dsimp only at hcs hled hbrace hname
  have hno : '{' ∉ segment ++ ['/'] := by simp [hbrace]
  have hsame : cs = segment ++ ['/'] ++ (braced name ++ tail) := by simp [hcs]
  rw [hsame, placesFrom_segment hno hname]
  by_cases hslashes : tail.all (· == '/') = true
  · have hall : ∀ c ∈ tail, c = '/' := by simpa using hslashes
    have hplace : ¬ Place.IsParent ⟨done ++ (segment ++ ['/']), name, tail⟩ := by
      rintro ⟨-, c, hc, hne⟩
      exact hne (hall c hc)
    rw [if_pos hslashes, placesFrom_slashes hall,
      List.filter_cons_of_neg (by simpa using hplace)]
    rfl
  · have hmore : ∃ c ∈ tail, c ≠ '/' := by simpa using hslashes
    have hplace : Place.IsParent ⟨done ++ (segment ++ ['/']), name, tail⟩ := ⟨hled.append _, hmore⟩
    rw [if_neg hslashes, List.filter_cons_of_pos (by simpa using hplace)]

/-- Where a path runs through a parameter: the path up to it, the parameter and the path through
it. -/
structure Crossing where
  root : String
  parameter : String
  instancePath : String
  deriving DecidableEq

def Place.crossing (p : Place) : Crossing :=
  ⟨String.ofList p.before.dropLast, String.ofList p.name, p.instancePath⟩

def Parent.crossing (p : Parent) : Crossing := ⟨p.root, p.parameter, p.instancePath⟩

theorem crossing_parentAt (done segment parameter ahead : List Char) (name : String) :
    (parentAt done segment parameter name).crossing =
      (⟨done ++ (segment ++ ['/']), parameter, ahead⟩ : Place).crossing := by
  simp [Parent.crossing, Place.crossing, parentAt, Place.instancePath, ← List.append_assoc]

/-- The parents that are found are those of the parameters on the way, step by step. -/
theorem Walk.places {done kept rest tail : List Char} {parents : List Parent}
    (h : Walk done kept rest parents tail) (hmissed : Missed done rest) :
    parents.map Parent.crossing =
      ((placesFrom done (pieces rest)).filter fun p => p.IsParent).map Place.crossing := by
  induction h with
  | finish => simp [pieces, piecesFrom, placesFrom]
  | pass nothing next ih =>
    rw [filter_places_cons hmissed]
    exact ih (hmissed.next nothing)
  | own step slashes =>
    rw [filter_places_step _ step, if_pos (by simpa using slashes)]
    rfl
  | @parent done kept rest segment parameter ahead tail name parents step more named next ih =>
    rw [filter_places_step done step, if_neg (by simpa using more), List.map_cons, List.map_cons,
      ih (missed_braced _ _ _), crossing_parentAt]

theorem chain_crossings {path : String} {c : Chain} (h : chain path = .ok c) :
    c.parents.map Parent.crossing =
      ((places path).filter fun p => p.IsParent).map Place.crossing :=
  (chain_eq_ok.1 h).places (missed_nil _)

theorem chain_parents {path : String} {c : Chain} (h : chain path = .ok c) :
    c.parents.map Parent.instancePath =
      ((places path).filter fun p => p.IsParent).map Place.instancePath := by
  have hcrossings := congrArg (List.map Crossing.instancePath) (chain_crossings h)
  simpa [Function.comp_def, Parent.crossing, Place.crossing] using hcrossings

section Instance

variable {front path : String} {name ending : List Char}

def Place.followedBy (p : Place) (more : List Char) : Place := { p with after := p.after ++ more }

theorem places_slash (front : String) :
    places (front ++ "/") = (places front).map fun p => p.followedBy ['/'] := by
  have hpieces := pieces_slash front.toList []
  unfold places
  rw [String.toList_append]
  change placesFrom [] (pieces (front.toList ++ ['/'])) = _
  rw [hpieces, placesFrom_append]
  simp [placesFrom, pieces, piecesFrom, text, Piece.text, Place.followedBy]

theorem places_instance (hname : IsName name) (hending : ∀ c ∈ ending, c = '/')
    (hpath : path.toList = front.toList ++ '/' :: (braced name ++ ending)) :
    places path = ((places front).map fun p => p.followedBy ('/' :: (braced name ++ ending))) ++
      [⟨front.toList ++ ['/'], name, ending⟩] := by
  have htext : text (.literal '/' :: pieces (braced name ++ ending)) =
      '/' :: (braced name ++ ending) := by
    rw [text, List.flatMap_cons, ← text, text_pieces]
    rfl
  have hlast : placesFrom front.toList (.literal '/' :: pieces (braced name ++ ending)) =
      [⟨front.toList ++ ['/'], name, ending⟩] := by
    rw [pieces_braced hname, placesFrom, placesFrom, placesFrom_slashes hending, text_pieces]
  unfold places
  rw [hpath, pieces_slash, placesFrom_append, htext, text_pieces, List.nil_append, hlast]
  rfl

theorem count_parents_instance (hname : IsName name) (hending : ∀ c ∈ ending, c = '/')
    (hpath : path.toList = front.toList ++ '/' :: (braced name ++ ending)) :
    ((places path).filter fun p => p.IsParent).length =
      ((places front).filter fun p => Led p.before).length := by
  have hown : ¬ Place.IsParent ⟨front.toList ++ ['/'], name, ending⟩ := by
    rintro ⟨-, c, hc, hne⟩
    exact hne (hending c hc)
  have hothers (p : Place) :
      (p.followedBy ('/' :: (braced name ++ ending))).IsParent ↔ Led p.before := by
    refine ⟨fun h => h.1, fun h => ⟨h, '{', ?_, by decide⟩⟩
    simp [Place.followedBy, braced]
  rw [places_instance hname hending hpath, List.filter_append, List.filter_map,
    List.filter_cons_of_neg (by simpa using hown)]
  simp [Function.comp_def, hothers]

end Instance

end SwaggerProvider.Path
