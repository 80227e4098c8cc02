import SwaggerProvider.Proofs.Path.Filling
import SwaggerProvider.Url.Join

/-!
The text of a request's URL. A template is text between parameters; filling it changes the
parameters only, each to an escaped identifier. A scheme, a host, a base path and a path are put
together so that no two slashes meet where the parts do.
-/

set_option autoImplicit false

namespace SwaggerProvider.Path

open SwaggerProvider.Url (decodeBytes encodeChar encodeChars escapeByte isUnreserved utf8)
open SwaggerProvider.Text (hexValue?)

section Templates

def Free (cs : List Char) : Prop :=
  ∀ front name back, cs = front ++ (braced name ++ back) → ¬ IsName name

theorem Free.tail {c : Char} {cs : List Char} (h : Free (c :: cs)) : Free cs := by
  rintro front name back rfl
  exact h (c :: front) name back rfl

theorem free_cons {c : Char} {cs : List Char} (h : Free cs)
    (hstart : ∀ name back, c :: cs = braced name ++ back → ¬ IsName name) : Free (c :: cs) := by
  intro front name back heq
  cases front with
  | nil => exact hstart name back heq
  | cons d front => exact h front name back (List.cons.inj heq).2

/-- Parameters with the text before the first of them and the text behind each. -/
structure Template where
  first : List Char
  rest : List (List Char × List Char)
  free : Free first
  parts : ∀ part ∈ rest, IsName part.1 ∧ Free part.2

def Template.text (t : Template) : List Char :=
  t.first ++ t.rest.flatMap fun part => braced part.1 ++ part.2

/-- The text with something else in the place of each parameter. -/
def Template.with (t : Template) (values : List (List Char)) : List Char :=
  t.first ++ (List.zipWith (fun value part => value ++ part.2) values t.rest).flatten

theorem pieces_free {cs rest : List Char} (h : Free cs)
    (hrest : rest = [] ∨ ∃ more, rest = '{' :: more) :
    pieces (cs ++ rest) = literals cs ++ pieces rest := by
  induction cs with
  | nil => rfl
  | cons c cs ih =>
    rcases pieces_start c (cs ++ rest) with ⟨name, tail, heq, hname⟩ | hliteral
    · exfalso
      rw [← List.cons_append, List.append_eq_append_iff] at heq
      rcases heq with ⟨more, hbraced, hmore⟩ | ⟨more, hcs, -⟩
      · rcases hrest with rfl | ⟨beyond, rfl⟩
        · obtain ⟨rfl, rfl⟩ := List.append_eq_nil_iff.1 hmore.symm
          exact h [] name [] (by simp [hbraced]) hname
        · cases more with
          | nil => exact h [] name [] (by simp [hbraced]) hname
          | cons d more =>
            obtain ⟨rfl, -⟩ := List.cons.inj hmore
            have hend : name ++ ['}'] = cs ++ '{' :: more := (List.cons.inj hbraced).2
            have hmem : '{' ∈ name ++ ['}'] := hend ▸ by simp
            have hinside : '{' ∈ name := by simpa using hmem
            exact absurd (hname.2 _ hinside) (by decide)
      · exact h [] name more hcs hname
    · rw [List.cons_append, hliteral, ih h.tail]
      rfl

theorem pieces_template (t : Template) :
    pieces t.text = literals t.first ++
      t.rest.flatMap fun part => .parameter part.1 :: literals part.2 := by
  obtain ⟨first, rest, hfree, hparts⟩ := t
  unfold Template.text
  dsimp only
  induction rest generalizing first with
  | nil => simpa [pieces, piecesFrom] using pieces_free hfree (.inl rfl)
  | cons part rest ih =>
    obtain ⟨⟨hname, hafter⟩, hrest⟩ := List.forall_mem_cons.1 hparts
    have hopen (more : List Char) : ∃ tail, braced part.1 ++ more = '{' :: tail := ⟨_, rfl⟩
    rw [List.flatMap_cons, List.append_assoc, pieces_free hfree (.inr (hopen _)),
      pieces_braced hname, ih part.2 hafter hrest]
    simp

theorem exists_template (cs : List Char) : ∃ t : Template, t.text = cs := by
  match cs with
  | [] => exact ⟨⟨[], [], by simp [Free, braced], by simp⟩, rfl⟩
  | c :: rest =>
    by_cases hstart : ∃ name tail, c :: rest = braced name ++ tail ∧ IsName name
    · obtain ⟨name, tail, heq, hname⟩ := hstart
      have hlt : tail.length < rest.length + 1 := by
        have hlength := congrArg List.length heq
        simp only [braced, List.length_cons, List.length_append] at hlength
        omega
      obtain ⟨⟨first, parts, hfree, hparts⟩, rfl⟩ := exists_template tail
      refine ⟨⟨[], (name, first) :: parts, by simp [Free, braced],
        List.forall_mem_cons.2 ⟨⟨hname, hfree⟩, hparts⟩⟩, ?_⟩
      simp [Template.text, heq]
    · obtain ⟨⟨first, parts, hfree, hparts⟩, rfl⟩ := exists_template rest
      have hfirst : Free (c :: first) := by
        refine free_cons hfree fun name back heq hname =>
          hstart ⟨name, back ++ parts.flatMap fun part => braced part.1 ++ part.2, ?_, hname⟩
        rw [Template.text, ← List.cons_append, heq, List.append_assoc]
      exact ⟨⟨c :: first, parts, hfirst, hparts⟩, rfl⟩
termination_by cs.length

end Templates

section Fill

variable {t : Template} {ids : List String}

theorem parameterCount_template (t : Template) :
    parameterCount (String.ofList t.text) = t.rest.length := by
  have hliterals (cs : List Char) : (literals cs).filter Piece.isParameter = [] :=
    List.filter_eq_nil_iff.2 (by simp [literals, Piece.isParameter])
  rw [parameterCount, templatePieces, String.toList_ofList, ← pieces, pieces_template,
    List.filter_append, hliterals, List.nil_append]
  induction t.rest with
  | nil => rfl
  | cons part rest ih =>
    rw [List.flatMap_cons, List.cons_append, List.filter_cons_of_pos rfl, List.filter_append,
      hliterals, List.nil_append, List.length_cons, ih, List.length_cons]

theorem fillPieces_template (t : Template) (hlength : ids.length = t.rest.length) :
    fillPieces (pieces t.text) ids = t.with (ids.map fun id => encodeChars id.toList) := by
  rw [pieces_template, fillPieces_literals, Template.with]
  refine congrArg (t.first ++ ·) ?_
  generalize t.rest = rest at hlength
  induction rest generalizing ids with
  | nil =>
    cases List.eq_nil_of_length_eq_zero hlength
    rfl
  | cons part rest ih =>
    cases ids with
    | nil => cases hlength
    | cons id ids =>
      rw [List.flatMap_cons, List.cons_append, fillPieces, fillPieces_literals,
        ih (Nat.succ.inj hlength)]
      simp

theorem fill_template (t : Template) (ids : List String) :
    fill (String.ofList t.text) ids =
      if ids.length = t.rest.length then
        .ok (String.ofList (t.with (ids.map fun id => encodeChars id.toList)))
      else .error (.runtimeConfig
        (.identifierCount (String.ofList t.text) t.rest.length ids.length)) := by
  unfold fill
  rw [parameterCount_template]
  dsimp only
  by_cases hlength : ids.length = t.rest.length
  · rw [if_pos hlength.symm, if_pos hlength, templatePieces, String.toList_ofList, ← pieces,
      fillPieces_template t hlength]
  · rw [if_neg (Ne.symm hlength), if_neg hlength]

theorem count_with {values : List (List Char)} (hlength : values.length = t.rest.length)
    (hvalues : ∀ value ∈ values, '/' ∉ value) : (t.with values).count '/' = t.text.count '/' := by
  obtain ⟨first, rest, hfree, hparts⟩ := t
  unfold Template.with Template.text
  rw [List.count_append, List.count_append]
  refine congrArg (first.count '/' + ·) ?_
  dsimp only at hlength ⊢
  induction rest generalizing values with
  | nil =>
    cases List.eq_nil_of_length_eq_zero hlength
    rfl
  | cons part rest ih =>
    cases values with
    | nil => cases hlength
    | cons value values =>
      obtain ⟨⟨hname, -⟩, hrest⟩ := List.forall_mem_cons.1 hparts
      obtain ⟨hvalue, hmore⟩ := List.forall_mem_cons.1 hvalues
      have hslash : '/' ∉ braced part.1 := by
        have hinside : '/' ∉ part.1 := fun hmem => absurd (hname.2 _ hmem) (by decide)
        simp [braced, hinside]
      rw [List.zipWith_cons_cons, List.flatten_cons, List.flatMap_cons, List.count_append,
        List.count_append, List.count_append, List.count_append,
        ih hmore hrest (Nat.succ.inj hlength), List.count_eq_zero_of_not_mem hvalue,
        List.count_eq_zero_of_not_mem hslash]

end Fill

section Escapes

/-- Characters that stand for themselves, and bytes written as a percent sign and two digits. -/
inductive Escaped : List Char → Prop where
  | nil : Escaped []
  | plain {c : Char} {rest : List Char} (unreserved : isUnreserved c = true)
    (next : Escaped rest) : Escaped (c :: rest)
  | escape {a b : Char} {rest : List Char} (high : (hexValue? a).isSome = true)
    (low : (hexValue? b).isSome = true) (next : Escaped rest) : Escaped ('%' :: a :: b :: rest)

variable {rest : List Char}

theorem Escaped.escapeByte_append (b : UInt8) (h : Escaped rest) :
    Escaped (escapeByte b ++ rest) := by
  have hb : b.toNat < 256 := b.toNat_lt
  have hdigit {n : Nat} (hn : n < 16) : (hexValue? (Url.upperHexDigit n)).isSome = true := by
    rw [Url.hexValue?_upperHexDigit hn]
    rfl
  exact .escape (hdigit (by omega)) (hdigit (by omega)) h

theorem Escaped.encodeChar_append (c : Char) (h : Escaped rest) :
    Escaped (encodeChar c ++ rest) := by
  unfold encodeChar
  split
  · next hc => exact .plain hc h
  · unfold Url.escapeChar
    induction String.utf8EncodeChar c with
    | nil => exact h
    | cons b bytes ih =>
      rw [List.flatMap_cons, List.append_assoc]
      exact ih.escapeByte_append b

theorem escaped_encodeChars (cs : List Char) : Escaped (encodeChars cs) := by
  induction cs with
  | nil => exact .nil
  | cons c cs ih => exact ih.encodeChar_append c

theorem slash_notMem_encodeChars (cs : List Char) : '/' ∉ encodeChars cs := by
  intro hmem
  rcases Url.mem_encodeChars hmem with h | h
  · cases h
  · cases h

/-- The template with an escaped identifier in the place of each parameter. -/
structure Template.Filled (t : Template) (ids : List String) (text : String)
    (values : List (List Char)) : Prop where
  written : text.toList = t.with values
  escapes : List.Forall₂ (fun id value => Escaped value ∧ decodeBytes value = utf8 id.toList)
    ids values
  slashes : text.toList.count '/' = t.text.count '/'

theorem fill_filled {t : Template} {ids : List String} {text : String}
    (h : fill (String.ofList t.text) ids = .ok text) : ∃ values, t.Filled ids text values := by
  rw [fill_template] at h
  by_cases hlength : ids.length = t.rest.length
  · rw [if_pos hlength] at h
    cases h
    refine ⟨ids.map fun id => encodeChars id.toList, String.toList_ofList, ?_, ?_⟩
    · rw [List.forall₂_map_right_iff]
      exact List.forall₂_same.2 fun id _ =>
        ⟨escaped_encodeChars _, Url.decodeBytes_encodeChars _⟩
    · rw [String.toList_ofList]
      refine count_with (by simpa using hlength) fun value hvalue => ?_
      obtain ⟨id, -, rfl⟩ := List.mem_map.1 hvalue
      exact slash_notMem_encodeChars _
  · rw [if_neg hlength] at h
    cases h

theorem fill_isOk_iff (t : Template) (ids : List String) :
    (∃ text, fill (String.ofList t.text) ids = .ok text) ↔ ids.length = t.rest.length := by
  rw [fill_template]
  by_cases hlength : ids.length = t.rest.length
  · simp [hlength]
  · simp [hlength]

end Escapes

end SwaggerProvider.Path

namespace SwaggerProvider.Url

section Join

variable {cs u v x y : List Char}

theorem exists_trimStart (cs : List Char) :
    ∃ n, cs = List.replicate n '/' ++ Text.trimStartBy isSlash cs ∧
      (Text.trimStartBy isSlash cs).head? ≠ some '/' := by
  have hall : ∀ c ∈ cs.takeWhile isSlash, c = '/' := fun c hc => by
    have hslash := List.all_eq_true.1 List.all_takeWhile c hc
    simpa [isSlash] using hslash
  refine ⟨(cs.takeWhile isSlash).length, ?_, fun hhead => ?_⟩
  · rw [← List.eq_replicate_of_mem hall]
    exact List.takeWhile_append_dropWhile.symm
  · have hstop := List.head?_dropWhile_not isSlash cs
    rw [show cs.dropWhile isSlash = Text.trimStartBy isSlash cs from rfl, hhead] at hstop
    simp [isSlash] at hstop

theorem exists_trimEnd (cs : List Char) :
    ∃ n, cs = Text.trimEndBy isSlash cs ++ List.replicate n '/' ∧
      (Text.trimEndBy isSlash cs).getLast? ≠ some '/' := by
  obtain ⟨n, hsplit, hhead⟩ := exists_trimStart cs.reverse
  refine ⟨n, ?_, ?_⟩
  · have hreverse := congrArg List.reverse hsplit
    simpa [Text.trimEndBy, Text.trimStartBy] using hreverse
  · rwa [Text.trimEndBy, List.getLast?_reverse]

theorem exists_trim (cs : List Char) :
    ∃ m n, cs = List.replicate m '/' ++ Text.trimBy isSlash cs ++ List.replicate n '/' ∧
      (Text.trimBy isSlash cs).head? ≠ some '/' ∧
      (Text.trimBy isSlash cs).getLast? ≠ some '/' := by
  obtain ⟨m, hstart, hhead⟩ := exists_trimStart cs
  obtain ⟨n, hend, hlast⟩ := exists_trimEnd (Text.trimStartBy isSlash cs)
  refine ⟨m, n, ?_, fun hfirst => hhead ?_, hlast⟩
  · rw [List.append_assoc, Text.trimBy, ← hend, ← hstart]
  · rw [Text.trimBy] at hfirst
    rw [hend, List.head?_append, hfirst]
    rfl

/-- Two slashes that follow each other in joined parts do so in one of them. -/
theorem doubled_slashed (hu : u.getLast? ≠ some '/') (hv : v.head? ≠ some '/')
    (h : u ++ slashed v = x ++ '/' :: '/' :: y) :
    (∃ rest, u = x ++ '/' :: '/' :: rest ∧ y = rest ++ slashed v) ∨
      ∃ front, v = front ++ '/' :: '/' :: y ∧ x = u ++ '/' :: front := by
  cases v with
  | nil => exact .inl ⟨y, by simpa [slashed] using h, by simp [slashed]⟩
  | cons c v =>
    have hc : c ≠ '/' := fun hslash => hv (by simp [hslash])
    have hslashed : slashed (c :: v) = '/' :: c :: v := rfl
    rw [hslashed] at h ⊢
    rcases List.append_eq_append_iff.1 h with ⟨more, rfl, hmore⟩ | ⟨more, rfl, hmore⟩
    · cases more with
      | nil => simp [hc] at hmore
      | cons d more =>
        obtain ⟨rfl, hfront⟩ := List.cons.inj hmore
        exact .inr ⟨more, hfront, rfl⟩
    · cases more with
      | nil => simp [Ne.symm hc] at hmore
      | cons d more =>
        cases more with
        | nil =>
          obtain ⟨rfl, -⟩ := List.cons.inj hmore
          simp at hu
        | cons e more =>
          simp only [List.cons_append, List.cons.injEq] at hmore
          obtain ⟨rfl, rfl, rfl⟩ := hmore
          exact .inl ⟨more, rfl, rfl⟩

theorem getLast?_append_slashed (hu : u.getLast? ≠ some '/') (hv : v.getLast? ≠ some '/') :
    (u ++ slashed v).getLast? ≠ some '/' := by
  cases v with
  | nil => simpa [slashed] using hu
  | cons c v =>
    rw [show u ++ slashed (c :: v) = u ++ ['/'] ++ (c :: v) by simp [slashed],
      List.getLast?_append_of_ne_nil _ (List.cons_ne_nil c v)]
    exact hv

theorem doubled_parts {host base path : List Char} (hhost : host.getLast? ≠ some '/')
    (hfirst : base.head? ≠ some '/') (hlast : base.getLast? ≠ some '/')
    (hpath : path.head? ≠ some '/')
    (h : host ++ slashed base ++ slashed path = x ++ '/' :: '/' :: y) :
    (∃ rest, host = x ++ '/' :: '/' :: rest ∧ y = rest ++ slashed base ++ slashed path) ∨
      (∃ front rest, base = front ++ '/' :: '/' :: rest ∧ x = host ++ '/' :: front ∧
        y = rest ++ slashed path) ∨
      ∃ front, path = front ++ '/' :: '/' :: y ∧ x = host ++ slashed base ++ '/' :: front := by
  rcases doubled_slashed (getLast?_append_slashed hhost hlast) hpath h with
    ⟨rest, hparts, rfl⟩ | hlater
  · rcases doubled_slashed hhost hfirst hparts with ⟨more, rfl, rfl⟩ | ⟨front, rfl, rfl⟩
    · exact .inl ⟨more, rfl, rfl⟩
    · exact .inr (.inl ⟨front, rest, rfl, rfl, rfl⟩)
  · exact .inr (.inr hlater)

end Join

/-- What is left of the parts of a URL when the slashes at their seams are cut. -/
structure Trimmed (host base path : String) (H b p : List Char) : Prop where
  hostEnd : ∃ n, host.toList = H ++ List.replicate n '/'
  baseEnds : ∃ m n, base.toList = List.replicate m '/' ++ b ++ List.replicate n '/'
  pathStart : ∃ n, path.toList = List.replicate n '/' ++ p
  seams : H.getLast? ≠ some '/' ∧ b.head? ≠ some '/' ∧ b.getLast? ≠ some '/' ∧ p.head? ≠ some '/'

theorem exists_trimmed (scheme host base path : String) :
    ∃ H b p, Trimmed host base path H b p ∧
      (join scheme host base path).toList =
        scheme.toList ++ "://".toList ++ (H ++ slashed b ++ slashed p) := by
  obtain ⟨k, hhost, hlast⟩ := exists_trimEnd host.toList
  obtain ⟨m, n, hbase, hfirst, hend⟩ := exists_trim base.toList
  obtain ⟨l, hpath, hstart⟩ := exists_trimStart path.toList
  refine ⟨_, _, _, ⟨⟨k, hhost⟩, ⟨m, n, hbase⟩, ⟨l, hpath⟩, hlast, hfirst, hend, hstart⟩, ?_⟩
  simp [join]

/-- Every path is a template. It is filled exactly when there are as many identifiers as parameters;
then only the parameters change, each to an escaped text that decodes to its identifier, and there
are as many slashes as before. A URL is put together from what is left of its parts when the slashes
at the seams are cut, and no two slashes meet at a seam. -/
theorem url_text :
    (∀ path : String, ∃ t : Path.Template, String.ofList t.text = path) ∧
    (∀ (t : Path.Template) (ids : List String),
      ((∃ text, Path.fill (String.ofList t.text) ids = .ok text) ↔ ids.length = t.rest.length) ∧
      ∀ text, Path.fill (String.ofList t.text) ids = .ok text →
        ∃ values, t.Filled ids text values) ∧
    ∀ scheme host base path : String, ∃ H b p : List Char, Trimmed host base path H b p ∧
      (join scheme host base path).toList =
        scheme.toList ++ "://".toList ++ (H ++ slashed b ++ slashed p) ∧
      ∀ x y, H ++ slashed b ++ slashed p = x ++ '/' :: '/' :: y →
        (∃ rest, H = x ++ '/' :: '/' :: rest ∧ y = rest ++ slashed b ++ slashed p) ∨
        (∃ front rest, b = front ++ '/' :: '/' :: rest ∧ x = H ++ '/' :: front ∧
          y = rest ++ slashed p) ∨
        ∃ front, p = front ++ '/' :: '/' :: y ∧ x = H ++ slashed b ++ '/' :: front := by
  refine ⟨fun path => ?_, fun t ids => ?_, fun scheme host base path => ?_⟩
  · obtain ⟨t, ht⟩ := Path.exists_template path.toList
    exact ⟨t, by rw [ht, String.ofList_toList]⟩
  · exact ⟨Path.fill_isOk_iff t ids, fun text htext => Path.fill_filled htext⟩
  · obtain ⟨H, b, p, htrimmed, hjoin⟩ := exists_trimmed scheme host base path
    obtain ⟨hlast, hfirst, hend, hstart⟩ := htrimmed.seams
    exact ⟨H, b, p, htrimmed, hjoin, fun x y h => doubled_parts hlast hfirst hend hstart h⟩

theorem url_text_rules :
    (∃ (t : Path.Template) (values : List (List Char)),
      String.ofList t.text = "/v1/cdns/{id}/rules" ∧
      t.Filled ["a/{b}?"] "/v1/cdns/a%2F%7Bb%7D%3F/rules" values) ∧
    ∃ H b p, Trimmed "api/" "/a//b/" "/rules" H b p ∧
      ((∃ rest, H = "api/a".toList ++ '/' :: '/' :: rest ∧
          "b/rules".toList = rest ++ slashed b ++ slashed p) ∨
        (∃ front rest, b = front ++ '/' :: '/' :: rest ∧ "api/a".toList = H ++ '/' :: front ∧
          "b/rules".toList = rest ++ slashed p) ∨
        ∃ front, p = front ++ '/' :: '/' :: "b/rules".toList ∧
          "api/a".toList = H ++ slashed b ++ '/' :: front) := by
  constructor
  · obtain ⟨t, ht⟩ := url_text.1 "/v1/cdns/{id}/rules"
    have hfill : Path.fill (String.ofList t.text) ["a/{b}?"] =
        .ok "/v1/cdns/a%2F%7Bb%7D%3F/rules" := by
      rw [ht]
      rfl
    obtain ⟨values, hvalues⟩ := (url_text.2.1 t ["a/{b}?"]).2 _ hfill
    exact ⟨t, values, ht, hvalues⟩
  · obtain ⟨H, b, p, htrimmed, hjoin, hdouble⟩ := url_text.2.2 "https" "api/" "/a//b/" "/rules"
    have hurl : (join "https" "api/" "/a//b/" "/rules").toList =
        "https".toList ++ "://".toList ++ "api/a//b/rules".toList := by decide +kernel
    exact ⟨H, b, p, htrimmed, hdouble _ _ (List.append_cancel_left (hjoin.symm.trans hurl))⟩

end SwaggerProvider.Url
