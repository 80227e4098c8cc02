import SwaggerProvider.Log.Basic
import SwaggerProvider.Proofs.Text.Pieces
import SwaggerProvider.Proofs.Url.Percent
import SwaggerProvider.Url.Parse
import Mathlib.Data.List.Forall2

/-!
What the log shows of a query does not depend on its values. Striking them out takes one pass over
the text: between an equals sign and the next ampersand nothing is shown.
-/

set_option autoImplicit false

namespace SwaggerProvider

namespace Log

def strike : Bool → List Char → List Char
  | _, [] => []
  | within, c :: rest =>
    if c = '&' then '&' :: strike false rest
    else if within then strike true rest
    else if c = '=' then '=' :: redacted.toList ++ strike true rest
    else c :: strike false rest

theorem join_redactPair (query : List Char) :
    (∀ piece more, Text.pieces '&' query = piece :: more →
      Text.join ['&'] ([] :: more.map redactPair) = strike true query) ∧
    Text.join ['&'] ((Text.pieces '&' query).map redactPair) = strike false query := by
  induction query with
  | nil =>
    refine ⟨?_, rfl⟩
    rintro _ _ ⟨⟩
    rfl
  | cons c rest ih =>
    obtain ⟨htrue, hfalse⟩ := ih
    cases hp : Text.pieces '&' rest with
    | nil => exact absurd hp (Text.pieces_ne_nil _ _)
    | cons piece more =>
      have hwithin := htrue piece more hp
      rw [hp] at hfalse
      by_cases hamp : c = '&'
      · have hcons : Text.pieces '&' (c :: rest) = [] :: piece :: more := by
          simp [Text.pieces, hamp, hp]
        have hnext : Text.join ['&'] ([] :: (piece :: more).map redactPair) =
            '&' :: strike false rest := by
          rw [Text.join_cons_of_ne_nil _ _ (by simp), hfalse]
          rfl
        rw [hcons]
        refine ⟨?_, by simpa [strike, hamp, redactPair, Text.cut?] using hnext⟩
        rintro _ _ ⟨⟩
        simpa [strike, hamp] using hnext
      · have hcons : Text.pieces '&' (c :: rest) = (c :: piece) :: more := by
          simp [Text.pieces, hamp, hp]
        rw [hcons]
        refine ⟨?_, ?_⟩
        · rintro _ _ ⟨⟩
          simpa [strike, hamp] using hwithin
        · by_cases heq : c = '='
          · have hpair : redactPair (c :: piece) = ('=' :: redacted.toList) ++ [] := by
              simp [redactPair, Text.cut?, heq]
            rw [List.map_cons, hpair, Text.join_cons_append, hwithin]
            simp [strike, heq]
          · have hpair : redactPair (c :: piece) = [c] ++ redactPair piece := by
              unfold redactPair
              rw [Text.cut?, if_neg heq]
              cases Text.cut? '=' piece <;> rfl
            rw [List.map_cons, hpair, Text.join_cons_append, ← List.map_cons, hfalse]
            simp [strike, hamp, heq]

theorem redactQuery_eq {base : List Char} (h : '?' ∉ base) (query : List Char) :
    redactQuery (String.ofList (base ++ '?' :: query)) =
      String.ofList (base ++ '?' :: strike false query) := by
  rw [redactQuery, String.toList_ofList, Text.cut?_append h]
  dsimp only
  rw [(join_redactPair query).2]

def Blurred (cs ds : List Char) : Prop := ∀ within, strike within cs = strike within ds

theorem Blurred.prepend {cs ds : List Char} (h : Blurred cs ds) (front : List Char) :
    Blurred (front ++ cs) (front ++ ds) := by
  induction front with
  | nil => exact h
  | cons c rest ih =>
    intro within
    simp only [List.cons_append, strike, ih true, ih false]

theorem strike_value {value : List Char} (h : '&' ∉ value) (rest : List Char) :
    strike true (value ++ rest) = strike true rest := by
  induction value with
  | nil => rfl
  | cons c more ih =>
    have hc : c ≠ '&' := fun hc => h (hc ▸ List.mem_cons_self)
    rw [List.cons_append, strike, if_neg hc, if_pos rfl]
    exact ih fun hmem => h (List.mem_cons_of_mem _ hmem)

theorem Blurred.value {first second cs ds : List Char} (h : Blurred cs ds) (hfirst : '&' ∉ first)
    (hsecond : '&' ∉ second) : Blurred ('=' :: (first ++ cs)) ('=' :: (second ++ ds)) := by
  have hne : '=' ≠ '&' := by decide
  intro within
  simp only [strike, if_neg hne, if_true, strike_value hfirst, strike_value hsecond, h true]

theorem amp_notMem_formChars (cs : List Char) : '&' ∉ Url.formChars cs :=
  fun h => absurd (Url.mem_formChars h) (by decide)

theorem blurred_pairText {name first second : String} {cs ds : List Char} (h : Blurred cs ds) :
    Blurred (Url.pairText (name, first) ++ cs) (Url.pairText (name, second) ++ ds) := by
  have hvalue := h.value (amp_notMem_formChars first.toList) (amp_notMem_formChars second.toList)
  simpa [Url.pairText] using hvalue.prepend (Url.formChars name.toList)

abbrev SameNames (pairs others : List (String × String)) : Prop :=
  List.Forall₂ (fun p q => p.1 = q.1) pairs others

theorem blurred_pairs {pairs others : List (String × String)} (h : SameNames pairs others)
    (ending : List Char) :
    Blurred (Text.join ['&'] (pairs.map Url.pairText) ++ ending)
      (Text.join ['&'] (others.map Url.pairText) ++ ending) := by
  induction h with
  | nil => exact fun _ => rfl
  | @cons p q pairs others hname hrest ih =>
    obtain ⟨name, first⟩ := p
    obtain ⟨_, second⟩ := q
    cases hname
    cases hrest with
    | nil => exact blurred_pairText fun _ => rfl
    | cons hnext hmore =>
      have hsplit (e next : String × String) (rest : List (String × String)) :
          Text.join ['&'] ((e :: next :: rest).map Url.pairText) ++ ending = Url.pairText e ++
            (['&'] ++ (Text.join ['&'] ((next :: rest).map Url.pairText) ++ ending)) := by
        simp [Text.join]
      rw [hsplit, hsplit]
      exact blurred_pairText (ih.prepend ['&'])

theorem redactQuery_congr {cs ds : List Char} (h : Blurred cs ds) {front : List Char}
    (hfront : '?' ∈ front) :
    redactQuery (String.ofList (front ++ cs)) = redactQuery (String.ofList (front ++ ds)) := by
  obtain ⟨base, query, rfl, hbase⟩ := List.eq_append_cons_of_mem hfront
  rw [List.append_assoc, List.append_assoc, List.cons_append, List.cons_append,
    redactQuery_eq hbase, redactQuery_eq hbase, h.prepend query false]

def queryFront : Option String → String
  | some query => if query.isEmpty then "" else query ++ "&"
  | none => ""

/-- The log shows the same of a URL, whatever the values of the pairs that are added to it. -/
theorem redactQuery_appendQuery (url : Url) {pairs others : List (String × String)}
    (h : SameNames pairs others) :
    redactQuery (url.appendQuery pairs).text = redactQuery (url.appendQuery others).text := by
  cases h with
  | nil => rfl
  | @cons p q pairs others hname hrest =>
    have hblurred := blurred_pairs (.cons hname hrest) (Url.part "#" url.fragment).toList
    let address := { url with query := none }.target
    have htext (e : String × String) (entries : List (String × String)) :
        (url.appendQuery (e :: entries)).text = String.ofList (
          (address ++ "?" ++ queryFront url.query).toList ++
          (Text.join ['&'] ((e :: entries).map Url.pairText) ++
            (Url.part "#" url.fragment).toList)) := by
      rw [← String.toList_inj, String.toList_ofList]
      simp only [address, queryFront, Url.text, Url.appendQuery, Url.target, Url.part]
      cases url.query with
      | none => simp [Url.authority]
      | some query => by_cases hempty : query.isEmpty <;> simp [hempty, Url.authority]
    rw [htext, htext]
    exact redactQuery_congr hblurred (by simp)

end Log

end SwaggerProvider
