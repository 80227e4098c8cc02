import SwaggerProvider.Path.Basic
import SwaggerProvider.Proofs.Text.Pieces

/-!
The root path of an instance path: the path before its final parameter segment, as the document
writes it, with a slash at the end or without one.
-/

set_option autoImplicit false

namespace SwaggerProvider.Path

def parameterSegment (parameter : List Char) : String :=
  String.ofList ('/' :: '{' :: parameter ++ ['}'])

theorem beforeBrace_eq_some {cs front : List Char} (h : beforeBrace cs = some front) :
    cs = front.reverse ++ ['}'] ∨ cs = front.reverse ++ ['}', '/'] := by
  have hcs : cs = cs.reverse.reverse := cs.reverse_reverse.symm
  unfold beforeBrace at h
  split at h
  · next hr =>
    cases h
    rw [hr] at hcs
    exact .inr (by simpa using hcs)
  · next hr =>
    cases h
    rw [hr] at hcs
    exact .inl (by simpa using hcs)
  · cases h

theorem root?_eq_some {path front : String} (h : root? path = some front) :
    ∃ parameter : List Char, parameter ≠ [] ∧ (∀ c ∈ parameter, isDelimiter c = false) ∧
      (path = front ++ parameterSegment parameter ∨
        path = front ++ parameterSegment parameter ++ "/") := by
  unfold root? at h
  cases hb : beforeBrace path.toList with
  | none => simp [hb] at h
  | some cs =>
    simp only [hb] at h
    have hsplit := List.takeWhile_append_dropWhile (p := fun c => !isDelimiter c) (l := cs)
    have hall := List.all_takeWhile (p := fun c => !isDelimiter c) (l := cs)
    generalize cs.takeWhile (fun c => !isDelimiter c) = parameter at h hsplit hall
    split at h
    · cases h
    · next hne =>
      split at h
      · next root hd =>
        split at h
        · cases h
        · cases h
          rw [hd] at hsplit
          subst hsplit
          refine ⟨parameter.reverse, by simpa using hne, fun c hc => ?_, ?_⟩
          · simpa using List.all_eq_true.1 hall c (List.mem_reverse.1 hc)
          · rcases beforeBrace_eq_some hb with hpath | hpath
            · refine .inl (String.toList_inj.1 ?_)
              simp [hpath, parameterSegment]
            · refine .inr (String.toList_inj.1 ?_)
              simp [hpath, parameterSegment]
      · cases h

theorem root?_append {front : String} {name : List Char} (hne : name ≠ [])
    (hplain : ∀ c ∈ name, isDelimiter c = false) :
    root? (front ++ parameterSegment name) =
      if front.toList.contains '\n' then none else some front := by
  have hbefore : beforeBrace (front ++ parameterSegment name).toList =
      some (name.reverse ++ '{' :: '/' :: front.toList.reverse) := by
    simp [beforeBrace, parameterSegment]
  have hnot : ∀ c ∈ name.reverse, (!isDelimiter c) = true := by
    intro c hc
    simp [hplain c (List.mem_reverse.1 hc)]
  have htake : (name.reverse ++ '{' :: '/' :: front.toList.reverse).takeWhile
      (fun c => !isDelimiter c) = name.reverse := by
    rw [List.takeWhile_append_of_pos hnot, List.takeWhile_cons_of_neg (by decide), List.append_nil]
  have hdrop : (name.reverse ++ '{' :: '/' :: front.toList.reverse).dropWhile
      (fun c => !isDelimiter c) = '{' :: '/' :: front.toList.reverse := by
    rw [List.dropWhile_append_of_pos hnot, List.dropWhile_cons_of_neg (by decide)]
  unfold root?
  rw [hbefore]
  dsimp only
  rw [htake, hdrop, if_neg (by simpa using hne)]
  simp

theorem findRoot_eq_ok {path root : String} {known : List String}
    (h : findRoot path known = .ok root) :
    root ∈ known ∧ ∃ front, root? path = some front ∧ (root = front ∨ root = front ++ "/") := by
  unfold findRoot at h
  cases hr : root? path with
  | none => simp [hr] at h
  | some front =>
    simp only [hr] at h
    split at h
    · next hmem =>
      cases h
      exact ⟨List.contains_iff_mem.1 hmem, root, rfl, .inl rfl⟩
    · split at h
      · next hmem =>
        cases h
        exact ⟨List.contains_iff_mem.1 hmem, front, rfl, .inr rfl⟩
      · cases h

section Names

theorem segments_slash (path : String) : segments (path ++ "/") = segments path := by
  unfold segments
  rw [String.toList_append]
  change (Text.pieces '/' (path.toList ++ ['/'])).filter _ = _
  rw [Text.pieces_append_cons, List.filter_append]
  simp [Text.pieces]

theorem segments_append (front : String) {segment : List Char} (hne : segment ≠ [])
    (hslash : '/' ∉ segment) :
    segments (front ++ String.ofList ('/' :: segment)) = segments front ++ [segment] := by
  unfold segments
  rw [String.toList_append, String.toList_ofList, Text.pieces_append_cons, List.filter_append,
    Text.pieces_of_notMem hslash]
  simp [hne]

theorem segments_parameter (front : String) {parameter : List Char}
    (h : ∀ c ∈ parameter, isDelimiter c = false) :
    segments (front ++ parameterSegment parameter) =
      segments front ++ ['{' :: parameter ++ ['}']] := by
  have hparameter : '/' ∉ parameter := fun hmem => absurd (h _ hmem) (by decide)
  exact segments_append front (by simp) (by simp [hparameter])

theorem name_eq_ok {path : String} {n : Name} :
    name path = .ok n ↔ nameFrom (segments path).reverse = some n := by
  unfold name
  cases nameFrom (segments path).reverse <;> simp

theorem exists_segment_of_name {path : String} {n : Name} (h : name path = .ok n) :
    ∃ segment ∈ segments path, isParameter segment = false := by
  have hfrom : ∀ {found : List (List Char)}, nameFrom found = some n →
      ∃ segment ∈ found, isParameter segment = false := by
    intro found hfound
    induction found with
    | nil => cases hfound
    | cons segment above ih =>
      rw [nameFrom] at hfound
      split at hfound
      · obtain ⟨other, hother, hliteral⟩ := ih hfound
        exact ⟨other, List.mem_cons_of_mem _ hother, hliteral⟩
      · next hliteral => exact ⟨segment, List.mem_cons_self, by simpa using hliteral⟩
  obtain ⟨segment, hsegment, hliteral⟩ := hfrom (name_eq_ok.1 h)
  exact ⟨segment, List.mem_reverse.1 hsegment, hliteral⟩

theorem name_slash {path : String} {n : Name} : name (path ++ "/") = .ok n ↔ name path = .ok n := by
  rw [name_eq_ok, name_eq_ok, segments_slash]

end Names

end SwaggerProvider.Path
