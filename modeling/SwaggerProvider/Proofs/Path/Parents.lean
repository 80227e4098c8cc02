import SwaggerProvider.Proofs.Path.Root
import SwaggerProvider.Proofs.Path.Walk
import SwaggerProvider.Url.Join

/-!
The parents of a path are written without a slash at the end: a root path ends in a literal segment
and an instance path in a brace.
-/

set_option autoImplicit false

namespace SwaggerProvider.Path

def Plain (path : String) : Prop := Text.trimEndBy Url.isSlash path.toList = path.toList

theorem plain_ofList {front : List Char} {c : Char} (h : Url.isSlash c = false) :
    Plain (String.ofList (front ++ [c])) := by
  simp [Plain, Text.trimEndBy, h]

theorem isSlash_of_isSegmentChar {c : Char} (h : isSegmentChar c = true) :
    Url.isSlash c = false := by
  by_cases hc : c = '/'
  · subst hc
    revert h
    decide
  · simpa [Url.isSlash] using hc

theorem plain_of_led {root : String} (h : Led (root.toList ++ ['/'])) : Plain root := by
  obtain ⟨start, literal, hroot, hne, hall⟩ := h
  have hlast := hall _ (List.getLast_mem hne)
  have hends : root =
      String.ofList (start ++ '/' :: literal.dropLast ++ [literal.getLast hne]) := by
    refine String.toList_inj.1 ?_
    rw [List.append_assoc, List.cons_append, List.dropLast_concat_getLast hne, String.toList_ofList]
    exact List.append_cancel_right (hroot.trans (by simp))
  rw [hends]
  exact plain_ofList (isSlash_of_isSegmentChar hlast)

structure Parent.Formed (p : Parent) : Prop where
  led : Led (p.root.toList ++ ['/'])
  instancePath : ∃ name, IsName name ∧ p.instancePath = p.root ++ parameterSegment name

theorem parentAt_formed {cs segment parameter ahead : List Char} (done : List Char) (name : String)
    (h : step? cs = some (segment, parameter, ahead)) :
    (parentAt done segment parameter name).Formed := by
  obtain ⟨-, hled, -, hname⟩ := step?_found h
  refine ⟨?_, parameter, hname, ?_⟩
  · have hlonger := hled.append done
    simpa [parentAt] using hlonger
  · simp [parentAt, parameterSegment, braced, String.append_assoc]

theorem chain_formed {path : String} {c : Chain} (h : chain path = .ok c) :
    ∀ p ∈ c.parents, p.Formed := by
  intro p hp
  cases chain_met h p hp with
  | intro missed step named => exact parentAt_formed _ _ step

theorem Parent.Formed.plain {p : Parent} (h : p.Formed) : Plain p.root ∧ Plain p.instancePath := by
  obtain ⟨hled, name, -, hinstance⟩ := h
  refine ⟨plain_of_led hled, ?_⟩
  have hends : p.instancePath = String.ofList (p.root.toList ++ '/' :: '{' :: name ++ ['}']) := by
    rw [hinstance]
    refine String.toList_inj.1 ?_
    simp [parameterSegment]
  rw [hends]
  exact plain_ofList rfl

theorem chain_plain {path : String} {c : Chain} (h : chain path = .ok c) :
    ∀ p ∈ c.parents, Plain p.root ∧ Plain p.instancePath :=
  fun p hp => (chain_formed h p hp).plain

end SwaggerProvider.Path
