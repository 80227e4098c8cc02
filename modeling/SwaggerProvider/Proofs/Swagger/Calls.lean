import Mathlib.Data.List.Forall2
import Mathlib.Logic.Relation
import SwaggerProvider.Proofs.Outcome
import SwaggerProvider.Swagger.Document
import SwaggerProvider.Swagger.Reference

/-!
How the expansion of references descends. It visits values, each with the references that are being
followed at that point, and a visit depends on the visits that it calls and on nothing else. No
chain of calls goes on forever, however the references of the document run.
-/

set_option autoImplicit false

namespace SwaggerProvider.Swagger.Reference

structure Visit where
  stack : List String
  value : Json

def Visit.expand (root : Json) (v : Visit) : Except LoadFault Json :=
  expandValue root v.stack v.value

def siblings (members : Members) : Members := members.filter fun e => e.1 ≠ refKey

def named (expand : Json → Except LoadFault Json) (e : String × Json) :
    Except LoadFault (String × Json) :=
  (expand e.2).map fun expanded => (e.1, expanded)

/-- One level of expansion, with the expansion of what is called as a parameter. -/
def level (root : Json) (expand : Visit → Except LoadFault Json) (v : Visit) :
    Except LoadFault Json :=
  match v.value with
  | .object members =>
    match reference? members with
    | some reference =>
      if reference ∈ v.stack then .ok (.object members)
      else (resolve root reference).bind fun target =>
        (expand ⟨reference :: v.stack, target⟩).bind fun
          | .object expanded =>
            ((siblings members).mapM (named fun value => expand ⟨v.stack, value⟩)).map
              fun beside => .object (Extensions.union expanded beside)
          | other => .ok other
    | none => (members.mapM (named fun value => expand ⟨v.stack, value⟩)).map .object
  | .array items => (items.mapM fun item => expand ⟨v.stack, item⟩).map .array
  | other => .ok other

/-- The calls of a visit: the items of an array, the members of an object, and the target of a
reference that is not being followed yet. -/
inductive Calls (root : Json) : Visit → Visit → Prop where
  | item {stack : List String} {items : List Json} {item : Json} (has : item ∈ items) :
    Calls root ⟨stack, .array items⟩ ⟨stack, item⟩
  | member {stack : List String} {members : Members} {name : String} {value : Json}
    (plain : reference? members = none) (has : (name, value) ∈ members) :
    Calls root ⟨stack, .object members⟩ ⟨stack, value⟩
  | target {stack : List String} {members : Members} {reference : String} {target : Json}
    (refers : reference? members = some reference) (fresh : reference ∉ stack)
    (leads : resolve root reference = .ok target) :
    Calls root ⟨stack, .object members⟩ ⟨reference :: stack, target⟩
  | sibling {stack : List String} {members : Members} {reference name : String} {value : Json}
    (refers : reference? members = some reference) (fresh : reference ∉ stack)
    (has : (name, value) ∈ siblings members) :
    Calls root ⟨stack, .object members⟩ ⟨stack, value⟩

theorem mem_of_mem_siblings {members : Members} {e : String × Json} (h : e ∈ siblings members) :
    e ∈ members :=
  (List.mem_filter.1 h).1

section Level

variable {root : Json} {stack : List String}

theorem expandItems_eq (items : List Json) :
    expandItems root stack items = items.mapM fun item => expandValue root stack item := by
  induction items with
  | nil => rw [expandItems]; rfl
  | cons item rest ih =>
    rw [expandItems, List.mapM_cons, ih]
    cases expandValue root stack item with
    | error fault => rfl
    | ok expanded => rfl

theorem expandMembers_eq (members : List (String × Json)) :
    expandMembers root stack members =
      members.mapM (named fun value => expandValue root stack value) := by
  induction members with
  | nil => rw [expandMembers]; rfl
  | cons e rest ih =>
    rw [expandMembers, List.mapM_cons, ih]
    dsimp only [named]
    cases expandValue root stack e.2 with
    | error fault => rfl
    | ok expanded => rfl

theorem overlay_eq (target : Members) (members : List (String × Json)) :
    overlay root stack target members =
      ((siblings members).mapM (named fun value => expandValue root stack value)).map
        fun beside => Extensions.union target beside := by
  induction members generalizing target with
  | nil => rw [overlay]; rfl
  | cons e rest ih =>
    obtain ⟨name, value⟩ := e
    rw [overlay]
    unfold siblings at ih ⊢
    by_cases hname : name = refKey
    · rw [if_pos hname, ih, List.filter_cons_of_neg (by simpa using hname)]
    · rw [if_neg hname, List.filter_cons_of_pos (by simpa using hname), List.mapM_cons]
      dsimp only [named] at ih ⊢
      cases expandValue root stack value with
      | error fault => rfl
      | ok expanded =>
        dsimp only
        rw [ih]
        generalize List.mapM (m := Except LoadFault) _ _ = beside
        cases beside <;> rfl

theorem expandValue_plain {members : Members} (h : reference? members = none) :
    expandValue root stack (.object members) = (expandMembers root stack members).map .object := by
  rw [expandValue.eq_def]
  dsimp only
  split
  · next hr =>
    rw [h] at hr
    cases hr
  · rfl

theorem expandValue_followed {members : Members} {reference : String}
    (h : reference? members = some reference) (hs : reference ∈ stack) :
    expandValue root stack (.object members) = .ok (.object members) := by
  rw [expandValue.eq_def]
  dsimp only
  split
  · next hr =>
    rw [h] at hr
    cases hr
    rw [dif_pos hs]
  · next hr =>
    rw [h] at hr
    cases hr

theorem expandValue_fresh {members : Members} {reference : String}
    (h : reference? members = some reference) (hs : reference ∉ stack) :
    expandValue root stack (.object members) = (resolve root reference).bind fun target =>
      (expandValue root (reference :: stack) target).bind fun
        | .object expanded => (overlay root stack expanded members).map .object
        | other => .ok other := by
  rw [expandValue.eq_def]
  dsimp only
  split
  · next hr =>
    rw [h] at hr
    cases hr
    rw [dif_neg hs]
    split
    · next ht =>
      rw [ht]
      rfl
    · next target ht =>
      rw [ht]
      dsimp only [Except.bind]
      cases expandValue root (reference :: stack) target with
      | error fault => rfl
      | ok expanded => cases expanded <;> rfl
  · next hr =>
    rw [h] at hr
    cases hr

theorem expand_eq_level (v : Visit) : v.expand root = level root (Visit.expand root) v := by
  obtain ⟨stack, value⟩ := v
  dsimp only [level, Visit.expand]
  cases value with
  | object members =>
    dsimp only
    cases hr : reference? members with
    | none => rw [expandValue_plain hr, expandMembers_eq]
    | some reference =>
      dsimp only
      by_cases hs : reference ∈ stack
      · rw [expandValue_followed hr hs, if_pos hs]
      · rw [expandValue_fresh hr hs, if_neg hs]
        congr 1
        funext target
        congr 1
        funext expanded
        cases expanded with
        | object expanded =>
          dsimp only
          rw [overlay_eq]
          generalize List.mapM (m := Except LoadFault) _ _ = beside
          cases beside <;> rfl
        | null | bool | number | string | array => rfl
  | array items => rw [expandValue, expandItems_eq]
  | null | bool | number | string => rw [expandValue] <;> simp

end Level

section Descent

variable {root : Json} {v w : Visit}

theorem level_congr {f g : Visit → Except LoadFault Json}
    (h : ∀ w, Calls root v w → f w = g w) : level root f v = level root g v := by
  obtain ⟨stack, value⟩ := v
  dsimp only [level]
  cases value with
  | object members =>
    dsimp only
    cases hr : reference? members with
    | none =>
      dsimp only
      congr 1
      refine Except.mapM_congr fun e he => ?_
      rw [named, named, h _ (.member hr he)]
    | some reference =>
      dsimp only
      by_cases hs : reference ∈ stack
      · rw [if_pos hs, if_pos hs]
      · have hbeside : (siblings members).mapM (named fun value => f ⟨stack, value⟩) =
            (siblings members).mapM (named fun value => g ⟨stack, value⟩) := by
          refine Except.mapM_congr fun e he => ?_
          rw [named, named, h _ (.sibling hr hs he)]
        rw [if_neg hs, if_neg hs, hbeside]
        cases ht : resolve root reference with
        | error fault => rfl
        | ok target =>
          dsimp only [Except.bind]
          rw [h _ (.target hr hs ht)]
  | array items =>
    dsimp only
    rw [Except.mapM_congr fun item hitem => h _ (.item hitem)]
  | null | bool | number | string => rfl

structure Inner (inner outer : Json) : Prop where
  members : ∀ e ∈ membersWithin inner, e ∈ membersWithin outer
  smaller : sizeOf inner < sizeOf outer

theorem inner_item {items : List Json} {item : Json} (h : item ∈ items) :
    Inner item (.array items) := by
  have hsize := List.sizeOf_lt_of_mem h
  refine ⟨mem_membersOfItems h, ?_⟩
  rw [Json.array.sizeOf_spec]
  omega

theorem inner_member {members : Members} {name : String} {value : Json}
    (h : (name, value) ∈ members) : Inner value (.object members) := by
  have hsize := List.sizeOf_lt_of_mem h
  rw [Prod.mk.sizeOf_spec] at hsize
  refine ⟨fun e he => mem_membersWithin e (mem_membersBelow h e he), ?_⟩
  rw [Json.object.sizeOf_spec]
  omega

/-- A call goes inwards with the same references, or follows one more. -/
theorem Calls.inner_or_target (h : Calls root v w) :
    w.stack = v.stack ∧ Inner w.value v.value ∨
      ∃ members reference, v.value = .object members ∧ reference? members = some reference ∧
        reference ∉ v.stack ∧ w.stack = reference :: v.stack ∧
        resolve root reference = .ok w.value := by
  cases h with
  | item has => exact .inl ⟨rfl, inner_item has⟩
  | member _ has => exact .inl ⟨rfl, inner_member has⟩
  | sibling _ _ has => exact .inl ⟨rfl, inner_member (mem_of_mem_siblings has)⟩
  | target refers fresh leads => exact .inr ⟨_, _, rfl, refers, fresh, rfl, leads⟩

theorem Calls.descends (h : Calls root v w) :
    Prod.Lex (· < ·) (· < ·) (rank root w.stack (membersWithin w.value), sizeOf w.value)
      (rank root v.stack (membersWithin v.value), sizeOf v.value) := by
  rcases h.inner_or_target with ⟨hstack, hinner⟩ | ⟨members, r, hv, hr, hnew, hstack, hw⟩
  · rw [hstack]
    exact inwards hinner.members hinner.smaller
  · rw [hstack, hv]
    exact .left _ _ (rank_push_lt hr hnew hw)

theorem calls_wellFounded (root : Json) : WellFounded fun w v => Calls root v w :=
  Subrelation.wf (fun h => h.descends)
    (InvImage.wf (fun v : Visit => (rank root v.stack (membersWithin v.value), sizeOf v.value))
      (Prod.lex ⟨_, Nat.lt_wfRel.wf⟩ ⟨_, Nat.lt_wfRel.wf⟩).wf)

structure Within (root : Json) (v : Visit) : Prop where
  distinct : v.stack.Nodup
  followed : ∀ r ∈ v.stack, (refKey, .string r) ∈ membersWithin root
  members : ∀ e ∈ membersWithin v.value, e ∈ membersWithin root

theorem within_start (root : Json) : Within root ⟨[], root⟩ :=
  ⟨List.nodup_nil, fun r hr => by simp at hr, fun e he => he⟩

theorem Within.call (hv : Within root v) (h : Calls root v w) : Within root w := by
  rcases h.inner_or_target with ⟨hstack, hinner⟩ | ⟨members, r, hvalue, hr, hnew, hstack, hw⟩
  · constructor
    case distinct => exact hstack ▸ hv.distinct
    case followed => exact hstack ▸ hv.followed
    case members => exact fun e he => hv.members e (hinner.members e he)
  · have hroot : (refKey, .string r) ∈ membersWithin root := by
      refine hv.members _ ?_
      rw [hvalue]
      exact List.mem_append_left _ (reference?_mem hr)
    constructor
    case distinct => exact hstack ▸ List.nodup_cons.2 ⟨hnew, hv.distinct⟩
    case followed =>
      rw [hstack]
      intro other hother
      rcases List.mem_cons.1 hother with rfl | hother
      · exact hroot
      · exact hv.followed other hother
    case members => exact membersWithin_resolve hw

theorem within_of_reach (h : Relation.ReflTransGen (Calls root) ⟨[], root⟩ v) : Within root v := by
  induction h with
  | refl => exact within_start root
  | tail _ hcall ih => exact ih.call hcall

/-- Where all references lead somewhere, nothing can go wrong on any level. -/
theorem level_eq_ok {expand : Visit → Except LoadFault Json}
    (hcalls : ∀ w, Calls root v w → ∃ expanded, expand w = .ok expanded)
    (hleads : ∀ r, (refKey, .string r) ∈ membersWithin v.value → ∃ t, resolve root r = .ok t) :
    ∃ expanded, level root expand v = .ok expanded := by
  obtain ⟨stack, value⟩ := v
  dsimp only [level]
  cases value with
  | object members =>
    have hnamed {e : String × Json} {expanded : Json}
        (he : expand ⟨stack, e.2⟩ = .ok expanded) :
        ∃ b, named (fun value => expand ⟨stack, value⟩) e = .ok b :=
      ⟨(e.1, expanded), by rw [named, he]; rfl⟩
    dsimp only
    cases hr : reference? members with
    | none =>
      dsimp only
      have hall : ∀ e ∈ members, ∃ b, named (fun value => expand ⟨stack, value⟩) e = .ok b := by
        intro e he
        obtain ⟨expanded, hexpanded⟩ := hcalls _ (.member hr he)
        exact hnamed hexpanded
      obtain ⟨out, hout⟩ := Except.exists_mapM_eq_ok hall
      exact ⟨.object out, by rw [hout]; rfl⟩
    | some reference =>
      dsimp only
      by_cases hs : reference ∈ stack
      · exact ⟨.object members, if_pos hs⟩
      · have hmem := List.mem_append_left (membersBelow members) (reference?_mem hr)
        obtain ⟨target, ht⟩ := hleads reference hmem
        obtain ⟨expanded, hexpanded⟩ := hcalls _ (.target hr hs ht)
        have hall : ∀ e ∈ siblings members,
            ∃ b, named (fun value => expand ⟨stack, value⟩) e = .ok b := by
          intro e he
          obtain ⟨expanded, hexpanded⟩ := hcalls _ (.sibling hr hs he)
          exact hnamed hexpanded
        obtain ⟨beside, hbeside⟩ := Except.exists_mapM_eq_ok hall
        rw [if_neg hs, ht]
        dsimp only [Except.bind]
        rw [hexpanded]
        dsimp only
        cases expanded with
        | object expanded => exact ⟨_, by dsimp only; rw [hbeside]; rfl⟩
        | null | bool | number | string | array => exact ⟨_, rfl⟩
  | array items =>
    obtain ⟨out, hout⟩ := Except.exists_mapM_eq_ok fun item hitem => hcalls _ (.item hitem)
    exact ⟨.array out, by dsimp only; rw [hout]; rfl⟩
  | null | bool | number | string => exact ⟨_, rfl⟩

theorem Within.expands (hleads : ∀ r, (refKey, .string r) ∈ membersWithin root →
    ∃ t, resolve root r = .ok t) (hv : Within root v) :
    ∃ expanded, v.expand root = .ok expanded := by
  induction v using (calls_wellFounded root).induction with
  | _ v ih =>
    rw [expand_eq_level]
    exact level_eq_ok (fun w hw => ih w hw (hv.call hw)) fun r hr => hleads r (hv.members _ hr)

end Descent

/-- Expansion starts at the root with no references and comes to an end on every document, with
distinct references on the stack all the time; it succeeds when every reference of the document
leads to a place in it. -/
theorem reference_expansion_terminates (root : Json) :
    (WellFounded fun w v => Calls root v w) ∧
    expand root = Visit.expand root ⟨[], root⟩ ∧
    (∀ v : Visit, v.expand root = level root (Visit.expand root) v ∧
      ∀ f g, (∀ w, Calls root v w → f w = g w) → level root f v = level root g v) ∧
    (∀ v, Relation.ReflTransGen (Calls root) ⟨[], root⟩ v →
      v.stack.Nodup ∧ ∀ r ∈ v.stack, (refKey, .string r) ∈ membersWithin root) ∧
    (∀ v w, Calls root v w → w.stack = v.stack ∧ sizeOf w.value < sizeOf v.value ∨
      ∃ r ∉ v.stack, w.stack = r :: v.stack) ∧
    ((∀ r, (refKey, .string r) ∈ membersWithin root →
        ∃ pointer target, r.toList = '#' :: pointer ∧ pointer? root pointer = some target) →
      ∃ expanded, expand root = .ok expanded) := by
  refine ⟨calls_wellFounded root, rfl,
    fun v => ⟨expand_eq_level v, fun f g => level_congr⟩, ?_, ?_, ?_⟩
  · intro v hv
    have hwithin := within_of_reach hv
    exact ⟨hwithin.distinct, hwithin.followed⟩
  · intro v w h
    rcases h.inner_or_target with ⟨hstack, hinner⟩ | ⟨members, r, -, -, hnew, hstack, -⟩
    · exact .inl ⟨hstack, hinner.smaller⟩
    · exact .inr ⟨r, hnew, hstack⟩
  · intro h
    refine Within.expands (fun r hr => ?_) (within_start root)
    obtain ⟨pointer, target, hpointer⟩ := h r hr
    exact ⟨target, resolve_eq_ok.2 ⟨pointer, hpointer⟩⟩

theorem exists_pointer_of_isSome {root : Json} {r : String}
    (h : (resolve root r).toOption.isSome = true) :
    ∃ pointer target, r.toList = '#' :: pointer ∧ pointer? root pointer = some target := by
  cases ht : resolve root r with
  | error fault =>
    rw [ht] at h
    cases h
  | ok target =>
    obtain ⟨pointer, hpointer⟩ := resolve_eq_ok.1 ht
    exact ⟨pointer, target, hpointer⟩

def cyclicDocument : Json := .object [
  ("a", .object [("b", .object [("$ref", .string "#/b")])]),
  ("b", .array [.object [("$ref", .string "#/a"), ("all", .object [("$ref", .string "#")])]])]

theorem reference_expansion_terminates_cycle :
    ∃ expanded, expand cyclicDocument = .ok expanded := by
  refine (reference_expansion_terminates cyclicDocument).2.2.2.2.2 fun r hr => ?_
  have hall : ∀ r ∈ references cyclicDocument,
      (resolve cyclicDocument r).toOption.isSome = true := by decide +kernel
  exact exists_pointer_of_isSome (hall r (mem_references.2 hr))

end SwaggerProvider.Swagger.Reference
