import SwaggerProvider.Error
import SwaggerProvider.Json.Basic

/-!
References inside a document. An object with a text member `$ref` stands for the value its pointer
leads to; other members beside the reference are laid over that value. A reference that is met
while it is being followed stays as it is, so every document expands in finitely many steps.
-/

set_option autoImplicit false

namespace SwaggerProvider.Swagger.Reference

def refKey : String := "$ref"

/-- The tokens of a pointer: `~1` stands for a slash and `~0` for a tilde. -/
def unescape : List Char → List Char
  | '~' :: '1' :: rest => '/' :: unescape rest
  | '~' :: '0' :: rest => '~' :: unescape rest
  | c :: rest => c :: unescape rest
  | [] => []

def index? (token : List Char) : Option Nat :=
  if token.head? == some '+' || (token.head? == some '0' && token.length != 1) then none
  else Text.unsigned? (Nat.pow 2 64 - 1) token

def follow : List (List Char) → Json → Option Json
  | [], value => some value
  | token :: rest, .object members =>
    (Table.get? members (String.ofList token)).bind (follow rest)
  | token :: rest, .array items => ((index? token).bind fun i => items[i]?).bind (follow rest)
  | _ :: _, _ => none

def pointer? (root : Json) (pointer : List Char) : Option Json :=
  match pointer with
  | [] => some root
  | '/' :: rest => follow ((Text.pieces '/' rest).map unescape) root
  | _ => none

def resolve (root : Json) (reference : String) : Except LoadFault Json :=
  match reference.toList with
  | '#' :: pointer =>
    match pointer? root pointer with
    | some target => .ok target
    | none => .error (.missingTarget reference)
  | _ => .error (.remoteReference reference)

def reference? (members : Members) : Option String :=
  (Table.get? members refKey).bind Json.string?

mutual

/-- The members of all objects inside a value, outermost first. -/
def membersWithin : Json → List (String × Json)
  | .object members => members ++ membersBelow members
  | .array items => membersOfItems items
  | _ => []

def membersOfItems : List Json → List (String × Json)
  | [] => []
  | item :: rest => membersWithin item ++ membersOfItems rest

def membersBelow : List (String × Json) → List (String × Json)
  | [] => []
  | (_, value) :: rest => membersWithin value ++ membersBelow rest

end

def references (value : Json) : List String :=
  (membersWithin value).filterMap fun e => if e.1 = refKey then e.2.string? else none

theorem mem_references {value : Json} {r : String} :
    r ∈ references value ↔ (refKey, .string r) ∈ membersWithin value := by
  constructor
  · intro h
    obtain ⟨⟨name, held⟩, he, h⟩ := List.mem_filterMap.1 h
    dsimp only at h
    split at h
    · next hname =>
      cases held with
      | string s =>
        cases h
        exact hname ▸ he
      | null | bool | number | array | object => cases h
    · cases h
  · intro h
    exact List.mem_filterMap.2 ⟨_, h, by simp [Json.string?]⟩

theorem mem_membersOfItems {items : List Json} {item : Json} (h : item ∈ items) :
    ∀ e ∈ membersWithin item, e ∈ membersOfItems items := by
  intro e he
  induction items with
  | nil => cases h
  | cons first rest ih =>
    rw [membersOfItems, List.mem_append]
    rcases List.mem_cons.1 h with rfl | h
    · exact .inl he
    · exact .inr (ih h)

theorem mem_membersBelow {members : List (String × Json)} {name : String} {value : Json}
    (h : (name, value) ∈ members) : ∀ e ∈ membersWithin value, e ∈ membersBelow members := by
  intro e he
  induction members with
  | nil => cases h
  | cons first rest ih =>
    rw [membersBelow, List.mem_append]
    rcases List.mem_cons.1 h with rfl | h
    · exact .inl he
    · exact .inr (ih h)

theorem mem_membersWithin {members : List (String × Json)} :
    ∀ e ∈ membersBelow members, e ∈ membersWithin (.object members) :=
  fun _ he => List.mem_append_right _ he

theorem reference?_mem {members : Members} {r : String} (h : reference? members = some r) :
    (refKey, .string r) ∈ members := by
  obtain ⟨held, hget, h⟩ := Option.bind_eq_some_iff.1 h
  cases held with
  | string s =>
    cases h
    exact Table.mem_of_get? hget
  | null | bool | number | array | object => cases h

theorem membersWithin_follow {path : List (List Char)} {value target : Json}
    (h : follow path value = some target) :
    ∀ e ∈ membersWithin target, e ∈ membersWithin value := by
  induction path generalizing value with
  | nil =>
    cases h
    exact fun e he => he
  | cons token path ih =>
    intro e he
    cases value with
    | object members =>
      obtain ⟨member, hmember, h⟩ := Option.bind_eq_some_iff.1 h
      exact mem_membersWithin e (mem_membersBelow (Table.mem_of_get? hmember) e (ih h e he))
    | array items =>
      obtain ⟨item, hitem, h⟩ := Option.bind_eq_some_iff.1 h
      obtain ⟨i, -, hitem⟩ := Option.bind_eq_some_iff.1 hitem
      exact mem_membersOfItems (List.mem_of_getElem? hitem) e (ih h e he)
    | null | bool | number | string => cases h

theorem resolve_eq_ok {root target : Json} {reference : String} :
    resolve root reference = .ok target ↔
      ∃ pointer, reference.toList = '#' :: pointer ∧ pointer? root pointer = some target := by
  unfold resolve
  split
  · next pointer hlist =>
    cases hp : pointer? root pointer with
    | none => simp [hlist, hp]
    | some found => simp [hlist, hp]
  · next hlist =>
    constructor
    · intro h
      cases h
    · rintro ⟨pointer, hpointer, -⟩
      exact absurd hpointer (hlist pointer)

theorem membersWithin_resolve {root target : Json} {reference : String}
    (h : resolve root reference = .ok target) :
    ∀ e ∈ membersWithin target, e ∈ membersWithin root := by
  obtain ⟨pointer, -, hp⟩ := resolve_eq_ok.1 h
  unfold pointer? at hp
  split at hp
  · cases hp
    exact fun e he => he
  · exact membersWithin_follow hp
  · cases hp

/-- How many references can still be followed, and one more for what does not lie in the
document. -/
def rank (root : Json) (stack : List String) (within : List (String × Json)) : Nat :=
  ((references root).filter fun r => r ∉ stack).length +
    if ∀ e ∈ within, e ∈ membersWithin root then 0 else 1

theorem rank_mono {root : Json} {stack : List String} {within more : List (String × Json)}
    (h : ∀ e ∈ within, e ∈ more) : rank root stack within ≤ rank root stack more := by
  unfold rank
  by_cases hm : ∀ e ∈ more, e ∈ membersWithin root
  · have hall : ∀ e ∈ within, e ∈ membersWithin root := fun e he => hm e (h e he)
    exact Nat.le_of_eq (by rw [if_pos hm, if_pos hall])
  · rw [if_neg hm]
    split <;> omega

theorem rank_push_lt {root target : Json} {stack : List String} {members : Members}
    {reference : String} (hr : reference? members = some reference) (hs : reference ∉ stack)
    (ht : resolve root reference = .ok target) :
    rank root (reference :: stack) (membersWithin target) <
      rank root stack (membersWithin (.object members)) := by
  have hin := membersWithin_resolve ht
  have hpush : (references root).filter (fun r => r ∉ reference :: stack) =
      ((references root).filter fun r => r ∉ stack).filter fun r => r ≠ reference := by
    rw [List.filter_filter]
    congr 1
    funext r
    simp [not_or]
  unfold rank
  rw [if_pos hin, hpush]
  by_cases hm : ∀ e ∈ membersWithin (.object members), e ∈ membersWithin root
  · have hroot : reference ∈ references root :=
      mem_references.2 (hm _ (List.mem_append_left _ (reference?_mem hr)))
    have hfree : reference ∈ (references root).filter fun r => r ∉ stack := by simp [hroot, hs]
    rw [if_pos hm]
    exact List.length_filter_lt_length_iff_exists.2 ⟨reference, hfree, by simp⟩
  · have hle := List.length_filter_le (fun r => r ≠ reference)
      ((references root).filter fun r => r ∉ stack)
    rw [if_neg hm]
    omega

theorem inwards {root : Json} {stack : List String} {within more : List (String × Json)}
    {size larger : Nat} (h : ∀ e ∈ within, e ∈ more) (hsize : size < larger) :
    Prod.Lex (· < ·) (· < ·) (rank root stack within, size) (rank root stack more, larger) := by
  rcases Nat.lt_or_eq_of_le (rank_mono h) with hlt | heq
  · exact Prod.Lex.left _ _ hlt
  · rw [heq]
    exact Prod.Lex.right _ hsize

mutual

/-- Expands a value. The stack holds the references that are being followed. -/
def expandValue (root : Json) (stack : List String) (value : Json) : Except LoadFault Json :=
  match value with
  | .object members =>
    match hr : reference? members with
    | some reference =>
      if hs : reference ∈ stack then .ok (.object members)
      else match ht : resolve root reference with
        | .error fault => .error fault
        | .ok target =>
          have := rank_push_lt hr hs ht
          match expandValue root (reference :: stack) target with
          | .error fault => .error fault
          | .ok (.object expanded) => (overlay root stack expanded members).map .object
          | .ok expanded => .ok expanded
    | none => (expandMembers root stack members).map .object
  | .array items => (expandItems root stack items).map .array
  | other => .ok other
termination_by (rank root stack (membersWithin value), sizeOf value)
decreasing_by
  · exact Prod.Lex.left _ _ this
  · exact inwards mem_membersWithin (by simp +arith)
  · exact inwards mem_membersWithin (by simp +arith)
  · exact inwards (fun _ he => he) (by simp +arith)

def expandItems (root : Json) (stack : List String) (items : List Json) :
    Except LoadFault (List Json) :=
  match items with
  | [] => .ok []
  | item :: rest =>
    match expandValue root stack item with
    | .error fault => .error fault
    | .ok expanded => (expandItems root stack rest).map (expanded :: ·)
termination_by (rank root stack (membersOfItems items), sizeOf items)
decreasing_by
  · exact inwards (fun _ he => List.mem_append_left _ he) (by simp +arith)
  · exact inwards (fun _ he => List.mem_append_right _ he) (by simp +arith)

def expandMembers (root : Json) (stack : List String) (members : List (String × Json)) :
    Except LoadFault (List (String × Json)) :=
  match members with
  | [] => .ok []
  | (name, value) :: rest =>
    match expandValue root stack value with
    | .error fault => .error fault
    | .ok expanded => (expandMembers root stack rest).map ((name, expanded) :: ·)
termination_by (rank root stack (membersBelow members), sizeOf members)
decreasing_by
  · exact inwards (fun _ he => List.mem_append_left _ he) (by simp +arith)
  · exact inwards (fun _ he => List.mem_append_right _ he) (by simp +arith)

/-- Lays the members beside a reference over the members of its expanded target. -/
def overlay (root : Json) (stack : List String) (target : List (String × Json))
    (members : List (String × Json)) : Except LoadFault (List (String × Json)) :=
  match members with
  | [] => .ok target
  | (name, value) :: rest =>
    if name = refKey then overlay root stack target rest
    else match expandValue root stack value with
      | .error fault => .error fault
      | .ok expanded => overlay root stack (Table.insert target name expanded) rest
termination_by (rank root stack (membersBelow members), sizeOf members)
decreasing_by
  · exact inwards (fun _ he => List.mem_append_right _ he) (by simp +arith)
  · exact inwards (fun _ he => List.mem_append_left _ he) (by simp +arith)
  · exact inwards (fun _ he => List.mem_append_right _ he) (by simp +arith)

end

def expand (root : Json) : Except LoadFault Json := expandValue root [] root

end SwaggerProvider.Swagger.Reference
