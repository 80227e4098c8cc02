import SwaggerProvider.Json.Reader
import SwaggerProvider.Proofs.Gather
import SwaggerProvider.Proofs.Json.Same

/-!
Values in which no object has a name twice: how they are built, and that the reader yields no
others.
-/

set_option autoImplicit false

namespace SwaggerProvider.Json

theorem distinct_array_of {items : List Json} (h : ∀ item ∈ items, item.distinct = true) :
    (Json.array items).distinct = true := by
  rw [distinct]
  induction items with
  | nil => rfl
  | cons item rest ih =>
    obtain ⟨hitem, hrest⟩ := List.forall_mem_cons.1 h
    rw [itemsDistinct, hitem, ih hrest]
    rfl

theorem distinct_object_of {members : Members} (hkeys : members.keys.Nodup)
    (h : ∀ name value, members.get? name = some value → value.distinct = true) :
    (Json.object members).distinct = true := by
  rw [distinct, Bool.and_eq_true, decide_eq_true_eq, membersDistinct_iff]
  exact ⟨hkeys, fun e he => h e.1 e.2 ((Table.get?_eq_some_iff hkeys).2 he)⟩

theorem distinct_insert {members : Members} {value : Json}
    (hmembers : (Json.object members).distinct = true) (hvalue : value.distinct = true)
    (name : String) : (Json.object (Table.insert members name value)).distinct = true := by
  obtain ⟨hkeys, hvalues⟩ := distinct_object hmembers
  refine distinct_object_of (Table.nodup_keys_insert hkeys name value) fun key found hfound => ?_
  rw [Table.get?_insert] at hfound
  split at hfound
  · cases hfound
    exact hvalue
  · exact hvalues key found hfound

structure ReadsDistinct (fuel : Nat) : Prop where
  value {depth : Nat} {cs rest : List Char} {a : Json}
    (h : readValue fuel depth cs = some (a, rest)) : a.distinct = true
  items {depth : Nat} {done items : List Json} {cs rest : List Char}
    (hdone : ∀ item ∈ done, item.distinct = true)
    (h : readItems fuel depth done cs = some (items, rest)) : ∀ item ∈ items, item.distinct = true
  members {depth : Nat} {done members : Members} {cs rest : List Char}
    (hdone : (Json.object done).distinct = true)
    (h : readMembers fuel depth done cs = some (members, rest)) :
    (Json.object members).distinct = true

variable {fuel depth : Nat} {cs rest : List Char}

theorem distinct_readWord {word : String} {value a : Json} (hvalue : value.distinct = true)
    (h : readWord word value cs = some (a, rest)) : a.distinct = true := by
  obtain ⟨_, -, heq⟩ := Option.map_eq_some_iff.1 h
  cases heq
  exact hvalue

theorem ReadsDistinct.readValue_succ (ih : ReadsDistinct fuel) {a : Json}
    (h : readValue (fuel + 1) depth cs = some (a, rest)) : a.distinct = true := by
  rw [readValue] at h
  split at h
  case h_1 =>
    obtain ⟨_, -, heq⟩ := Option.map_eq_some_iff.1 h
    cases heq
    rfl
  case h_2 =>
    split at h
    · cases h
    · split at h
      · cases h
        rfl
      · obtain ⟨_, hitems, heq⟩ := Option.map_eq_some_iff.1 h
        cases heq
        exact distinct_array_of (ih.items (List.forall_mem_nil _) hitems)
  case h_3 =>
    split at h
    · cases h
    · split at h
      · cases h
        rfl
      · obtain ⟨_, hmembers, heq⟩ := Option.map_eq_some_iff.1 h
        cases heq
        exact ih.members rfl hmembers
  case h_4 | h_5 | h_6 => exact distinct_readWord rfl h
  case h_7 =>
    obtain ⟨_, -, heq⟩ := Option.map_eq_some_iff.1 h
    cases heq
    rfl

theorem ReadsDistinct.readItems_succ (ih : ReadsDistinct fuel) {done items : List Json}
    (hdone : ∀ item ∈ done, item.distinct = true)
    (h : readItems (fuel + 1) depth done cs = some (items, rest)) :
    ∀ item ∈ items, item.distinct = true := by
  rw [readItems] at h
  split at h
  · cases h
  · next item _ hitem =>
    have hmore : ∀ a ∈ item :: done, a.distinct = true :=
      List.forall_mem_cons.2 ⟨ih.value hitem, hdone⟩
    split at h
    · exact ih.items hmore h
    · cases h
      exact fun item hmem => hmore item (List.mem_reverse.1 hmem)
    · cases h

theorem ReadsDistinct.readMembers_succ (ih : ReadsDistinct fuel) {done members : Members}
    (hdone : (Json.object done).distinct = true)
    (h : readMembers (fuel + 1) depth done cs = some (members, rest)) :
    (Json.object members).distinct = true := by
  rw [readMembers] at h
  split at h
  · split at h
    · cases h
    · next name _ _ =>
      split at h
      · split at h
        · cases h
        · next hvalue =>
          have hmore := distinct_insert hdone (ih.value hvalue) name
          split at h
          · exact ih.members hmore h
          · cases h
            exact hmore
          · cases h
      · cases h
  · cases h

theorem readsDistinct (fuel : Nat) : ReadsDistinct fuel := by
  induction fuel with
  | zero =>
    constructor
    case value => intro _ _ _ _ h; cases h
    case items => intro _ _ _ _ _ _ h; cases h
    case members => intro _ _ _ _ _ _ h; cases h
  | succ fuel ih => exact ⟨ih.readValue_succ, ih.readItems_succ, ih.readMembers_succ⟩

theorem distinct_of_read {text : String} {a : Json} (h : read text = some a) :
    a.distinct = true := by
  unfold read readWithin at h
  dsimp only at h
  split at h
  · next hvalue =>
    split at h
    · cases h
      exact (readsDistinct _).value hvalue
    · cases h
  · cases h

end SwaggerProvider.Json
