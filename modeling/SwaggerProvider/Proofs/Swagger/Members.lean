import SwaggerProvider.Proofs.Outcome
import SwaggerProvider.Swagger.Decode
import SwaggerProvider.Swagger.Encode

/-!
Nodes, member by member. A node that was read has in each of its fields what the first member of
that name was read as, and in its extensions the members whose names it does not know, as they were
written. What is read back of a node that was written is the node.
-/

set_option autoImplicit false

namespace SwaggerProvider.Swagger

open Decode

variable {α β : Type} {member : String → Json → α → Option α} {empty node : α} {members : Members}

/-- The member of a name is read into a field, and no other member changes that field. -/
structure Field (member : String → Json → α → Option α) (name : String) (read : Json → Option β)
    (field : α → β) : Prop where
  read : ∀ {value m n}, member name value m = some n → read value = some (field n)
  other : ∀ {other value m n}, member other value m = some n → other ≠ name → field n = field m

/-- Members of these names leave the extensions alone, and any other member goes into them. -/
structure Keeps (member : String → Json → α → Option α) (names : List String)
    (extensions : α → Members) : Prop where
  named : ∀ {name value m n}, member name value m = some n → name ∈ names →
    extensions n = extensions m
  unnamed : ∀ {name value m}, name ∉ names →
    ∃ n, member name value m = some n ∧ extensions n = (name, value) :: extensions m

theorem node?_cons_eq_some {name : String} {value : Json}
    (h : node? member empty (.object ((name, value) :: members)) = some node) :
    ∃ rest, node? member empty (.object members) = some rest ∧
      member name value rest = some node :=
  Option.bind_eq_some_iff.1 h

theorem node?_eq_some {value : Json} (h : node? member empty value = some node) :
    ∃ members, value = .object members := by
  cases value with
  | object members => exact ⟨members, rfl⟩
  | _ => cases h

theorem Field.eq {name : String} {read : Json → Option β} {field : α → β} {absent : β}
    (hf : Field member name read field) (hempty : field empty = absent)
    (h : node? member empty (.object members) = some node) :
    (Table.get? members name).elim (some absent) read = some (field node) := by
  induction members generalizing node with
  | nil =>
    cases h
    exact congrArg some hempty.symm
  | cons e rest ih =>
    obtain ⟨later, hlater, hmember⟩ := node?_cons_eq_some h
    by_cases he : e.1 = name
    · rw [Table.get?, if_pos he]
      exact hf.read (he ▸ hmember)
    · rw [Table.get?, if_neg he, hf.other hmember he]
      exact ih hlater

theorem Keeps.eq {names : List String} {extensions : α → Members}
    (hk : Keeps member names extensions) (hempty : extensions empty = [])
    (h : node? member empty (.object members) = some node) :
    extensions node = members.filter fun e => e.1 ∉ names := by
  induction members generalizing node with
  | nil =>
    cases h
    exact hempty
  | cons e rest ih =>
    obtain ⟨later, hlater, hmember⟩ := node?_cons_eq_some h
    by_cases he : e.1 ∈ names
    · rw [List.filter_cons_of_neg (by simpa using he), hk.named hmember he, ih hlater]
    · obtain ⟨after, hafter, hextensions⟩ := hk.unnamed he
      obtain rfl := Option.some.inj (hafter.symm.trans hmember)
      rw [List.filter_cons_of_pos (by simpa using he), hextensions, ih hlater]

theorem Keeps.not_mem {names : List String} {extensions : α → Members}
    (hk : Keeps member names extensions) (hempty : extensions empty = [])
    (h : node? member empty (.object members) = some node) :
    ∀ e ∈ extensions node, e.1 ∉ names := by
  intro e he
  rw [hk.eq hempty h] at he
  simpa using (List.mem_filter.1 he).2

/-- The members take one node to another, last member first. -/
def Fills (member : String → Json → α → Option α) (members : Members) (before after : α) : Prop :=
  members.foldr (fun e node => node.bind (member e.1 e.2)) (some before) = some after

namespace Fills

variable {a b c : α} {name : String}

theorem node? (h : Fills member members empty node) :
    Decode.node? member empty (.object members) = some node := h

theorem nil : Fills member [] a a := rfl

theorem append {first last : Members} (hfirst : Fills member first b c)
    (hlast : Fills member last a b) : Fills member (first ++ last) a c := by
  unfold Fills
  rw [List.foldr_append, hlast]
  exact hfirst

theorem one {value : Json} (h : member name value a = some b) :
    Fills member [(name, value)] a b := h

theorem cons {value : Json} {rest : Members} (hrest : Fills member rest a b)
    (h : member name value b = some c) : Fills member ((name, value) :: rest) a c :=
  (one h).append hrest

theorem all (f : Members → α) (hnone : f [] = a) (hall : f members = b)
    (h : ∀ e ∈ members, ∀ rest, member e.1 e.2 (f rest) = some (f (e :: rest))) :
    Fills member members a b := by
  subst hnone hall
  induction members with
  | nil => exact nil
  | cons e rest ih =>
    exact cons (ih fun e he => h e (List.mem_cons_of_mem _ he)) (h e List.mem_cons_self rest)

end Fills

def Lossless (read : Json → Option α) (write : α → Json) : Prop :=
  ∀ {value a}, read value = some a → read (write a) = some a

variable {read : Json → Option α} {write : α → Json}

theorem optional_of_ne_null {value : Json} (h : value ≠ .null) :
    Decode.optional read value = (read value).map some := by
  unfold Decode.optional
  split
  · next hnull => exact absurd rfl h
  · rfl

theorem read_optional {a : α} (hnull : write a ≠ .null) (h : read (write a) = some a) :
    Decode.optional read (write a) = some (some a) := by
  rw [optional_of_ne_null hnull, h, Option.map_some]

theorem read_list {list : List α} (h : ∀ a ∈ list, read (write a) = some a) :
    list? read (.array (list.map write)) = some list := by
  unfold list?
  induction list with
  | nil => rfl
  | cons a rest ih =>
    simp [all, h a List.mem_cons_self, ih fun b hb => h b (List.mem_cons_of_mem a hb)]

theorem read_table {t : Table α} (h : ∀ e ∈ t, read (write e.2) = some e.2) :
    table? read (Encode.table write t) = some t := by
  unfold table? Encode.table
  induction t with
  | nil => rfl
  | cons e rest ih =>
    simp [entries, h e List.mem_cons_self, ih fun f hf => h f (List.mem_cons_of_mem e hf)]

theorem read_texts (texts : List String) : list? text? (Encode.texts texts) = some texts :=
  read_list fun _ _ => rfl

theorem read_requirements (requirements : List Requirement) :
    requirements? (Encode.requirements requirements) = some requirements :=
  read_list fun _ _ => read_table fun e _ => read_texts e.2

theorem read_optional_requirements (requirements : List Requirement) :
    Decode.optional requirements? (Encode.requirements requirements) = some (some requirements) :=
  read_optional Json.noConfusion (read_requirements requirements)

/-! What stands in a list or a table was read from what stands in the same place of the value. -/

inductive Stands (read : Json → Option α) : Option Json → Option α → Prop where
  | absent : Stands read none none
  | null : Stands read (some .null) none
  | read {value : Json} {a : α} (h : read value = some a) : Stands read (some value) (some a)

theorem Stands.of_some {value : Option Json} {a : α} (h : Stands read value (some a)) :
    ∃ v, value = some v ∧ read v = some a := by
  cases h with
  | read h => exact ⟨_, rfl, h⟩

theorem forall₂_of_all {items : List Json} {list : List α} (h : all read items = some list) :
    List.Forall₂ (fun item a => read item = some a) items list := by
  induction items generalizing list with
  | nil =>
    cases h
    exact .nil
  | cons item rest ih =>
    simp only [all, Option.bind_eq_bind, Option.bind_eq_some_iff] at h
    obtain ⟨a, ha, as, has, hlist⟩ := h
    cases hlist
    exact .cons ha (ih has)

theorem forall₂_of_entries {members : Members} {t : Table α} (h : entries read members = some t) :
    List.Forall₂ (fun e f => e.1 = f.1 ∧ read e.2 = some f.2) members t := by
  induction members generalizing t with
  | nil =>
    cases h
    exact .nil
  | cons e rest ih =>
    simp only [entries, Option.bind_eq_bind, Option.bind_eq_some_iff] at h
    obtain ⟨a, ha, as, has, ht⟩ := h
    cases ht
    exact .cons ⟨rfl, ha⟩ (ih has)

theorem keys_eq {members : Members} {t : Table α}
    (h : List.Forall₂ (fun e f => e.1 = f.1 ∧ read e.2 = some f.2) members t) :
    Table.keys t = Table.keys members := by
  induction h with
  | nil => rfl
  | cons hfirst _ ih =>
    simp only [Table.keys, List.map_cons] at ih ⊢
    rw [ih, hfirst.1]

theorem stands_item {items : List Json} {list : List α}
    (h : List.Forall₂ (fun item a => read item = some a) items list) (i : Nat) :
    Stands read items[i]? list[i]? := by
  induction h generalizing i with
  | nil => exact .absent
  | cons ha _ ih =>
    cases i with
    | zero => exact .read ha
    | succ i => exact ih i

theorem stands_entry {members : Members} {t : Table α}
    (h : List.Forall₂ (fun e f => e.1 = f.1 ∧ read e.2 = some f.2) members t) (name : String) :
    Stands read (Table.get? members name) (Table.get? t name) := by
  induction h with
  | nil => exact .absent
  | @cons e f _ _ ha _ ih =>
    rw [Table.get?, Table.get?, ha.1]
    split
    · exact .read ha.2
    · exact ih

theorem optional_eq_some {value : Json} {a : α}
    (h : Decode.optional read value = some (some a)) : value ≠ .null ∧ read value = some a := by
  unfold Decode.optional at h
  split at h
  · cases h
  · next hnull =>
    obtain ⟨b, hb, hba⟩ := Option.map_eq_some_iff.1 h
    cases hba
    exact ⟨hnull, hb⟩

theorem stands_optional {value : Option Json} {a : Option α}
    (h : value.elim (some none) (Decode.optional read) = some a) : Stands read value a := by
  cases value with
  | none =>
    cases h
    exact .absent
  | some value =>
    simp only [Option.elim_some, Decode.optional] at h
    split at h
    · cases h
      exact .null
    · obtain ⟨b, hb, rfl⟩ := Option.map_eq_some_iff.1 h
      exact .read hb

theorem forall₂_of_list {value : Option Json} {list : List α}
    (h : value.elim (some []) (list? read) = some list) :
    List.Forall₂ (fun item a => read item = some a) ((value.bind Json.items?).getD []) list := by
  cases value with
  | none =>
    cases h
    exact .nil
  | some value =>
    cases value with
    | array items => exact forall₂_of_all h
    | _ => cases h

theorem forall₂_of_table {value : Option Json} {t : Table α}
    (h : value.elim (some []) (table? read) = some t) :
    List.Forall₂ (fun e f => e.1 = f.1 ∧ read e.2 = some f.2)
      ((value.bind Json.members?).getD []) t := by
  cases value with
  | none =>
    cases h
    exact .nil
  | some value =>
    cases value with
    | object members => exact forall₂_of_entries h
    | _ => cases h

namespace Field

variable {name : String}

theorem read_optional {field : α → Option β} {read : Json → Option β} {write : β → Json}
    (hf : Field member name (Decode.optional read) field) (hempty : field empty = none)
    (h : node? member empty (.object members) = some node) (hnull : ∀ b, write b ≠ .null)
    (hb : ∀ b, field node = some b → ∀ {value}, read value = some b → read (write b) = some b) :
    ∀ b, field node = some b → Decode.optional read (write b) = some (some b) := by
  intro b hfield
  have hstands := stands_optional (hf.eq hempty h)
  rw [hfield] at hstands
  obtain ⟨value, -, hvalue⟩ := hstands.of_some
  exact Swagger.read_optional (hnull b) (hb b hfield hvalue)

theorem read_list {field : α → List β} {read : Json → Option β} {write : β → Json}
    (hf : Field member name (list? read) field) (hempty : field empty = [])
    (h : node? member empty (.object members) = some node)
    (hb : ∀ b ∈ field node, ∀ {value}, read value = some b → read (write b) = some b) :
    list? read (.array ((field node).map write)) = some (field node) := by
  have hlist := forall₂_of_list (hf.eq hempty h)
  refine Swagger.read_list fun b hmem => ?_
  obtain ⟨value, -, hvalue⟩ := List.exists_of_mem_forall₂ hlist hmem
  exact hb b hmem hvalue

theorem read_table {field : α → Table β} {read : Json → Option β} {write : β → Json}
    (hf : Field member name (table? read) field) (hempty : field empty = [])
    (h : node? member empty (.object members) = some node)
    (hb : ∀ e ∈ field node, ∀ {value}, read value = some e.2 → read (write e.2) = some e.2) :
    table? read (Encode.table write (field node)) = some (field node) := by
  have htable := forall₂_of_table (hf.eq hempty h)
  refine Swagger.read_table fun e hmem => ?_
  obtain ⟨f, -, -, hvalue⟩ := List.exists_of_mem_forall₂ htable hmem
  exact hb e hmem hvalue

end Field

end SwaggerProvider.Swagger
