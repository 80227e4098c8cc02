import SwaggerProvider.Proofs.Block.Attributes
import SwaggerProvider.Proofs.Lifecycle.Refresh
import SwaggerProvider.Proofs.Payload.Inputs
import SwaggerProvider.Proofs.Payload.RoundTrip

/-!
What a request reads of a state is what the host may set. A request goes down through the fields
that are not read-only, and the host through the attributes that it has to give or may give; under
every way of host names both meet the same names.
-/

set_option autoImplicit false

namespace SwaggerProvider

namespace Block

/-- An attribute that the host has to give or may give. -/
def settable? (b : Block) (name : String) : Option Attribute :=
  (b.attribute? name).filter fun a => a.required || a.optional

/-- A settable attribute inside the blocks of settable attributes. -/
def settableBelow? (name : String) : List String → Block → Option Attribute
  | [], b => b.settable? name
  | host :: hosts, b =>
    ((b.settable? host).bind fun a => a.type.block?).bind (settableBelow? name hosts)

end Block

namespace Payload

open Lifecycle (given)

/-- A name that a request reads in the objects at the end of host names: for some state the payload
of such an object changes with what stands under the name. -/
def Reads (r : Record) (hosts : List String) (name : String) : Prop :=
  ∃ state way target last value, Converts r state hosts way target last ∧
    ofState target (last.insert name value) ≠ ofState target last

inductive Carried : Record → List String → String → Prop
  | own {fields : Record} {f : Field} (mem : f ∈ fields) (writable : f.readOnly = false) :
    Carried fields [] f.hostName
  | inside {fields inner : Record} {hosts : List String} {name : String} {f : Field}
    (mem : f ∈ fields) (writable : f.readOnly = false) (kind : f.kind.fields? = some inner)
    (next : Carried inner hosts name) : Carried fields (f.hostName :: hosts) name

theorem Converts.carried {fields target : Record} {state last : Members} {hosts : List String}
    {way : List Json.Step} {name : String} (h : Converts fields state hosts way target last)
    (hlast : Carried target [] name) : Carried fields hosts name := by
  induction h with
  | here => exact hlast
  | record mem writable kind _ _ ih => exact .inside mem writable (by rw [kind]; rfl) (ih hlast)
  | item mem writable kind _ _ _ ih => exact .inside mem writable (by rw [kind]; rfl) (ih hlast)

theorem carried_of_payload_ne {fields : Record} {state : Members} {name : String} {value : Json}
    (h : payloadOf fields (state.insert name value) ≠ payloadOf fields state) :
    Carried fields [] name := by
  by_contra hnone
  refine h ?_
  rw [payloadOf_eq_gather, payloadOf_eq_gather]
  refine Table.gather_congr _ fun f hf => ?_
  rw [sent?_eq, sent?_eq]
  cases hwritable : f.readOnly with
  | true => rfl
  | false =>
    have hne : f.hostName ≠ name := fun heq => hnone (heq ▸ .own hf hwritable)
    rw [given, given, Table.get?_insert_of_ne _ _ hne]

theorem Carried.reads {fields : Record} {hosts : List String} {name : String}
    (h : Carried fields hosts name) : Reads fields hosts name := by
  induction h with
  | @own fields f mem writable =>
    have hsent : f.name ∈ (payloadOf fields [(f.hostName, .bool true)]).keys :=
      mem_keys_payloadOf.2 ⟨f, mem, writable, rfl, by simp [given, Table.get?, Json.isNull]⟩
    have hempty : f.name ∉ (payloadOf fields []).keys := fun hkey => by
      obtain ⟨g, -, -, -, hgiven⟩ := mem_keys_payloadOf.1 hkey
      cases hgiven
    refine ⟨[], [], fields, [], .bool true, .here fields [], fun heq => hempty ?_⟩
    rwa [show payloadOf fields [] = _ from heq.symm]
  | @inside fields inner hosts name f mem writable kind next ih =>
    obtain ⟨state, way, target, last, value, hconverts, hchanges⟩ := ih
    cases hkind : f.kind with
    | scalar | scalars =>
      rw [hkind] at kind
      cases kind
    | record held =>
      rw [hkind] at kind
      cases kind
      exact ⟨[(f.hostName, .object state)], _, target, last, value,
        .record mem writable hkind (if_pos rfl) hconverts, hchanges⟩
    | records held =>
      rw [hkind] at kind
      cases kind
      exact ⟨[(f.hostName, .array [.object state])], _, target, last, value,
        .item mem writable hkind (if_pos rfl) (List.getElem?_cons_zero) hconverts, hchanges⟩

theorem reads_iff_carried {fields : Record} {hosts : List String} {name : String} :
    Reads fields hosts name ↔ Carried fields hosts name := by
  constructor
  · rintro ⟨state, way, target, last, value, hconverts, hchanges⟩
    exact hconverts.carried (carried_of_payload_ne hchanges)
  · exact Carried.reads

end Payload

namespace Publish

open Payload (Carried)

variable {replaces : Bool} {fields : Record} {parents : List Parent}

theorem settable_fieldAttribute (f : Field) :
    ((fieldAttribute replaces f).required || (fieldAttribute replaces f).optional) =
      !f.readOnly := by
  obtain ⟨traits, kind⟩ := f
  rw [fieldAttribute]
  unfold traitAttribute
  cases traits.readOnly <;> cases traits.required <;> rfl

theorem attribute?_shown (replaces : Bool) {name : String} {a : Attribute}
    (hnames : (fields.map Field.hostName).Nodup) (hparents : ∀ p ∈ parents, name ≠ p.attribute) :
    (shown replaces fields parents).attribute? name = some a ↔
      ∃ f ∈ fields, f.hostName = name ∧ fieldAttribute replaces f = a := by
  have hnone : Table.get? (parents.map fun p => (p.attribute, parentAttribute p)).reverse name =
      none := by
    rw [Table.get?_eq_none_iff]
    simpa [Table.keys] using fun p hp => (hparents p hp).symm
  have hkeys :
      (Table.keys (fields.map fun f => (f.hostName, fieldAttribute replaces f))).Nodup := by
    simpa [Table.keys, Function.comp_def] using hnames
  rw [Block.attribute?, shown_attributes, Table.get?_sorted, List.reverse_append,
    Table.get?_append, hnone, Option.none_or, Table.get?_reverse hkeys,
    Table.get?_eq_some_iff hkeys]
  simp

theorem settable?_shown (replaces : Bool) {name : String} {a : Attribute}
    (hnames : (fields.map Field.hostName).Nodup) (hparents : ∀ p ∈ parents, name ≠ p.attribute) :
    (shown replaces fields parents).settable? name = some a ↔
      ∃ f ∈ fields, f.readOnly = false ∧ f.hostName = name ∧ fieldAttribute replaces f = a := by
  rw [Block.settable?, Option.filter_eq_some_iff, attribute?_shown replaces hnames hparents]
  constructor
  · rintro ⟨⟨f, hf, hname, rfl⟩, hset⟩
    rw [settable_fieldAttribute, Bool.not_eq_true'] at hset
    exact ⟨f, hf, hset, hname, rfl⟩
  · rintro ⟨f, hf, hwritable, hname, rfl⟩
    refine ⟨⟨f, hf, hname, rfl⟩, ?_⟩
    rw [settable_fieldAttribute, hwritable, Bool.not_false]

/-- Where the names differ, settable attributes lead where writable fields lead. -/
theorem carried_iff_settable {hosts : List String} {name : String}
    (hnames : (fields.map Field.hostName).Nodup)
    (hbelow : ∀ f ∈ fields, Record.distinctBelow Field.hostName f = true)
    (hparents : ∀ p ∈ parents, hosts.headD name ≠ p.attribute) :
    Carried fields hosts name ↔
      ((shown replaces fields parents).settableBelow? name hosts).isSome = true := by
  induction hosts generalizing fields parents with
  | nil =>
    rw [List.headD_nil] at hparents
    rw [Block.settableBelow?]
    constructor
    · rintro ⟨mem, writable⟩
      rw [(settable?_shown replaces hnames hparents).2 ⟨_, mem, writable, rfl, rfl⟩]
      rfl
    · intro h
      obtain ⟨a, ha⟩ := Option.isSome_iff_exists.1 h
      obtain ⟨f, hf, hwritable, rfl, -⟩ := (settable?_shown replaces hnames hparents).1 ha
      exact .own hf hwritable
  | cons host hosts ih =>
    rw [List.headD_cons] at hparents
    rw [Block.settableBelow?]
    have hinside {f : Field} (hf : f ∈ fields) {record : Record}
        (hrecord : f.kind.fields? = some record) :
        Carried record hosts name ↔
          ((shown replaces record []).settableBelow? name hosts).isSome = true := by
      have hdistinct := (Record.distinctBelow_iff _ f).1 (hbelow f hf) record hrecord
      obtain ⟨hnames, hbelow⟩ := (Record.distinct_iff _ record).1 hdistinct
      exact ih hnames hbelow (fun p hp => absurd hp List.not_mem_nil)
    constructor
    · rintro (_ | ⟨mem, writable, kind, next⟩)
      rw [(settable?_shown replaces hnames hparents).2 ⟨_, mem, writable, rfl, rfl⟩,
        Option.bind_some, block?_fieldAttribute, kind]
      exact (hinside mem kind).1 next
    · intro h
      obtain ⟨last, h⟩ := Option.isSome_iff_exists.1 h
      obtain ⟨inner, hinner, hlast⟩ := Option.bind_eq_some_iff.1 h
      obtain ⟨a, ha, hinner⟩ := Option.bind_eq_some_iff.1 hinner
      obtain ⟨f, hf, hwritable, rfl, rfl⟩ := (settable?_shown replaces hnames hparents).1 ha
      rw [block?_fieldAttribute] at hinner
      obtain ⟨record, hrecord, rfl⟩ := Option.map_eq_some_iff.1 hinner
      exact .inside hf hwritable hrecord
        ((hinside hf hrecord).2 (Option.isSome_iff_exists.2 ⟨last, hlast⟩))

theorem carried_ownFields {hosts : List String} {name : String}
    (hid : hosts.headD name ≠ Record.idName) :
    Carried (ownFields fields) hosts name ↔ Carried fields hosts name := by
  have hmem {f : Field} (hne : f.hostName ≠ Record.idName) : f ∈ ownFields fields ↔ f ∈ fields := by
    rw [ownFields, List.mem_filter, bne_iff_ne]
    exact and_iff_left hne
  constructor
  · rintro (⟨mem, writable⟩ | ⟨mem, writable, kind, next⟩)
    · exact .own ((hmem hid).1 mem) writable
    · exact .inside ((hmem hid).1 mem) writable kind next
  · rintro (⟨mem, writable⟩ | ⟨mem, writable, kind, next⟩)
    · exact .own ((hmem hid).2 mem) writable
    · exact .inside ((hmem hid).2 mem) writable kind next

end Publish

namespace Payload

open Analysis (NamesApart)
open Lifecycle (given)
open Swagger (Schema)

/-- What is not an input never reaches a request. The payload of every object that is converted has
just the members of its inputs, and states with the same inputs have one payload. Where the names
that a resource shows are apart, a request reads under every way of host names that starts neither
with `id` nor with a parent just what the host may set there. -/
theorem only_inputs_sent :
    (∀ (definitions : Table Schema) (schema : Schema) (r : Record),
      Record.compile definitions schema = .ok r → schema.distinct = true →
        ∀ state hosts way target last, Converts r state hosts way target last →
          ∃ members, (Json.object (ofState r state)).at? way = some (.object members) ∧
            (Table.keys members).Nodup ∧ ∀ key, key ∈ Table.keys members ↔ ∃ f ∈ target,
              f.readOnly = false ∧ f.name = key ∧ (given last f.hostName).isSome = true) ∧
    (∀ (r : Record) (state other : Members), SameInputs r state other →
      ofState r state = ofState r other) ∧
    ∀ r : Resource, NamesApart r → ∀ hosts name, hosts.headD name ≠ Record.idName →
      (∀ p ∈ r.parents, hosts.headD name ≠ p.attribute) →
        (Reads r.record hosts name ↔
          ((Publish.resource r).block.settableBelow? name hosts).isSome = true) := by
  refine ⟨?_, fun r state other h => h.payloadOf_eq, ?_⟩
  · intro definitions schema r hcompiled hdistinct state hosts way target last hconverts
    have hnames := Record.compile_distinct hcompiled hdistinct
    exact ⟨payloadOf target last, hconverts.at?_eq hnames, Table.nodup_keys_ofEntries _,
      fun key => mem_keys_payloadOf⟩
  · intro r hapart hosts name hid hparents
    rw [reads_iff_carried, ← Publish.carried_ownFields hid]
    exact Publish.carried_iff_settable hapart.fields hapart.below hparents

def countedState : Members := [
  ("id", .string "7"),
  ("rules", .array [.object [("port_number", .ofInt 80), ("hit_count", .ofInt 5)], .object []]),
  ("title", .string "edge"),
  ("owner", .string "ops"),
  ("limits", .object [("id", .string "a"), ("max_size", .ofInt 10)])]

theorem only_inputs_sent_listener :
    (∃ members, (Json.object (ofState listenerRecord countedState)).at?
      [.member "rules", .item 0] = some (.object members) ∧
        "portNumber" ∈ Table.keys members ∧ "hitCount" ∉ Table.keys members) ∧
    ofState listenerRecord countedState = ofState listenerRecord listenerState ∧
    Reads listenerRecord ["rules"] "port_number" ∧ ¬Reads listenerRecord ["rules"] "hit_count" := by
  obtain ⟨hmembers, hsame, hreads⟩ := only_inputs_sent
  have hcompiled : Record.compile [] listener = .ok listenerRecord := rfl
  obtain ⟨own, title, limits, rules, port, hits, hrecord, hkind, hnames⟩ :
      ∃ own title limits rules port hits : Field, listenerRecord = [own, title, limits, rules] ∧
        rules.kind = .records [port, hits] ∧
        [own, title, limits, rules, port, hits].map (fun f => (f.name, f.hostName, f.readOnly)) =
          [("id", "id", true), ("displayName", "title", false), ("limits", "limits", false),
            ("rules", "rules", false), ("portNumber", "port_number", false),
            ("hitCount", "hit_count", true)] :=
    ⟨_, _, _, _, _, _, rfl, rfl, by decide +kernel⟩
  simp only [List.map_cons, List.map_nil, List.cons.injEq, Prod.mk.injEq] at hnames
  obtain ⟨⟨-, -, hown⟩, ⟨-, htitle, -⟩, ⟨-, hlimits, -⟩, ⟨hrules, hrulesHost, hrulesInput⟩,
    ⟨hport, hportHost, hportInput⟩, ⟨hhits, -, hhitsRead⟩, -⟩ := hnames
  refine ⟨?_, ?_, ?_⟩
  · have hconverts : Converts listenerRecord countedState [rules.hostName]
        [.member rules.name, .item 0] [port, hits]
        [("port_number", .ofInt 80), ("hit_count", .ofInt 5)] :=
      .item (by simp [hrecord]) hrulesInput hkind (by rw [hrulesHost]; rfl) rfl (.here _ _)
    obtain ⟨members, hat, -, hkeys⟩ :=
      hmembers [] listener _ hcompiled (by decide) _ _ _ _ _ hconverts
    rw [hrules] at hat
    refine ⟨members, hat, (hkeys _).2 ⟨port, by simp, hportInput, hport, ?_⟩, fun hkey => ?_⟩
    · rw [hportHost]
      rfl
    · obtain ⟨f, hf, hinput, hname, -⟩ := (hkeys _).1 hkey
      simp only [List.mem_cons, List.not_mem_nil, or_false] at hf
      rcases hf with rfl | rfl
      · rw [hport] at hname
        exact absurd hname (by decide)
      · rw [hhitsRead] at hinput
        cases hinput
  · refine hsame _ _ _ (.intro fun f hf hinput => ?_)
    simp only [hrecord, List.mem_cons, List.not_mem_nil, or_false] at hf
    rcases hf with rfl | rfl | rfl | rfl
    · rw [hown] at hinput
      cases hinput
    · rw [htitle]
      exact .of_eq rfl
    · rw [hlimits]
      exact .of_eq rfl
    · rw [hrulesHost, hkind]
      refine .some (.records (.object (.intro fun g hg hinput => ?_) (.equal _ (.nil _))))
      simp only [List.mem_cons, List.not_mem_nil, or_false] at hg
      rcases hg with rfl | rfl
      · rw [hportHost]
        exact .of_eq rfl
      · rw [hhitsRead] at hinput
        cases hinput
  · have hapart : NamesApart { Lifecycle.firewall with record := listenerRecord } := by
      decide +kernel
    have hsettable := hreads _ hapart ["rules"]
    constructor
    · exact (hsettable "port_number" (by decide) (by decide +kernel)).2 (by decide +kernel)
    · rw [hsettable "hit_count" (by decide) (by decide +kernel)]
      decide +kernel

end Payload

end SwaggerProvider
