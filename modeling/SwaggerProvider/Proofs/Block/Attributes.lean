import SwaggerProvider.Block.Publish
import SwaggerProvider.Proofs.Analysis.Ancestry
import SwaggerProvider.Proofs.Record.Names
import SwaggerProvider.Proofs.Table.Sorted

/-!
Attributes of a published block. Each field has an attribute of its own exactly where the host names
of the fields and of the parents differ; of those that share a name only the last is published.
-/

set_option autoImplicit false

namespace SwaggerProvider

open Swagger (Document Schema)

/-- The block in which a value of the type is written. -/
def AttributeType.block? : AttributeType → Option Block
  | .object block | .list (.object block) => some block
  | _ => none

namespace Publish

variable {replaces : Bool}

theorem fieldAttributes_eq_map (fields : List Field) :
    fieldAttributes replaces fields =
      fields.map fun f => (f.hostName, fieldAttribute replaces f) := by
  induction fields with
  | nil => rfl
  | cons f rest ih => rw [fieldAttributes, ih, List.map_cons]

theorem traitAttribute_type (t : Traits) (type : AttributeType) :
    (traitAttribute t type replaces).type = type := by
  unfold traitAttribute
  cases t.readOnly <;> cases t.required <;> rfl

@[simp] theorem block?_fieldAttribute (f : Field) :
    (fieldAttribute replaces f).type.block? =
      f.kind.fields?.map fun record => .ofAttributes (fieldAttributes replaces record) := by
  obtain ⟨traits, kind⟩ := f
  rw [fieldAttribute, traitAttribute_type]
  cases kind with
  | scalar type => cases type <;> rfl
  | scalars type => cases type <;> rfl
  | record fields => rfl
  | records fields => rfl

theorem withAttribute_ofAttributes (attributes : List (String × Attribute)) (name : String)
    (a : Attribute) :
    (Block.ofAttributes attributes).withAttribute name a =
      .ofAttributes (attributes ++ [(name, a)]) := by
  simp [Block.ofAttributes, Block.withAttribute, Table.sorted]

theorem withParents_ofAttributes (attributes : List (String × Attribute)) (parents : List Parent) :
    withParents (.ofAttributes attributes) parents =
      .ofAttributes (attributes ++ parents.map fun p => (p.attribute, parentAttribute p)) := by
  induction parents generalizing attributes with
  | nil => rw [List.map_nil, List.append_nil, withParents, List.foldl_nil]
  | cons p rest ih =>
    have hrest := ih (attributes ++ [(p.attribute, parentAttribute p)])
    rw [← withAttribute_ofAttributes, List.append_assoc] at hrest
    exact hrest

/-- The block has an attribute of its own for each field and each parent, and so has each block
inside it for the fields there. -/
inductive Shows (replaces : Bool) : Record → List Parent → Block → Prop
  | intro {fields : Record} {parents : List Parent} {block : Block} (inner : Field → Block)
      (names : (Table.keys block.attributes).Nodup)
      (count : block.attributes.length = fields.length + parents.length)
      (field : ∀ f ∈ fields, block.attribute? f.hostName = some (fieldAttribute replaces f))
      (parent : ∀ p ∈ parents, block.attribute? p.attribute = some (parentAttribute p))
      (below : ∀ f ∈ fields, ∀ record, f.kind.fields? = some record →
        (fieldAttribute replaces f).type.block? = some (inner f))
      (inside : ∀ f ∈ fields, ∀ record, f.kind.fields? = some record →
        Shows replaces record [] (inner f)) :
      Shows replaces fields parents block

def shown (replaces : Bool) (fields : Record) (parents : List Parent) : Block :=
  withParents (.ofAttributes (fieldAttributes replaces fields)) parents

def hostNames (fields : Record) (parents : List Parent) : List String :=
  fields.map Field.hostName ++ parents.map Parent.attribute

theorem shown_attributes (replaces : Bool) (fields : Record) (parents : List Parent) :
    (shown replaces fields parents).attributes =
      Table.sorted (fields.map (fun f => (f.hostName, fieldAttribute replaces f)) ++
        parents.map fun p => (p.attribute, parentAttribute p)) := by
  rw [shown, withParents_ofAttributes, fieldAttributes_eq_map]
  rfl

/-- One level of a block: no attribute is lost where the names differ. -/
theorem shows_iff_of_inside (fields : Record) (parents : List Parent) :
    Shows replaces fields parents (shown replaces fields parents) ↔
      (hostNames fields parents).Nodup ∧
        ∀ f ∈ fields, ∀ record, f.kind.fields? = some record →
          Shows replaces record [] (shown replaces record []) := by
  have hattributes := shown_attributes replaces fields parents
  generalize hentries : (fields.map (fun f => (f.hostName, fieldAttribute replaces f)) ++
    parents.map fun p => (p.attribute, parentAttribute p)) = entries at hattributes
  have hlength : entries.length = fields.length + parents.length := by simp [← hentries]
  have hkeys : Table.keys entries = hostNames fields parents := by
    simp [← hentries, Table.keys, hostNames, Function.comp_def]
  constructor
  · rintro ⟨inner, -, count, -, -, below, inside⟩
    rw [hattributes, ← hlength, Table.length_sorted_eq_iff, hkeys] at count
    refine ⟨count, fun f hf record hrecord => ?_⟩
    have hinner := below f hf record hrecord
    rw [block?_fieldAttribute, hrecord] at hinner
    have hshows := inside f hf record hrecord
    rw [← Option.some.inj hinner] at hshows
    exact hshows
  · rintro ⟨hnodup, hinside⟩
    rw [← hkeys] at hnodup
    have hfound (e : String × Attribute) (he : e ∈ entries) :
        (shown replaces fields parents).attribute? e.1 = some e.2 := by
      rw [Block.attribute?, hattributes]
      exact Table.get?_sorted_of_mem hnodup he
    refine .intro (fun f => shown replaces (f.kind.fields?.getD []) []) ?_ ?_ ?_ ?_ ?_ ?_
    · rw [hattributes]
      exact Table.nodup_keys_sorted entries
    · rw [hattributes, ← hlength]
      exact (Table.length_sorted_eq_iff entries).2 hnodup
    · intro f hf
      refine hfound (f.hostName, fieldAttribute replaces f) ?_
      rw [← hentries]
      exact List.mem_append_left _ (List.mem_map_of_mem hf)
    · intro p hp
      refine hfound (p.attribute, parentAttribute p) ?_
      rw [← hentries]
      exact List.mem_append_right _ (List.mem_map_of_mem hp)
    · intro f _ record hrecord
      rw [block?_fieldAttribute, hrecord]
      rfl
    · intro f hf record hrecord
      rw [hrecord]
      exact hinside f hf record hrecord

theorem shows_iff_distinctBelow (f : Field) :
    (∀ record, f.kind.fields? = some record → Shows replaces record [] (shown replaces record [])) ↔
      Record.distinctBelow Field.hostName f = true := by
  have hinside (fields : List Field)
      (ih : ∀ f ∈ fields, (∀ record, f.kind.fields? = some record →
        Shows replaces record [] (shown replaces record [])) ↔
          Record.distinctBelow Field.hostName f = true) :
      Shows replaces fields [] (shown replaces fields []) ↔
        Record.distinct Field.hostName fields = true := by
    rw [shows_iff_of_inside, Record.distinct_iff, hostNames, List.map_nil, List.append_nil]
    exact and_congr_right fun _ => forall₂_congr ih
  induction f using Field.induction with
  | scalar traits type => simp [Kind.fields?]
  | scalars traits type => simp [Kind.fields?]
  | record traits fields ih => simpa [Kind.fields?] using hinside fields ih
  | records traits fields ih =>
    simpa [Kind.fields?] using hinside fields ih

theorem shows_iff (fields : Record) (parents : List Parent) :
    Shows replaces fields parents (shown replaces fields parents) ↔
      (hostNames fields parents).Nodup ∧
        ∀ f ∈ fields, Record.distinctBelow Field.hostName f = true := by
  rw [shows_iff_of_inside]
  exact and_congr_right fun _ => forall₂_congr fun f _ => shows_iff_distinctBelow f

end Publish

namespace Analysis

open Publish (Shows shown ownFields)

/-- The names that a resource shows at its own level and below differ. -/
structure NamesApart (r : Resource) : Prop where
  fields : ((ownFields r.record).map Field.hostName).Nodup
  parents : ∀ f ∈ ownFields r.record, ∀ p ∈ r.parents, f.hostName ≠ p.attribute
  below : ∀ f ∈ ownFields r.record, Record.distinctBelow Field.hostName f = true

instance (r : Resource) : Decidable (NamesApart r) :=
  decidable_of_iff (((ownFields r.record).map Field.hostName).Nodup ∧
      (∀ f ∈ ownFields r.record, ∀ p ∈ r.parents, f.hostName ≠ p.attribute) ∧
      ∀ f ∈ ownFields r.record, Record.distinctBelow Field.hostName f = true)
    ⟨fun ⟨hfields, hparents, hbelow⟩ => ⟨hfields, hparents, hbelow⟩,
      fun ⟨hfields, hparents, hbelow⟩ => ⟨hfields, hparents, hbelow⟩⟩

theorem hostNames_nodup_iff {fields : Record} {parents : List Parent}
    (h : (parents.map Parent.attribute).Nodup) :
    (Publish.hostNames fields parents).Nodup ↔ (fields.map Field.hostName).Nodup ∧
      ∀ f ∈ fields, ∀ p ∈ parents, f.hostName ≠ p.attribute := by
  simp [Publish.hostNames, List.nodup_append, h]

/-- The block of a resource has an attribute of its own for each field but `id`, for each parent
and, inside, for each field of a record, exactly where their names are apart. -/
theorem fields_shown_iff_names_apart {document : Document} {url : String} {a : Analysis}
    (h : analyse document url = .ok a) :
    ∀ r ∈ a.resources,
      Shows (!r.isUpdatable) (ownFields r.record) r.parents (Publish.resource r).block ↔
        NamesApart r := by
  intro r hr
  obtain ⟨item, c, -, hdrafted⟩ := exists_drafted h hr
  obtain ⟨names, hparents⟩ := hdrafted.parents
  have hblock : (Publish.resource r).block =
      shown (!r.isUpdatable) (ownFields r.record) r.parents := rfl
  rw [hblock, Publish.shows_iff, hostNames_nodup_iff (parentsOf_attributes_nodup hparents)]
  constructor
  · rintro ⟨⟨hfields, hapart⟩, hbelow⟩
    exact ⟨hfields, hapart, hbelow⟩
  · rintro ⟨hfields, hapart, hbelow⟩
    exact ⟨⟨hfields, hapart⟩, hbelow⟩

theorem fields_shown_iff_names_apart_walls :
    ∃ a r, analyse wallDocument "" = .ok a ∧ r ∈ a.resources ∧ r.name = "cdns_v1_walls" ∧
      (Publish.resource r).block.attributes.map Prod.fst = ["cdns_v1_id", "label", "state"] ∧
      Shows (!r.isUpdatable) (ownFields r.record) r.parents (Publish.resource r).block := by
  have hseen : (analyse wallDocument "").toOption.map (fun a => a.resources.map fun r =>
      (r.name, (Publish.resource r).block.attributes.map Prod.fst, decide (NamesApart r))) =
      some [("cdns_v1", ["label", "state"], true),
        ("cdns_v1_walls", ["cdns_v1_id", "label", "state"], true)] := by decide +kernel
  obtain ⟨a, r, hr, h, hview⟩ := exists_resource hseen (List.mem_cons_of_mem _ List.mem_cons_self)
  simp only [Prod.mk.injEq, decide_eq_true_eq] at hview
  obtain ⟨hname, hattributes, hapart⟩ := hview
  exact ⟨a, r, h, hr, hname, hattributes, (fields_shown_iff_names_apart h r hr).2 hapart⟩

def addressSchema : Schema := { Schema.empty with
  type := some "object"
  required := ["ipAddress"]
  properties := [("id", { wallText with readOnly := true }), ("ipAddress", wallText),
    ("ip_address", { wallText with type := some "integer", readOnly := true })] }

def addressDocument : Document := { Document.empty with
  host := some "api.example.com"
  schemes := ["https"]
  paths := [
    ("/servers", wallItem (some { Swagger.Operation.empty with
      parameters := [⟨"body", "body", true, some addressSchema, []⟩]
      responses := [("201", ⟨"", some addressSchema, []⟩)] }) none),
    ("/servers/{id}", wallItem none (some { Swagger.Operation.empty with
      responses := [("200", ⟨"", some addressSchema, []⟩)] }))] }

/-- The host is not shown the address, which it has to give. -/
theorem fields_shown_iff_names_apart_address :
    ∃ a r, analyse addressDocument "" = .ok a ∧ r ∈ a.resources ∧
      ((ownFields r.record).map fun f => (f.name, f.required)) =
        [("ipAddress", true), ("ip_address", false)] ∧
      ((Publish.resource r).block.attributes.map fun e => (e.1, e.2.required, e.2.computed)) =
        [("ip_address", false, true)] ∧
      ¬Shows (!r.isUpdatable) (ownFields r.record) r.parents (Publish.resource r).block := by
  have hseen : (analyse addressDocument "").toOption.map (fun a => a.resources.map fun r =>
      ((ownFields r.record).map fun f => (f.name, f.required),
        (Publish.resource r).block.attributes.map fun e => (e.1, e.2.required, e.2.computed))) =
      some [([("ipAddress", true), ("ip_address", false)], [("ip_address", false, true)])] := by
    decide +kernel
  obtain ⟨a, r, hr, h, hview⟩ := exists_resource hseen List.mem_cons_self
  obtain ⟨hfields, hattributes⟩ := Prod.mk.inj hview
  refine ⟨a, r, h, hr, hfields, hattributes, ?_⟩
  rintro ⟨inner, -, hcount, -⟩
  have htwo : (ownFields r.record).length = 2 := by
    simpa using congrArg List.length hfields
  have hone : (Publish.resource r).block.attributes.length = 1 := by
    simpa using congrArg List.length hattributes
  omega

end Analysis

end SwaggerProvider
