import SwaggerProvider.Proofs.Block.WellFormed

/-!
Blocks of data sources. At the outermost level their fields take no input. Deeper down the
attributes are those of a resource, so there a field takes an input unless it is read-only.
-/

set_option autoImplicit false

namespace SwaggerProvider

open Swagger (Schema)

/-- The attribute only shows what the API gives. -/
structure Attribute.IsOutput (a : Attribute) : Prop where
  computed : a.computed = true
  required : a.required = false
  optional : a.optional = false
  forceNew : a.forceNew = false
  default : a.default = none

namespace Publish

variable {entries : Table Origin} {block : Block} {hosts : List String} {name : String}
  {a : Attribute}

theorem readAttribute_isOutput (f : Field) : (readAttribute f).IsOutput :=
  ⟨rfl, rfl, rfl, rfl, rfl⟩

theorem fieldAttribute_isOutput_iff (replaces : Bool) (f : Field) :
    (fieldAttribute replaces f).IsOutput ↔ f.readOnly = true := by
  constructor
  · intro h
    have hrequired := h.required
    have hoptional := h.optional
    cases hread : f.readOnly <;> cases hreq : f.required <;> simp_all
  · intro h
    constructor
    case computed => simp [Traits.isComputed, h]
    case required => simp [h]
    case optional => simp [h]
    case forceNew => simp [h]
    case default => simp [h]

theorem field_of_originBelow? {host : String} {origin : Origin}
    (h : originBelow? name (host :: hosts) entries = some origin) : ∃ f, origin = .field f := by
  obtain ⟨fields, -, hbelow⟩ := Option.bind_eq_some_iff.1 h
  refine originBelow?_induction (P := fun origin => ∃ f, origin = .field f) ?_ ?_ hbelow
  · exact fun _ _ _ _ f _ => ⟨f, rfl⟩
  · intro e he
    rcases mem_origins.1 he with ⟨f, -, rfl⟩ | ⟨p, hp, -⟩
    · exact ⟨f, rfl⟩
    · cases hp

/-- Attributes that stem from fields take no input. -/
def OutputsOnly (entries : Table Origin) (block : Block) : Prop :=
  ∀ hosts name a f, block.Has hosts name a →
    originBelow? name hosts entries = some (.field f) → a.IsOutput

/-- The block reads what the entries give: it has no other blocks inside it than the given ones, and
an attribute is an output where a field of the outermost level or a read-only field is shown. -/
structure Sourced (entries : Table Origin) (blocks : List (String × NestedBlock)) (block : Block) :
    Prop where
  blocks : block.blocks = blocks
  outputs {hosts : List String} {name : String} {a : Attribute} (h : block.Has hosts name a) :
    ∃ origin, originBelow? name hosts entries = some origin ∧
      (a.IsOutput ↔ ∃ f, origin = .field f ∧ (hosts = [] ∨ f.readOnly = true)) ∧
      ((∀ f, origin ≠ .field f) → hosts = [] ∧ a.required = true)
  only : OutputsOnly entries block ↔ ∀ hosts name f,
    originBelow? name hosts entries = some (.field f) → hosts = [] ∨ f.readOnly = true

/-- The attribute of an origin in the block of a data source, by the depth at which it lies. -/
def Origin.below (hosts : List String) (origin : Origin) : Attribute :=
  if hosts = [] then origin.inSource else origin.inResource false

theorem below_field_isOutput_iff (hosts : List String) (f : Field) :
    ((Origin.field f).below hosts).IsOutput ↔ hosts = [] ∨ f.readOnly = true := by
  cases hosts with
  | nil => exact iff_of_true (readAttribute_isOutput f) (.inl rfl)
  | cons host hosts =>
    rw [or_iff_right (List.cons_ne_nil host hosts)]
    exact fieldAttribute_isOutput_iff false f

theorem required_of_not_field {origin : Origin}
    (h : originBelow? name hosts entries = some origin) (hne : ∀ f, origin ≠ .field f) :
    hosts = [] ∧ (origin.below hosts).required = true := by
  cases hosts with
  | nil =>
    cases origin with
    | field f => exact absurd rfl (hne f)
    | parent _ | identifier _ => exact ⟨rfl, rfl⟩
  | cons host hosts =>
    obtain ⟨f, hf⟩ := field_of_originBelow? h
    exact absurd hf (hne f)

theorem below_isOutput_iff {origin : Origin}
    (h : originBelow? name hosts entries = some origin) :
    (origin.below hosts).IsOutput ↔ ∃ f, origin = .field f ∧ (hosts = [] ∨ f.readOnly = true) := by
  constructor
  · intro houtput
    by_contra hnone
    have hne (f : Field) (hf : origin = .field f) : False := by
      subst hf
      exact hnone ⟨f, rfl, (below_field_isOutput_iff hosts f).1 houtput⟩
    have hrequired := (required_of_not_field h hne).2
    rw [houtput.required] at hrequired
    cases hrequired
  · rintro ⟨f, rfl, hf⟩
    exact (below_field_isOutput_iff hosts f).2 hf

theorem Displays.sourced (h : Displays Origin.inSource entries block) :
    Sourced entries block.blocks block := by
  have hhas {hosts : List String} {name : String} {a : Attribute} : block.Has hosts name a ↔
      ∃ origin, originBelow? name hosts entries = some origin ∧ a = origin.below hosts :=
    h.has_iff block?_inSource
  constructor
  case blocks => rfl
  case outputs =>
    intro hosts name a ha
    obtain ⟨origin, horigin, rfl⟩ := hhas.1 ha
    exact ⟨origin, horigin, below_isOutput_iff horigin, required_of_not_field horigin⟩
  case only =>
    constructor
    · intro hall hosts name f horigin
      have houtput := hall hosts name _ f (hhas.2 ⟨_, horigin, rfl⟩) horigin
      exact (below_field_isOutput_iff hosts f).1 houtput
    · intro hall hosts name a f ha horigin
      obtain ⟨origin, hfound, rfl⟩ := hhas.1 ha
      rw [horigin] at hfound
      cases hfound
      exact (below_field_isOutput_iff hosts f).2 (hall hosts name f horigin)

theorem withParents_readBlock (fields : Record) (parents : List Parent) :
    withParents (readBlock fields) parents =
      .ofAttributes ((origins (ownFields fields) parents).map fun e => (e.1, e.2.inSource)) := by
  rw [readBlock, withParents_ofAttributes, origins, List.map_append, List.map_map, List.map_map]
  rfl

def sourceOrigins (d : DataSource) : Table Origin := origins (ownFields d.record) d.parents

/-- The identifier to look for stands before a field or a parent of its name. -/
def instanceOrigins (r : Resource) : Table Origin :=
  origins (ownFields r.record) r.parents ++ [(Record.idName, .identifier r.name)]

theorem dataSource_block (d : DataSource) :
    (dataSource d).block =
      (Block.ofAttributes ((sourceOrigins d).map fun e => (e.1, e.2.inSource))).withBlock
        filterName filterBlock := by
  rw [dataSource, withParents_readBlock]
  rfl

theorem instanceSource_block (r : Resource) :
    (instanceSource r).block =
      .ofAttributes ((instanceOrigins r).map fun e => (e.1, e.2.inSource)) := by
  rw [instanceSource, withParents_readBlock, withAttribute_ofAttributes, instanceOrigins,
    List.map_append]
  rfl

theorem displays_dataSource (d : DataSource) :
    Displays Origin.inSource (sourceOrigins d) (dataSource d).block := by
  rw [dataSource_block]
  rfl

theorem displays_instanceSource (r : Resource) :
    Displays Origin.inSource (instanceOrigins r) (instanceSource r).block := by
  rw [instanceSource_block]
  rfl

/-- Data sources take no input from fields at the outermost level, where filters, parents and the
identifier are given, and from a field inside a field exactly when it is not read-only. -/
theorem sources_output_only_iff (d : DataSource) (r : Resource) :
    Sourced (sourceOrigins d) [(filterName, filterBlock)] (dataSource d).block ∧
      Sourced (instanceOrigins r) [] (instanceSource r).block := by
  have hd := (displays_dataSource d).sourced
  have hr := (displays_instanceSource r).sourced
  have hfilter : (dataSource d).block.blocks = [(filterName, filterBlock)] := by
    rw [dataSource_block]
    rfl
  have hnone : (instanceSource r).block.blocks = [] := by
    rw [instanceSource_block]
    rfl
  rw [hfilter] at hd
  rw [hnone] at hr
  exact ⟨hd, hr⟩

def gateSchema : Schema := { Schema.empty with
  properties := [("limits", { Schema.empty with
    required := ["size"]
    properties := [("size", { Schema.empty with type := some "integer" }),
      ("unit", { Schema.empty with
        type := some "string"
        default := some (.string "cm")
        extensions := [(Record.forceNewKey, .bool true)] })] })] }

def gateSource : DataSource where
  name := "gates"
  path := "/gates"
  record := (Record.compile [] gateSchema).toOption.getD []
  get := .empty
  host := .global
  parents := []

/-- Who reads gates is asked for the size. -/
theorem sources_output_only_iff_gate :
    Record.compile [] gateSchema = .ok gateSource.record ∧
    (∃ a, (dataSource gateSource).block.Has ["limits"] "size" a ∧
      (a.required, a.computed) = (true, false)) ∧
    (∃ a, (dataSource gateSource).block.Has ["limits"] "unit" a ∧
      (a.optional, a.forceNew, a.default) = (true, true, some (.string "cm"))) ∧
    ¬OutputsOnly (sourceOrigins gateSource) (dataSource gateSource).block := by
  have hsize : (originBelow? "size" ["limits"] (sourceOrigins gateSource)).map (fun origin =>
      let a := origin.below ["limits"]
      (a.required, a.computed)) = some (true, false) := by decide +kernel
  have hunit : (originBelow? "unit" ["limits"] (sourceOrigins gateSource)).map (fun origin =>
      let a := origin.below ["limits"]
      (a.optional, a.forceNew, a.default)) = some (true, true, some (.string "cm")) := by
    decide +kernel
  obtain ⟨size, hsize, hsizeMarks⟩ := Option.map_eq_some_iff.1 hsize
  obtain ⟨unit, hunit, hunitMarks⟩ := Option.map_eq_some_iff.1 hunit
  have hhas {name : String} {origin : Origin}
      (h : originBelow? name ["limits"] (sourceOrigins gateSource) = some origin) :
      (dataSource gateSource).block.Has ["limits"] name (origin.below ["limits"]) :=
    ((displays_dataSource gateSource).has_iff block?_inSource).2 ⟨origin, h, rfl⟩
  refine ⟨rfl, ⟨_, hhas hsize, hsizeMarks⟩, ⟨_, hhas hunit, hunitMarks⟩, fun hall => ?_⟩
  obtain ⟨f, rfl⟩ := field_of_originBelow? hsize
  have hrequired := (hall _ _ _ f (hhas hsize) hsize).required
  rw [(Prod.mk.inj hsizeMarks).1] at hrequired
  cases hrequired

end Publish

end SwaggerProvider
