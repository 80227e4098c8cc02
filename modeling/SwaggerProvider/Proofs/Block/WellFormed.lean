import SwaggerProvider.Proofs.Block.Origins
import SwaggerProvider.Proofs.Lifecycle.Refresh
import SwaggerProvider.Proofs.Record.Invariant

/-!
Attributes of a resource, at every depth: each is required, optional or left to the API, and its
marks follow from those of the field that it stems from.
-/

set_option autoImplicit false

namespace SwaggerProvider

open Swagger (Schema)

def Attribute.computedOnly (a : Attribute) : Bool := a.computed && !a.required && !a.optional

def Record.Compiled (definitions : Table Schema) (f : Field) : Prop :=
  ∃ name required schema, Record.compileField definitions name required schema = .ok f

namespace Record.Compiled

variable {definitions : Table Schema}

theorem consistent {f : Field} (h : Compiled definitions f) : Consistent f := by
  obtain ⟨_, _, _, hfield⟩ := h
  exact compileField_consistent hfield

theorem of_compile {schema : Schema} {r : Record} (h : compile definitions schema = .ok r) :
    ∀ f ∈ r, Compiled definitions f := by
  intro f hf
  obtain ⟨e, -, hfield⟩ := exists_property (compile_eq_ok h).1 hf
  exact ⟨_, _, _, hfield⟩

theorem inside {f : Field} {fields : List Field} (h : Compiled definitions f)
    (hfields : f.kind.fields? = some fields) : ∀ g ∈ fields, Compiled definitions g := by
  obtain ⟨_, _, _, hfield⟩ := h
  obtain ⟨source, -, hbuilt⟩ := (compileField_cases hfield).2.2.contents hfields
  intro g hg
  obtain ⟨e, -, hinner⟩ := exists_property hbuilt.fields hg
  exact ⟨_, _, _, hinner⟩

end Record.Compiled

namespace Publish

/-- The marks of an attribute do not contradict each other and are what its origin asks for. -/
structure WellFormed (updatable : Bool) (origin : Origin) (a : Attribute) : Prop where
  one : [a.required, a.optional, a.computedOnly].count true = 1
  required : a.required = true → a.computed = false
  computedOnly : a.computedOnly = true → a.default = none ∧ a.forceNew = false
  optionalComputed : a.optional = true ∧ a.computed = true ↔
    ∃ f, origin = .field f ∧ f.required = false ∧ f.readOnly = false ∧
      (f.computed = true ∨ f.default.isSome = true)
  forceNew : a.required = true ∨ a.optional = true →
    (a.forceNew = true ↔
      (∃ f, origin = .field f ∧ (f.immutable = true ∨ f.forceNew = true)) ∨
        (∃ p, origin = .parent p) ∨ updatable = false)
  requiredBy : a.required = true ↔
    (∃ f, origin = .field f ∧ f.required = true) ∨ ∃ p, origin = .parent p
  computedBy : a.computedOnly = true ↔ ∃ f, origin = .field f ∧ f.readOnly = true

theorem wellFormed_parent (updatable : Bool) (p : Parent) :
    WellFormed updatable (.parent p) (parentAttribute p) where
  one := rfl
  required _ := rfl
  computedOnly h := by cases h
  optionalComputed := by simp [parentAttribute, Attribute.asRequired, Attribute.ofType]
  forceNew _ := iff_of_true rfl (.inr (.inl ⟨p, rfl⟩))
  requiredBy := iff_of_true rfl (.inr ⟨p, rfl⟩)
  computedBy := by simp [parentAttribute, Attribute.computedOnly, Attribute.asRequired]

section

variable (replaces : Bool) (f : Field)

theorem fieldAttribute_eq : fieldAttribute replaces f =
    traitAttribute f.toTraits (kindType replaces f.kind) replaces := by
  cases f
  rw [fieldAttribute]

@[simp] theorem required_fieldAttribute :
    (fieldAttribute replaces f).required = (!f.readOnly && f.required) := by
  rw [fieldAttribute_eq, traitAttribute]
  cases f.readOnly <;> cases f.required <;> rfl

@[simp] theorem optional_fieldAttribute :
    (fieldAttribute replaces f).optional = (!f.readOnly && !f.required) := by
  rw [fieldAttribute_eq, traitAttribute]
  cases f.readOnly <;> cases f.required <;> rfl

@[simp] theorem computed_fieldAttribute : (fieldAttribute replaces f).computed = f.isComputed := by
  rw [fieldAttribute_eq, traitAttribute, Traits.isComputed, Traits.isOptionalComputed]
  cases f.readOnly <;> cases f.required <;> rfl

@[simp] theorem computedOnly_fieldAttribute :
    (fieldAttribute replaces f).computedOnly = f.readOnly := by
  rw [Attribute.computedOnly, computed_fieldAttribute, required_fieldAttribute,
    optional_fieldAttribute, Traits.isComputed, Traits.isOptionalComputed]
  cases f.readOnly <;> cases f.required <;> simp

@[simp] theorem forceNew_fieldAttribute : (fieldAttribute replaces f).forceNew =
    (!f.readOnly && (f.forceNew || f.immutable || replaces)) := by
  rw [fieldAttribute_eq, traitAttribute]
  cases f.readOnly <;> rfl

@[simp] theorem default_fieldAttribute :
    (fieldAttribute replaces f).default = if f.readOnly then none else f.default := by
  rw [fieldAttribute_eq, traitAttribute]
  cases f.readOnly <;> rfl

end

theorem wellFormed_field (updatable : Bool) {f : Field} (h : Record.Consistent f) :
    WellFormed updatable (.field f) (fieldAttribute (!updatable) f) := by
  have hinput : f.required = true → f.readOnly = false := h.required
  have hrequired := required_fieldAttribute (!updatable) f
  have hoptional := optional_fieldAttribute (!updatable) f
  have hcomputed := computed_fieldAttribute (!updatable) f
  have hforceNew := forceNew_fieldAttribute (!updatable) f
  have hdefault := default_fieldAttribute (!updatable) f
  rw [Traits.isComputed, Traits.isOptionalComputed] at hcomputed
  have hcomputedOnly := computedOnly_fieldAttribute (!updatable) f
  constructor
  case one =>
    rw [hrequired, hoptional, hcomputedOnly]
    cases f.readOnly <;> cases f.required <;> rfl
  case required =>
    rw [hrequired, hcomputed]
    cases f.readOnly <;> cases f.required <;> simp
  case computedOnly =>
    rw [hcomputedOnly, hdefault, hforceNew]
    intro hread
    simp [hread]
  case optionalComputed =>
    rw [hoptional, hcomputed]
    cases hread : f.readOnly <;> cases hreq : f.required <;> simp [hread, hreq]
  case forceNew =>
    rw [hrequired, hoptional, hforceNew]
    cases f.readOnly <;> cases updatable <;> simp [or_comm]
  case requiredBy =>
    rw [hrequired]
    cases hreq : f.required with
    | true => simp [hinput hreq, hreq]
    | false => simp [hreq]
  case computedBy =>
    rw [hcomputedOnly]
    simp

theorem displays_resource (r : Resource) :
    Displays (Origin.inResource (!r.isUpdatable)) (origins (ownFields r.record) r.parents)
      (resource r).block :=
  displays_shown (ownFields r.record) r.parents

def Origin.Compiled (definitions : Table Schema) : Origin → Prop
  | .field f => Record.Compiled definitions f
  | .parent _ => True
  | .identifier _ => False

theorem compiled_of_originBelow? {definitions : Table Schema} {fields : Record}
    {parents : List Parent} {hosts : List String} {name : String} {origin : Origin}
    (hfields : ∀ f ∈ fields, Record.Compiled definitions f)
    (h : originBelow? name hosts (origins fields parents) = some origin) :
    origin.Compiled definitions := by
  refine originBelow?_induction ?_ ?_ h
  · intro outer below houter hbelow g hg
    cases outer with
    | field f => exact Record.Compiled.inside houter hbelow g hg
    | parent _ | identifier _ => cases hbelow
  · intro e he
    rcases mem_origins.1 he with ⟨f, hf, rfl⟩ | ⟨p, -, rfl⟩
    · exact hfields f hf
    · trivial

/-- Every attribute of the block of a resource, however deep it lies, is well formed. -/
theorem resource_attributes_well_formed {definitions : Table Schema} {schema : Schema}
    {r : Resource} (h : Record.compile definitions schema = .ok r.record) {hosts : List String}
    {name : String} {a : Attribute} (ha : (resource r).block.Has hosts name a) :
    ∃ origin, originBelow? name hosts (origins (ownFields r.record) r.parents) = some origin ∧
      WellFormed r.isUpdatable origin a := by
  obtain ⟨origin, horigin, ha⟩ := ((displays_resource r).has_iff block?_inResource).1 ha
  rw [ite_self] at ha
  subst ha
  refine ⟨origin, horigin, ?_⟩
  have hcompiled := compiled_of_originBelow?
    (fun f hf => .of_compile h f (List.mem_of_mem_filter hf)) horigin
  cases origin with
  | field f => exact wellFormed_field r.isUpdatable (Record.Compiled.consistent hcompiled)
  | parent p => exact wellFormed_parent r.isUpdatable p
  | identifier _ => cases hcompiled

def walledFirewall : Resource :=
  { Lifecycle.firewall with
    record := (Record.compile [] Record.wallSchema).toOption.getD []
    put := none }

/-- The port of a rule has a default, so the host may leave it out. -/
theorem resource_attributes_well_formed_port :
    ∃ a origin, (resource walledFirewall).block.Has ["rules"] "port" a ∧
      (a.required, a.optional, a.computed, a.forceNew) = (false, true, true, true) ∧
      originBelow? "port" ["rules"]
        (origins (ownFields walledFirewall.record) walledFirewall.parents) = some origin ∧
      WellFormed walledFirewall.isUpdatable origin a := by
  have hcompiled : Record.compile [] Record.wallSchema = .ok walledFirewall.record := rfl
  have hseen : (originBelow? "port" ["rules"]
      (origins (ownFields walledFirewall.record) walledFirewall.parents)).map (fun origin =>
        let a := origin.inResource true
        (a.required, a.optional, a.computed, a.forceNew)) = some (false, true, true, true) := by
    decide +kernel
  obtain ⟨origin, horigin, hmarks⟩ := Option.map_eq_some_iff.1 hseen
  have hhas : (resource walledFirewall).block.Has ["rules"] "port" (origin.inResource true) :=
    ((displays_resource walledFirewall).has_iff block?_inResource).2 ⟨origin, horigin, rfl⟩
  obtain ⟨found, hfound, hwell⟩ := resource_attributes_well_formed hcompiled hhas
  exact ⟨_, found, hhas, hmarks, hfound, hwell⟩

end Publish

end SwaggerProvider
