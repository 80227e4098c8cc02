import SwaggerProvider.Proofs.Record.Invariant

/-!
Which schemas compile. A way names the properties, from the outermost one on, inside which an object
lies: the property itself or its items. A schema compiles when no object on any way breaks a rule,
and a refusal names the property that breaks one, by the way to it.
-/

set_option autoImplicit false

namespace SwaggerProvider.Record

open Swagger (Schema)

def supportedTypes : List String := ["string", "integer", "number", "boolean", "array", "object"]

/-- The type is one of those that fields can have, if there is a type. -/
def IsSupported (type : Option String) : Prop := ∀ t, type = some t → t ∈ supportedTypes

/-- The flags of a property do not contradict each other. A default of null is none. -/
structure FlagsAgree (required : Bool) (p : Schema) : Prop where
  required : required = true → p.readOnly = false
  computed : p.extensions.flag computedKey = true →
    p.readOnly = false ∧ (p.default = none ∨ p.default = some .null)
  status : p.extensions.flag statusKey = true → p.readOnly = true

/-- What describes a property, be it the property itself or its items, can be told from its type. -/
structure Describes (p : Schema) : Prop where
  reference : p.reference = none
  type : IsSupported p.type

/-- What is asked of a property itself, whatever lies inside it. -/
structure Allowed (required : Bool) (p : Schema) : Prop where
  own : Describes p
  items : p.type = some "array" →
    ∃ items, p.items = some items ∧ Describes items ∧ items.type ≠ some "array"
  flags : FlagsAgree required p

def markedNames (schema : Schema) : List String :=
  (schema.properties.filter fun e => e.2.extensions.flag identifierKey).map Prod.fst

/-- What is asked of an object, whatever lies inside its properties. -/
structure Sound (schema : Schema) : Prop where
  properties : ∀ e ∈ schema.properties, Allowed (schema.required.contains e.1) e.2
  marked : (markedNames schema).length ≤ 1

def Inside? (p inner : Schema) : Prop := contents? p = some inner ∧ inner.isObject = true

/-- A way through properties leads from a schema to an object. -/
inductive Leads : Schema → List String → Schema → Prop where
  | here (schema : Schema) : Leads schema [] schema
  | inside {schema p inner last : Schema} {name : String} {way : List String}
    (property : (name, p) ∈ schema.properties) (object : Inside? p inner)
    (rest : Leads inner way last) : Leads schema (name :: way) last

/-- What in an object breaks a rule, and by which name it is known there. -/
inductive Breaks (schema : Schema) : String → Prop where
  | property {name : String} {p : Schema} (property : (name, p) ∈ schema.properties)
    (wrong : ¬Allowed (schema.required.contains name) p) : Breaks schema name
  | marks (several : 1 < (markedNames schema).length) :
    Breaks schema (", ".intercalate (markedNames schema))

/-- The name that a refusal has for a property, from the way to it: the names with dots between
them, without those at the end that are empty. -/
def propertyName : List String → String
  | [] => ""
  | name :: way =>
    if (propertyName way).isEmpty then name else s!"{name}.{propertyName way}"

/-- The error names what breaks a rule, by the way to it. -/
def Refuses (schema : Schema) (e : Error) : Prop :=
  ∃ way last own fault, Leads schema way last ∧ Breaks last own ∧
    e = .invalidProperty (propertyName (way ++ [own])) fault

def inside (parent : String) : Error → Error
  | .invalidProperty property fault =>
    .invalidProperty (if property.isEmpty then parent else s!"{parent}.{property}") fault
  | other => other

theorem within_error {α : Type} (parent : String) (e : Error) :
    within parent (.error e : Except Error α) = .error (inside parent e) := by
  cases e <;> rfl

theorem Refuses.inside {schema p inner : Schema} {name : String} {e : Error}
    (h : Refuses inner e) (hp : (name, p) ∈ schema.properties) (hinner : Inside? p inner) :
    Refuses schema (inside name e) := by
  obtain ⟨way, last, own, fault, hleads, hbreaks, rfl⟩ := h
  exact ⟨name :: way, last, own, fault, .inside hp hinner hleads, hbreaks, rfl⟩

variable {definitions : Table Schema} {name : String} {required : Bool} {p : Schema}

theorem compileObject_eq (definitions : Table Schema) (schema : Schema) :
    compileObject definitions schema =
      (compileFields definitions schema.required schema.properties).bind checkMarks := by
  obtain ⟨_, _, _, properties, _, required, _, _, _⟩ := schema
  rw [compileObject]

theorem checkReference_eq (definitions : Table Schema) (name : String) (reference : Option String) :
    (reference = none ∧ checkReference definitions name reference = .ok ()) ∨
      (reference ≠ none ∧ ∃ fault,
        checkReference definitions name reference = .error (.invalidProperty name fault)) := by
  cases reference with
  | none => exact .inl ⟨rfl, rfl⟩
  | some reference => exact .inr ⟨Option.some_ne_none _, _, rfl⟩

theorem isSupported_iff : IsSupported p.type ↔ ∃ s, shapeOf p = .ok s := by
  unfold IsSupported shapeOf shape
  split <;> simp_all [supportedTypes]

theorem shapeOf_eq_object : shapeOf p = .ok .object ↔ p.isObject = true := by
  unfold shapeOf shape Schema.isObject Schema.isType
  split <;> simp_all

theorem inside?_iff_of_list (h : shapeOf p = .ok .list) {inner : Schema} :
    Inside? p inner ↔ p.items = some inner ∧ inner.isObject = true := by
  simp [Inside?, contents?, Schema.isType, shapeOf_eq_list.1 h]

theorem inside?_self (h : shapeOf p = .ok .object) : Inside? p p := by
  have htype : p.type ≠ some "array" := by
    rw [Ne, ← shapeOf_eq_list, h]
    simp
  exact ⟨by simp [contents?, Schema.isType, htype], shapeOf_eq_object.1 h⟩

theorem not_inside?_of_scalar {type : Scalar} (h : shapeOf p = .ok (.scalar type))
    {inner : Schema} : ¬Inside? p inner := by
  rintro ⟨hinner, hobject⟩
  have htype : p.type ≠ some "array" := by
    rw [Ne, ← shapeOf_eq_list, h]
    simp
  simp only [contents?, Schema.isType, beq_iff_eq, htype, if_false, Option.some.injEq] at hinner
  subst hinner
  rw [shapeOf_eq_object.2 hobject] at h
  cases h

theorem checkTraits_declared (name : String) :
    checkTraits (declared name required p.readOnly p.default p.description p.extensions) = .ok () ↔
      FlagsAgree required p := by
  have hdefault : p.default.filter (fun value => !value.isNull) = none ↔
      p.default = none ∨ p.default = some .null := by
    cases p.default with
    | none => simp
    | some value => cases value <;> simp [Json.isNull]
  constructor
  · intro h
    obtain ⟨hrequired, hcomputed, hstatus⟩ := checkTraits_eq_ok h
    exact ⟨hrequired, fun hc => (hcomputed hc).imp_right hdefault.1, hstatus⟩
  · rintro ⟨hrequired, hcomputed, hstatus⟩
    have hsome (hc : p.extensions.flag computedKey = true) :
        (p.default.filter fun value => !value.isNull).isSome = false := by
      rw [hdefault.2 (hcomputed hc).2]
      rfl
    unfold checkTraits declared
    dsimp only
    rw [if_neg (by simpa using hrequired), if_neg (by simpa using fun hc => (hcomputed hc).1),
      if_neg (by simpa using hsome), if_neg (by simpa using hstatus)]

theorem finish_cases (name : String) (required : Bool) (p : Schema) (kind : Kind Field) :
    let field := finish
      (declared name required p.readOnly p.default p.description p.extensions) kind
    (FlagsAgree required p ∧ ∃ f, field = .ok f) ∨
      (¬FlagsAgree required p ∧ ∃ fault, field = .error (.invalidProperty name fault)) := by
  rw [← checkTraits_declared name]
  unfold finish
  cases checkTraits (declared name required p.readOnly p.default p.description p.extensions) with
  | ok _ => exact .inl ⟨rfl, _, rfl⟩
  | error fault => exact .inr ⟨by simp, fault, rfl⟩

inductive Settles {α : Type} (definitions : Table Schema) (name : String) (well : Prop)
    (inner : Schema → Prop) : Except Error α → Prop where
  | ok (a : α) (own : well) (deep : ∀ s, inner s → ∃ r, compileObject definitions s = .ok r) :
    Settles definitions name well inner (.ok a)
  | refused (fault : PropertyFault) (wrong : ¬well) :
    Settles definitions name well inner (.error (.invalidProperty name fault))
  | failed {s : Schema} {e : Error} (has : inner s)
    (failure : compileObject definitions s = .error e) :
    Settles definitions name well inner (.error (inside name e))

theorem compileItems_eq (definitions : Table Schema) (name : String) (items : Schema) :
    compileItems definitions name items =
      (checkReference definitions name items.reference).bind fun _ =>
        (atProperty name (shapeOf items)).bind fun
          | .scalar type => .ok (.scalars type)
          | .list => .error (.invalidProperty name .listOfLists)
          | .object => (within name (compileObject definitions items)).map .records := by
  rw [compileObject_eq]
  obtain ⟨_, type, _, properties, _, required, _, _, _⟩ := items
  rw [compileItems]
  rfl

def kindOf (definitions : Table Schema) (name : String) (p : Schema) :
    Shape → Except Error (Kind Field)
  | .scalar type => .ok (.scalar type)
  | .object => (within name (compileObject definitions p)).map .record
  | .list =>
    match p.items with
    | none => .error (.invalidProperty name .noItems)
    | some items => compileItems definitions name items

theorem compileField_eq (definitions : Table Schema) (name : String) (required : Bool)
    (p : Schema) :
    compileField definitions name required p =
      (checkReference definitions name p.reference).bind fun _ =>
        (atProperty name (shapeOf p)).bind fun shape =>
          (kindOf definitions name p shape).bind
            (finish (declared name required p.readOnly p.default p.description p.extensions)) := by
  unfold kindOf
  rw [compileObject_eq]
  obtain ⟨_, type, _, properties, items, _, _, _, _⟩ := p
  rw [compileField]
  refine congrArg (Except.bind _) (funext fun _ => congrArg (Except.bind _) (funext fun s => ?_))
  cases s with
  | list => cases items <;> rfl
  | _ => rfl

theorem describes_iff {items : Schema} :
    Describes items ↔ items.reference = none ∧ ∃ s, shapeOf items = .ok s := by
  rw [← isSupported_iff]
  exact ⟨fun h => ⟨h.reference, h.type⟩, fun h => ⟨h.1, h.2⟩⟩

theorem compileItems_settles (definitions : Table Schema) (name : String) (items : Schema) :
    Settles definitions name (Describes items ∧ items.type ≠ some "array")
      (fun s => s = items ∧ items.isObject = true) (compileItems definitions name items) := by
  rw [compileItems_eq, Ne, ← shapeOf_eq_list, ← shapeOf_eq_object, describes_iff]
  rcases checkReference_eq definitions name items.reference with
    ⟨href, hcheck⟩ | ⟨href, fault, hcheck⟩
  · rw [hcheck]
    cases shapeOf items with
    | error fault => exact .refused fault (by simp)
    | ok shape =>
      cases shape with
      | scalar type => exact .ok (Kind.scalars type) (by simp [href]) (by simp)
      | list => exact .refused .listOfLists (by simp)
      | object =>
        cases hobject : compileObject definitions items with
        | error e =>
          rw [within_error]
          exact .failed ⟨rfl, rfl⟩ hobject
        | ok r => exact .ok (Kind.records r) (by simp [href]) (by simp [hobject])
  · rw [hcheck]
    exact .refused fault (by simp [href])

def ItemsAllowed (p : Schema) : Prop :=
  p.type = some "array" →
    ∃ items, p.items = some items ∧ Describes items ∧ items.type ≠ some "array"

theorem kindOf_settles (definitions : Table Schema) (name : String) {shape : Shape}
    (h : shapeOf p = .ok shape) :
    Settles definitions name (ItemsAllowed p) (Inside? p) (kindOf definitions name p shape) := by
  unfold ItemsAllowed
  rw [← shapeOf_eq_list, h]
  cases shape with
  | scalar type =>
    exact .ok (Kind.scalar type) (by simp) fun s hs => absurd hs (not_inside?_of_scalar h)
  | object =>
    unfold kindOf
    cases hobject : compileObject definitions p with
    | error e =>
      rw [within_error]
      exact .failed (inside?_self h) hobject
    | ok r =>
      refine .ok (Kind.record r) (by simp) fun s hs => ?_
      have htype : p.type ≠ some "array" := by
        rw [Ne, ← shapeOf_eq_list, h]
        simp
      have hself : p = s := by simpa [contents?, Schema.isType, htype] using hs.1
      exact ⟨r, hself ▸ hobject⟩
  | list =>
    unfold kindOf
    cases hitems : p.items with
    | none => exact .refused .noItems (by simp)
    | some items =>
      have hinside {s : Schema} : Inside? p s ↔ s = items ∧ items.isObject = true := by
        rw [inside?_iff_of_list h, hitems, Option.some.injEq]
        exact ⟨fun ⟨hs, ho⟩ => ⟨hs.symm, hs ▸ ho⟩, fun ⟨hs, ho⟩ => ⟨hs.symm, hs ▸ ho⟩⟩
      have hsettles := compileItems_settles definitions name items
      dsimp only
      generalize compileItems definitions name items = x at hsettles
      cases hsettles with
      | ok kind own deep => exact .ok kind (by simpa using own) fun s hs => deep s (hinside.1 hs)
      | refused fault wrong => exact .refused fault (by simpa using wrong)
      | failed has failure => exact .failed (hinside.2 has) failure

theorem compileField_settles (definitions : Table Schema) (name : String) (required : Bool)
    (p : Schema) :
    Settles definitions name (Allowed required p) (Inside? p)
      (compileField definitions name required p) := by
  rw [compileField_eq]
  rcases checkReference_eq definitions name p.reference with
    ⟨href, hcheck⟩ | ⟨href, fault, hcheck⟩
  · rw [hcheck]
    cases hshape : shapeOf p with
    | error fault =>
      refine .refused fault fun h => ?_
      obtain ⟨s, hs⟩ := isSupported_iff.1 h.own.type
      rw [hshape] at hs
      cases hs
    | ok shape =>
      have own : Describes p := describes_iff.2 ⟨href, shape, hshape⟩
      change Settles definitions name _ _ ((kindOf definitions name p shape).bind _)
      have hkind := kindOf_settles definitions name hshape
      generalize kindOf definitions name p shape = x at hkind
      cases hkind with
      | refused fault wrong => exact .refused fault fun h => wrong h.items
      | failed has failure => exact .failed has failure
      | ok kind items deep =>
        rcases finish_cases name required p kind with ⟨hflags, f, hf⟩ | ⟨hflags, fault, hf⟩
        · rw [Except.bind, hf]
          exact .ok f ⟨own, items, hflags⟩ deep
        · rw [Except.bind, hf]
          exact .refused fault fun h => hflags h.flags
  · rw [hcheck]
    exact .refused fault fun h => href h.own.reference

/-- The fields of an object compile, or the first property that does not fails. -/
theorem compileFields_cases (definitions : Table Schema) (required : List String)
    (properties : List (String × Schema)) :
    (∃ fields, compileFields definitions required properties = .ok fields ∧ ∀ e ∈ properties,
        ∃ f, compileField definitions e.1 (required.contains e.1) e.2 = .ok f) ∨
      ∃ e ∈ properties, ∃ error,
        compileField definitions e.1 (required.contains e.1) e.2 = .error error ∧
        compileFields definitions required properties = .error error := by
  induction properties with
  | nil => exact .inl ⟨[], by rw [compileFields], fun e he => absurd he List.not_mem_nil⟩
  | cons e rest ih =>
    obtain ⟨name, p⟩ := e
    rw [compileFields]
    cases hfield : compileField definitions name (required.contains name) p with
    | error error => exact .inr ⟨(name, p), List.mem_cons_self, error, hfield, rfl⟩
    | ok field =>
      rcases ih with ⟨fields, hfields, heach⟩ | ⟨e, he, error, hfailed, hfields⟩
      · rw [hfields]
        exact .inl ⟨field :: fields, rfl, List.forall_mem_cons.2 ⟨⟨field, hfield⟩, heach⟩⟩
      · rw [hfields]
        exact .inr ⟨e, List.mem_cons_of_mem _ he, error, hfailed, rfl⟩

theorem compileField_identifier {f : Field}
    (h : compileField definitions name required p = .ok f) :
    f.identifier = p.extensions.flag identifierKey := by
  obtain ⟨kind, rfl, -⟩ := compileField_eq_ok h
  rfl

theorem compileFields_marked {required : List String} {properties : List (String × Schema)}
    {fields : List Field} (h : compileFields definitions required properties = .ok fields) :
    (fields.filter fun f => f.identifier).map (fun f => f.name) =
      (properties.filter fun e => e.2.extensions.flag identifierKey).map Prod.fst := by
  have hall := compileFields_eq_ok h
  clear h
  induction hall with
  | nil => rfl
  | @cons e f properties fields hfirst _ ih =>
    rw [List.filter_cons, List.filter_cons, compileField_identifier hfirst]
    split
    · rw [List.map_cons, List.map_cons, compileField_name hfirst, ih]
    · exact ih

theorem checkMarks_cases {schema : Schema} {fields : Record}
    (h : compileFields definitions schema.required schema.properties = .ok fields) :
    ((markedNames schema).length ≤ 1 ∧ checkMarks fields = .ok fields) ∨
      (1 < (markedNames schema).length ∧ checkMarks fields =
        .error (.invalidProperty (", ".intercalate (markedNames schema)) .severalIdentifiers)) := by
  unfold checkMarks
  rw [compileFields_marked h]
  by_cases hseveral : 1 < (markedNames schema).length
  · exact .inr ⟨hseveral, if_pos hseveral⟩
  · exact .inl ⟨Nat.le_of_not_lt hseveral, if_neg hseveral⟩

def Decided (definitions : Table Schema) (schema : Schema) : Prop :=
  ((∃ r, compileObject definitions schema = .ok r) ∧
      ∀ way last, Leads schema way last → Sound last) ∨
    ∃ e, compileObject definitions schema = .error e ∧ Refuses schema e

theorem decided_of_inside {schema : Schema}
    (ih : ∀ e ∈ schema.properties, ∀ inner, Inside? e.2 inner → Decided definitions inner) :
    Decided definitions schema := by
  unfold Decided
  rw [compileObject_eq]
  rcases compileFields_cases definitions schema.required schema.properties with
    ⟨fields, hfields, heach⟩ | ⟨e, he, error, hfield, hfields⟩
  · have hwell : ∀ e ∈ schema.properties, Allowed (schema.required.contains e.1) e.2 ∧
        ∀ inner, Inside? e.2 inner → ∃ r, compileObject definitions inner = .ok r := by
      intro e he
      obtain ⟨f, hf⟩ := heach e he
      have hsettles := compileField_settles definitions e.1 (schema.required.contains e.1) e.2
      rw [hf] at hsettles
      cases hsettles with
      | ok f own deep => exact ⟨own, deep⟩
    rw [hfields]
    rcases checkMarks_cases hfields with ⟨hfew, hmarks⟩ | ⟨hseveral, hmarks⟩
    · refine .inl ⟨⟨fields, hmarks⟩, fun way last hleads => ?_⟩
      cases hleads with
      | here => exact ⟨fun e he => (hwell e he).1, hfew⟩
      | @inside _ p inner _ name way property object rest =>
        obtain ⟨r, hr⟩ := (hwell _ property).2 inner object
        rcases ih _ property inner object with ⟨-, hdeep⟩ | ⟨e, he, -⟩
        · exact hdeep way last rest
        · rw [hr] at he
          cases he
    · exact .inr ⟨_, hmarks, [], schema, _, _, .here schema, .marks hseveral, rfl⟩
  · have hsettles := compileField_settles definitions e.1 (schema.required.contains e.1) e.2
    rw [hfields]
    refine .inr ⟨error, rfl, ?_⟩
    rw [hfield] at hsettles
    cases hsettles with
    | refused fault wrong => exact ⟨[], schema, e.1, fault, .here schema, .property he wrong, rfl⟩
    | @failed inner error has failure =>
      rcases ih e he inner has with ⟨⟨r, hr⟩, -⟩ | ⟨other, hother, hrefuses⟩
      · rw [hr] at failure
        cases failure
      · rw [hother] at failure
        cases failure
        exact hrefuses.inside he has

theorem decided_below (definitions : Table Schema) (schema : Schema) :
    Decided definitions schema ∧
      ∀ items, schema.items = some items → Decided definitions items := by
  induction schema using Schema.induction with
  | step schema ihProperties ihItems =>
    refine ⟨decided_of_inside fun e he inner hinner => ?_,
      fun items hitems => (ihItems items hitems).1⟩
    obtain ⟨hself, hitems⟩ := ihProperties e he
    have hcontents := hinner.1
    unfold contents? at hcontents
    split at hcontents
    · exact hitems inner hcontents
    · cases hcontents
      exact hself

theorem compileObject_decided (definitions : Table Schema) (schema : Schema) :
    Decided definitions schema :=
  (decided_below definitions schema).1

theorem compile_of_reference (definitions : Table Schema) {schema : Schema}
    (h : schema.reference ≠ none) :
    ∃ fault, compile definitions schema = .error (.invalidProperty "" fault) := by
  rcases checkReference_eq definitions "" schema.reference with ⟨hnone, -⟩ | ⟨-, fault, hcheck⟩
  · exact absurd hnone h
  · unfold compile
    rw [hcheck]
    exact ⟨fault, rfl⟩

theorem compile_of_resolved {schema : Schema} (h : schema.reference = none) :
    compile definitions schema = compileObject definitions schema := by
  unfold compile
  rw [h]
  rfl

theorem Refuses.not_sound {schema : Schema} {e : Error} (h : Refuses schema e) :
    ∃ way last, Leads schema way last ∧ ¬Sound last := by
  obtain ⟨way, last, own, fault, hleads, hbreaks, -⟩ := h
  refine ⟨way, last, hleads, fun hsound => ?_⟩
  cases hbreaks with
  | property property wrong => exact wrong (hsound.properties _ property)
  | marks several => exact absurd hsound.marked (Nat.not_le_of_lt several)

theorem compile_eq_ok_iff {schema : Schema} :
    (∃ r, compile definitions schema = .ok r) ↔
      schema.reference = none ∧ ∀ way last, Leads schema way last → Sound last := by
  by_cases href : schema.reference = none
  · rw [compile_of_resolved href, and_iff_right href]
    rcases compileObject_decided definitions schema with ⟨hok, hsound⟩ | ⟨e, he, hrefuses⟩
    · exact iff_of_true hok hsound
    · refine iff_of_false ?_ fun hsound => ?_
      · rintro ⟨r, hr⟩
        rw [hr] at he
        cases he
      · obtain ⟨way, last, hleads, hwrong⟩ := hrefuses.not_sound
        exact hwrong (hsound way last hleads)
  · obtain ⟨fault, hfault⟩ := compile_of_reference definitions href
    refine iff_of_false ?_ fun h => href h.1
    rintro ⟨r, hr⟩
    rw [hr] at hfault
    cases hfault

theorem compile_eq_error {schema : Schema} {e : Error} (h : compile definitions schema = .error e) :
    (schema.reference ≠ none ∧ ∃ fault, e = .invalidProperty "" fault) ∨ Refuses schema e := by
  by_cases href : schema.reference = none
  · rw [compile_of_resolved href] at h
    rcases compileObject_decided definitions schema with ⟨⟨r, hr⟩, -⟩ | ⟨other, hother, hrefuses⟩
    · rw [hr] at h
      cases h
    · rw [hother] at h
      cases h
      exact .inr hrefuses
  · obtain ⟨fault, hfault⟩ := compile_of_reference definitions href
    rw [hfault] at h
    cases h
    exact .inl ⟨href, fault, rfl⟩

@[simp] theorem propertyName_append_empty (way : List String) :
    propertyName (way ++ [""]) = propertyName way := by
  induction way with
  | nil => rfl
  | cons name way ih => rw [List.cons_append, propertyName, ih, propertyName]

theorem intercalate_cons {way : List String} (name : String) (h : way ≠ []) :
    ".".intercalate (name :: way) = name ++ "." ++ ".".intercalate way := by
  cases way with
  | nil => exact absurd rfl h
  | cons next way => exact String.intercalate_cons_cons

theorem propertyName_append {own : String} (h : own ≠ "") (way : List String) :
    propertyName (way ++ [own]) = ".".intercalate (way ++ [own]) ∧
      propertyName (way ++ [own]) ≠ "" := by
  induction way with
  | nil => exact ⟨(String.intercalate_singleton).symm, h⟩
  | cons name way ih =>
    have hempty : (propertyName (way ++ [own])).isEmpty = false := by
      simpa [String.isEmpty_iff] using ih.2
    have hname : propertyName (name :: way ++ [own]) =
        name ++ "." ++ propertyName (way ++ [own]) := by
      rw [List.cons_append, propertyName, hempty]
      rfl
    rw [hname, List.cons_append, intercalate_cons name (by simp), ih.1]
    exact ⟨rfl, by simp⟩

theorem length_propertyName_le (way : List String) :
    (propertyName way).length ≤ (".".intercalate way).length := by
  induction way with
  | nil => exact Nat.le_refl _
  | cons name way ih =>
    cases way with
    | nil => exact Nat.le_refl _
    | cons next way =>
      rw [intercalate_cons name (by simp), propertyName, String.length_append,
        String.length_append]
      split
      · omega
      · change (name ++ "." ++ propertyName (next :: way)).length ≤ _
        rw [String.length_append, String.length_append]
        omega

/-- Neither the refused property has a name nor the one around it, which itself lies in another
one. -/
def Nameless (way : List String) (own : String) : Prop :=
  own = "" ∧ ∃ front, front ≠ [] ∧ way = front ++ [""]

theorem propertyName_starts_iff (way : List String) (own : String) :
    (∃ rest, propertyName (way ++ [own]) = ".".intercalate way ++ rest) ↔ ¬Nameless way own := by
  by_cases hown : own = ""
  · subst hown
    rw [propertyName_append_empty]
    rcases List.eq_nil_or_concat way with rfl | ⟨front, last, rfl⟩
    · exact iff_of_true ⟨"", rfl⟩ (by simp [Nameless])
    · rw [List.concat_eq_append]
      by_cases hlast : last = ""
      · subst hlast
        by_cases hfront : front = []
        · subst hfront
          exact iff_of_true ⟨"", rfl⟩ (by simp [Nameless])
        · refine iff_of_false ?_ (not_not_intro ⟨rfl, front, hfront, rfl⟩)
          rintro ⟨rest, hrest⟩
          have hlength := congrArg String.length hrest
          have hshort := length_propertyName_le front
          rw [propertyName_append_empty, String.length_append,
            String.intercalate_append_of_ne_nil hfront (by simp), String.length_append,
            String.length_append, show ".".length = 1 from rfl] at hlength
          omega
      · refine iff_of_true ⟨"", ?_⟩ (by simp [Nameless, hlast])
        rw [(propertyName_append hlast front).1, String.append_empty]
  · refine iff_of_true ?_ fun h => hown h.1
    rw [(propertyName_append hown way).1]
    by_cases hway : way = []
    · exact ⟨own, by simp [hway]⟩
    · rw [String.intercalate_append_of_ne_nil hway (by simp), String.append_assoc]
      exact ⟨_, rfl⟩

end SwaggerProvider.Record
