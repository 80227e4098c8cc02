import SwaggerProvider.Payload
import SwaggerProvider.Record.Compile

/-!
Where the status of a resource is read from. A way is a list of places: all but the last of them
pick a field that is a record, and the last one picks the marked field inside it.
-/

set_option autoImplicit false

namespace SwaggerProvider

namespace Record

/-- A way to a marked field, with the fields that it meets. -/
inductive Marks : Record → List Nat → List Field → Prop where
  | here {r : Record} {i : Nat} {f : Field} (field : r[i]? = some f) (status : f.status = true) :
    Marks r [i] [f]
  | inside {r inner : Record} {i : Nat} {f : Field} {way : List Nat} {fields : List Field}
    (field : r[i]? = some f) (kind : f.kind = .record inner) (rest : Marks inner way fields) :
    Marks r (i :: way) (f :: fields)

/-- A way that ends in a record comes before all that go on below it, and else the earlier place
comes first. -/
inductive Before : List Nat → List Nat → Prop where
  | level (i j k : Nat) (way : List Nat) : Before [i] (j :: k :: way)
  | last {i j : Nat} (less : i < j) : Before [i] [j]
  | earlier {i j : Nat} (less : i < j) (k l : Nat) (way other : List Nat) :
    Before (i :: k :: way) (j :: l :: other)
  | inside (i : Nat) {way other : List Nat} (rest : Before way other) :
    Before (i :: way) (i :: other)

/-- The way to a marked field that comes before all the others. -/
structure MarksFirst (r : Record) (way : List Nat) (fields : List Field) : Prop where
  marks : Marks r way fields
  first : ∀ other others, Marks r other others → other = way ∨ Before way other

variable {r : Record} {way other : List Nat} {fields others : List Field} {f : Field}

theorem Marks.ne_nil (h : Marks r way fields) : way ≠ [] := by
  cases h <;> exact List.cons_ne_nil _ _

theorem Marks.unique (h : Marks r way fields) (h' : Marks r way others) : fields = others := by
  induction h generalizing others with
  | here hf _ =>
    cases h' with
    | here hg _ => rw [Option.some.inj (hf.symm.trans hg)]
    | inside _ _ hrest => exact absurd rfl hrest.ne_nil
  | inside hf hkind hrest ih =>
    cases h' with
    | here _ _ => exact absurd rfl hrest.ne_nil
    | inside hg hkind' hrest' =>
      obtain rfl := Option.some.inj (hf.symm.trans hg)
      obtain rfl := Kind.record.inj (hkind.symm.trans hkind')
      rw [ih hrest']

theorem Before.asymm (h : Before way other) : ¬ Before other way := by
  induction h with
  | level i j k way =>
    intro h
    cases h with
    | inside _ hrest => cases hrest
  | last hless =>
    intro h
    cases h with
    | last hmore => omega
    | inside _ hrest => cases hrest
  | earlier hless k l way other =>
    intro h
    cases h with
    | earlier hmore => omega
    | inside => omega
  | inside i hrest ih =>
    intro h
    cases h with
    | level => cases hrest
    | last hless => omega
    | earlier hless => omega
    | inside _ hrest' => exact ih hrest'

theorem MarksFirst.unique (h : MarksFirst r way fields) (h' : MarksFirst r other others) :
    way = other ∧ fields = others := by
  have hway : way = other := by
    rcases h.first _ _ h'.marks with heq | hbefore
    · exact heq.symm
    · exact (h'.first _ _ h.marks).resolve_right hbefore.asymm
  subst hway
  exact ⟨rfl, h.marks.unique h'.marks⟩

theorem statusBelow_eq_some {path : List String} : statusBelow f = some path ↔
    ∃ (inner : Record) (rest : List String), f.kind = .record inner ∧
      inner.markedStatus? = some rest ∧ path = f.name :: rest := by
  obtain ⟨traits, kind⟩ := f
  rw [statusBelow, Option.map_eq_some_iff]
  constructor
  · rintro ⟨rest, hrest, rfl⟩
    cases kind with
    | record inner => exact ⟨inner, rest, rfl, hrest, rfl⟩
    | scalar | scalars | records => cases hrest
  · rintro ⟨inner, rest, rfl, hrest, rfl⟩
    exact ⟨rest, hrest, rfl⟩

theorem firstBelow_eq_some {path : List String} (h : firstBelow r = some path) :
    ∃ (i : Nat) (f : Field), r[i]? = some f ∧ statusBelow f = some path ∧
      ∀ (j : Nat) (g : Field), j < i → r[j]? = some g → statusBelow g = none := by
  induction r with
  | nil => cases h
  | cons f rest ih =>
    rw [firstBelow] at h
    cases hf : statusBelow f with
    | some found =>
      rw [hf] at h
      exact ⟨0, f, rfl, hf.trans h, fun j g hj => absurd hj (Nat.not_lt_zero j)⟩
    | none =>
      rw [hf] at h
      obtain ⟨i, g, hg, hpath, hbefore⟩ := ih h
      refine ⟨i + 1, g, hg, hpath, fun j e hj he => ?_⟩
      cases j with
      | zero => exact Option.some.inj he ▸ hf
      | succ j => exact hbefore j e (Nat.lt_of_succ_lt_succ hj) he

theorem firstBelow_eq_none (h : firstBelow r = none) : ∀ f ∈ r, statusBelow f = none := by
  induction r with
  | nil => exact fun f hf => absurd hf List.not_mem_nil
  | cons f rest ih =>
    rw [firstBelow] at h
    cases hf : statusBelow f with
    | some found => simp [hf] at h
    | none =>
      rw [hf] at h
      exact List.forall_mem_cons.2 ⟨hf, ih h⟩

theorem markedStatus?_eq (r : Record) : r.markedStatus? =
    match r.find? fun f => f.status with
    | some f => some [f.name]
    | none => firstBelow r := rfl

def Searched (r : Record) : Prop :=
  match r.markedStatus? with
  | some path => ∃ way fields, MarksFirst r way fields ∧ path = fields.map fun f => f.name
  | none => ∀ way fields, ¬ Marks r way fields

/-- A mark in the record itself comes before all that lie deeper. -/
theorem searched_of_here (hfind : r.find? (fun f => f.status) = some f) : Searched r := by
  obtain ⟨hstatus, i, hi, hf, hbefore⟩ := List.find?_eq_some_iff_getElem.1 hfind
  have hfield : r[i]? = some f := by rw [List.getElem?_eq_getElem hi, hf]
  rw [Searched, markedStatus?_eq, hfind]
  refine ⟨[i], [f], ⟨.here hfield hstatus, fun other others hother => ?_⟩, rfl⟩
  cases hother with
  | @here _ j g hg hmark =>
    rcases Nat.lt_trichotomy j i with hless | rfl | hmore
    · have hnot := hbefore j hless
      obtain ⟨hj, hg⟩ := List.getElem?_eq_some_iff.1 hg
      rw [hg, hmark] at hnot
      cases hnot
    · exact .inl rfl
    · exact .inr (.last hmore)
  | inside hg hkind hrest =>
    obtain ⟨k, way, rfl⟩ := List.exists_cons_of_ne_nil hrest.ne_nil
    exact .inr (.level i _ k way)

theorem Searched.not_marks {inner : Record} (h : Searched inner) (hkind : f.kind = .record inner)
    (hbelow : statusBelow f = none) : ¬ Marks inner way fields := by
  cases hfound : inner.markedStatus? with
  | none =>
    rw [Searched, hfound] at h
    exact h way fields
  | some rest =>
    rw [statusBelow_eq_some.2 ⟨inner, rest, hkind, hfound, rfl⟩] at hbelow
    cases hbelow

/-- Where nothing in the record itself is marked and nothing below the fields before, the first way
inside a field is the first of all. -/
theorem MarksFirst.inside {inner : Record} {i : Nat} (h : MarksFirst inner way fields)
    (hf : r[i]? = some f) (hkind : f.kind = .record inner) (hown : ∀ g ∈ r, g.status ≠ true)
    (hbefore : ∀ (j : Nat) (g : Field) (inside : Record) (other : List Nat) (others : List Field),
      j < i → r[j]? = some g → g.kind = .record inside → ¬ Marks inside other others) :
    MarksFirst r (i :: way) (f :: fields) := by
  refine ⟨.inside hf hkind h.marks, fun other others hother => ?_⟩
  cases hother with
  | here hg hmark => exact absurd hmark (hown _ (List.mem_of_getElem? hg))
  | @inside _ _ j g other others hg hkind' hmarks =>
    rcases Nat.lt_trichotomy j i with hless | rfl | hmore
    · exact absurd hmarks (hbefore j g _ other others hless hg hkind')
    · obtain rfl := Option.some.inj (hf.symm.trans hg)
      obtain rfl := Kind.record.inj (hkind.symm.trans hkind')
      exact (h.first _ _ hmarks).imp (congrArg _) (.inside j)
    · obtain ⟨k, way, rfl⟩ := List.exists_cons_of_ne_nil h.marks.ne_nil
      obtain ⟨l, other, rfl⟩ := List.exists_cons_of_ne_nil hmarks.ne_nil
      exact .inr (.earlier hmore k l way other)

/-- Without a mark in the record itself, the first record inside it that has one decides. -/
theorem searched_of_inside (hfind : r.find? (fun f => f.status) = none)
    (ih : ∀ f ∈ r, ∀ inner, f.kind = .record inner → Searched inner) : Searched r := by
  have hown : ∀ g ∈ r, g.status ≠ true := List.find?_eq_none.1 hfind
  rw [Searched, markedStatus?_eq, hfind]
  cases hfirst : firstBelow r with
  | none =>
    intro way fields hmarks
    cases hmarks with
    | here hg hmark => exact hown _ (List.mem_of_getElem? hg) hmark
    | inside hg hkind hrest =>
      have hmem := List.mem_of_getElem? hg
      exact (ih _ hmem _ hkind).not_marks hkind (firstBelow_eq_none hfirst _ hmem) hrest
  | some path =>
    obtain ⟨i, f, hf, hpath, hbefore⟩ := firstBelow_eq_some hfirst
    obtain ⟨inner, rest, hkind, hrest, rfl⟩ := statusBelow_eq_some.1 hpath
    have hsearched := ih f (List.mem_of_getElem? hf) inner hkind
    rw [Searched, hrest] at hsearched
    obtain ⟨way, fields, hway, rfl⟩ := hsearched
    refine ⟨i :: way, f :: fields, hway.inside hf hkind hown ?_, rfl⟩
    intro j g inside other others hless hg hkind'
    exact (ih g (List.mem_of_getElem? hg) inside hkind').not_marks hkind' (hbefore j g hless hg)

theorem searched_of_records (ih : ∀ f ∈ r, ∀ inner, f.kind = .record inner → Searched inner) :
    Searched r := by
  cases hfind : r.find? fun f => f.status with
  | some f => exact searched_of_here hfind
  | none => exact searched_of_inside hfind ih

theorem searched (r : Record) : Searched r := by
  have hinside : ∀ (f : Field) (inner : Record), f.kind = .record inner → Searched inner := by
    intro f
    induction f using Field.induction with
    | scalar | scalars | records =>
      intro inner hkind
      cases hkind
    | record traits fields ih =>
      intro inner hkind
      cases hkind
      exact searched_of_records ih
  exact searched_of_records fun f _ => hinside f

theorem markedStatus?_eq_some {path : List String} : r.markedStatus? = some path ↔
    ∃ way fields, MarksFirst r way fields ∧ path = fields.map fun f => f.name := by
  have h := searched r
  rw [Searched] at h
  constructor
  · intro hpath
    rwa [hpath] at h
  · rintro ⟨way, fields, hfirst, rfl⟩
    cases hfound : r.markedStatus? with
    | none =>
      rw [hfound] at h
      exact absurd hfirst.marks (h way fields)
    | some found =>
      rw [hfound] at h
      obtain ⟨other, others, hother, rfl⟩ := h
      rw [(hfirst.unique hother).2]

theorem markedStatus?_eq_none :
    r.markedStatus? = none ↔ ∀ way fields, ¬ Marks r way fields := by
  have h := searched r
  rw [Searched] at h
  constructor
  · intro hnone
    rwa [hnone] at h
  · intro hnone
    cases hfound : r.markedStatus? with
    | none => rfl
    | some found =>
      rw [hfound] at h
      obtain ⟨way, fields, hfirst, -⟩ := h
      exact absurd hfirst.marks (hnone way fields)

theorem marks_iff_marksFirst :
    (∃ way fields, Marks r way fields) ↔ ∃ way fields, MarksFirst r way fields := by
  constructor
  · rintro ⟨way, fields, hmarks⟩
    cases hfound : r.markedStatus? with
    | none => exact absurd hmarks (markedStatus?_eq_none.1 hfound way fields)
    | some path =>
      obtain ⟨first, others, hfirst, -⟩ := markedStatus?_eq_some.1 hfound
      exact ⟨first, others, hfirst⟩
  · rintro ⟨way, fields, hfirst⟩
    exact ⟨way, fields, hfirst.marks⟩

theorem statusPath?_eq_some {path : List String} : r.statusPath? = some path ↔
    (∃ way fields, MarksFirst r way fields ∧ path = fields.map fun f => f.name) ∨
    (∀ way fields, ¬ Marks r way fields) ∧
      ∃ f, r.find? (fun f => f.hostName == statusName) = some f ∧ path = [f.name] := by
  rw [← markedStatus?_eq_some, ← markedStatus?_eq_none, statusPath?]
  cases r.markedStatus? with
  | none =>
    have hcomm (f : Field) : [f.name] = path ↔ path = [f.name] := eq_comm
    simp [hcomm]
  | some found => simp

end Record

namespace Json

/-- Numbers, booleans and strings that are not empty have a text. -/
inductive HasText : Json → String → Prop where
  | number (n : Number) : HasText (.number n) n.text
  | bool (b : Bool) : HasText (.bool b) (boolText b)
  | string {s : String} (given : s ≠ "") : HasText (.string s) s

theorem scalarText?_eq_some {value : Json} {text : String} :
    value.scalarText? = some text ↔ HasText value text := by
  constructor
  · intro h
    cases value with
    | number n =>
      cases h
      exact .number n
    | bool b =>
      cases h
      exact .bool b
    | string s =>
      rw [scalarText?] at h
      split at h
      · cases h
      · next hgiven =>
        cases h
        exact .string fun hempty => hgiven (String.isEmpty_iff.2 hempty)
    | null | array | object => cases h
  · intro h
    cases h with
    | number | bool => rfl
    | string hgiven => exact if_neg (mt String.isEmpty_iff.1 hgiven)

end Json

namespace Payload

/-- Where a path of wire names leads, through objects. -/
inductive Leads : List String → Members → Json → Prop where
  | last {name : String} {payload : Members} {value : Json}
    (member : payload.get? name = some value) : Leads [name] payload value
  | inside {name : String} {path : List String} {payload members : Members} {value : Json}
    (member : payload.get? name = some (.object members)) (rest : Leads path members value) :
    Leads (name :: path) payload value

theorem Leads.ne_nil {path : List String} {payload : Members} {value : Json}
    (h : Leads path payload value) : path ≠ [] := by
  cases h <;> exact List.cons_ne_nil _ _

theorem valueAt?_eq_some {path : List String} {payload : Members} {value : Json} :
    valueAt? path payload = some value ↔ Leads path payload value := by
  constructor
  · intro h
    induction path, payload using valueAt?.induct with
    | case1 => cases h
    | case2 name payload => exact .last h
    | case3 name rest payload hne ih =>
      rw [valueAt?.eq_3 _ _ _ hne] at h
      obtain ⟨inner, hinner, h⟩ := Option.bind_eq_some_iff.1 h
      obtain ⟨members, hmembers, h⟩ := Option.bind_eq_some_iff.1 h
      cases inner with
      | object =>
        cases hmembers
        exact .inside hinner (ih _ h)
      | null | bool | number | string | array => cases hmembers
  · intro h
    induction h with
    | last hmember => exact hmember
    | inside hmember hrest ih =>
      rw [valueAt?.eq_3 _ _ _ hrest.ne_nil, hmember]
      exact ih

theorem status?_eq_some {r : Record} {payload : Members} {status : String} :
    status? r payload = some status ↔
      ∃ path value, r.statusPath? = some path ∧ Leads path payload value ∧
        value.HasText status := by
  constructor
  · intro h
    obtain ⟨path, hpath, h⟩ := Option.bind_eq_some_iff.1 h
    obtain ⟨value, hvalue, htext⟩ := Option.bind_eq_some_iff.1 h
    exact ⟨path, value, hpath, valueAt?_eq_some.1 hvalue, Json.scalarText?_eq_some.1 htext⟩
  · rintro ⟨path, value, hpath, hleads, htext⟩
    exact Option.bind_eq_some_iff.2 ⟨path, hpath, Option.bind_eq_some_iff.2
      ⟨value, valueAt?_eq_some.2 hleads, Json.scalarText?_eq_some.2 htext⟩⟩

end Payload

namespace Record

/-- The path to the status is that of the first marked field, and else that of the first field of
the record itself with the host name `status`; the status is the text that a payload has there. -/
theorem status_resolution (r : Record) :
    ((∃ way fields, Marks r way fields) ↔ ∃ way fields, MarksFirst r way fields) ∧
    (∀ path, r.statusPath? = some path ↔
      (∃ way fields, MarksFirst r way fields ∧ path = fields.map fun f => f.name) ∨
      (∀ way fields, ¬ Marks r way fields) ∧
        ∃ f, r.find? (fun f => f.hostName == statusName) = some f ∧ path = [f.name]) ∧
    ∀ (payload : Members) (status : String), Payload.status? r payload = some status ↔
      ∃ path value, r.statusPath? = some path ∧ Payload.Leads path payload value ∧
        value.HasText status :=
  ⟨marks_iff_marksFirst, fun _ => statusPath?_eq_some, fun _ _ => Payload.status?_eq_some⟩

def clusterSchema : Swagger.Schema :=
  let seen := { Swagger.Schema.empty with type := some "string", readOnly := true }
  { Swagger.Schema.empty with
    properties := [("id", seen), ("status", seen),
      ("deployment", { Swagger.Schema.empty with
        readOnly := true
        properties := [("state", { seen with extensions := [(statusKey, .bool true)] })] })] }

example : (compile [] clusterSchema).toOption.bind statusPath? = some ["deployment", "state"] := by
  decide +kernel

end Record

end SwaggerProvider
