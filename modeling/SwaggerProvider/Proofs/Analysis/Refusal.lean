import SwaggerProvider.Proofs.Analysis.Accounting
import SwaggerProvider.Proofs.Record.Acceptance

/-!
What is refused. A schema becomes a record when every object within its reach is sound; what is
refused is named by the way to it, and a resource whose schema is refused is skipped.
-/

set_option autoImplicit false

namespace SwaggerProvider

open Swagger (Document PathItem Schema)

namespace Record

/-- A reference is left over in the schema, in a property within its reach, or in the items of
one. -/
def LeftOver (schema : Schema) : Prop :=
  schema.reference ≠ none ∨ ∃ way last e, Leads schema way last ∧ e ∈ last.properties ∧
    (e.2.reference ≠ none ∨
      ∃ items, e.2.type = some "array" ∧ e.2.items = some items ∧ items.reference ≠ none)

variable {definitions : Table Schema} {schema : Schema}

theorem LeftOver.not_compiles (h : LeftOver schema) :
    ¬∃ r, compile definitions schema = .ok r := by
  rw [compile_eq_ok_iff]
  rintro ⟨href, hsound⟩
  rcases h with hself | ⟨way, last, e, hleads, he, hleft⟩
  · exact hself href
  · have hallowed := (hsound way last hleads).properties e he
    rcases hleft with hown | ⟨items, htype, hitems, hleft⟩
    · exact hown hallowed.own.reference
    · obtain ⟨found, hfound, hdescribes, -⟩ := hallowed.items htype
      rw [hfound] at hitems
      cases hitems
      exact hleft hdescribes.reference

end Record

namespace Analysis

variable {document : Document} {path : String} {item : PathItem} {c : Candidate}

theorem finding_of_refused (schemes : Security.Schemes) (hp : Path.isInstance path = true)
    (hc : candidate document path item = .ok c)
    (h : ¬∃ r, Record.compile document.definitions c.schema = .ok r) :
    ∃ e, finding document schemes path item = .ok (.skippedResource e) ∧
      e.isCompilation = true := by
  cases hrecord : Record.compile document.definitions c.schema with
  | ok r => exact absurd ⟨r, hrecord⟩ h
  | error e =>
    have hdraft : draft document schemes path item = .error (e.inResource path) := by
      unfold draft
      rw [hc]
      change (inResource path (Record.compile document.definitions c.schema)).bind _ = _
      rw [hrecord]
      rfl
    exact ⟨_, finding_of_error document schemes hp hdraft,
      draft_skippable document schemes path item _ hdraft⟩

end Analysis

namespace Record

/-- A schema compiles exactly when it is no reference and every object within its reach is sound.
A refusal names what breaks a rule, and the names of the properties around it come first, unless the
innermost of them are empty. Where a reference is left over, the resource is skipped. -/
theorem sound_schemas_accepted (definitions : Table Schema) (schema : Schema) :
    ((∃ r, compile definitions schema = .ok r) ↔
      schema.reference = none ∧ ∀ way last, Leads schema way last → Sound last) ∧
    (∀ e, compile definitions schema = .error e →
      (schema.reference ≠ none ∧ ∃ fault, e = .invalidProperty "" fault) ∨
      ∃ way last own name fault, Leads schema way last ∧ Breaks last own ∧
        e = .invalidProperty name fault ∧
        ((∃ rest, name = ".".intercalate way ++ rest) ↔ ¬Nameless way own)) ∧
    (∀ document schemes path item c, Path.isInstance path = true →
      Analysis.candidate document path item = .ok c → LeftOver c.schema →
      ∃ e, Analysis.finding document schemes path item = .ok (.skippedResource e) ∧
        e.isCompilation = true) := by
  refine ⟨compile_eq_ok_iff, fun e h => ?_, fun document schemes path item c hp hc hleft =>
    Analysis.finding_of_refused schemes hp hc hleft.not_compiles⟩
  rcases compile_eq_error h with hself | ⟨way, last, own, fault, hleads, hbreaks, rfl⟩
  · exact .inl hself
  · exact .inr ⟨way, last, own, _, fault, hleads, hbreaks, rfl, propertyName_starts_iff way own⟩

def fileSchema : Schema := { Schema.empty with type := some "file" }

def lidSchema : Schema := { Schema.empty with
  properties := [("box", { Schema.empty with properties := [("lid", fileSchema)] })] }

/-- A box with a lid that no field can hold is not sound, and the refusal leads to the lid. -/
theorem sound_schemas_accepted_lid :
    compile [] lidSchema = .error (.invalidProperty "box.lid" (.unsupportedType "file")) ∧
      ¬∀ way last, Leads lidSchema way last → Sound last := by
  have herror : compile [] lidSchema =
      .error (.invalidProperty "box.lid" (.unsupportedType "file")) := rfl
  refine ⟨herror, fun hsound => ?_⟩
  obtain ⟨r, hr⟩ := (sound_schemas_accepted [] lidSchema).1.2 ⟨rfl, hsound⟩
  rw [herror] at hr
  cases hr

def boxSchema : Schema := { Schema.empty with
  properties := [("box", { Schema.empty with
    properties := [("", { Schema.empty with properties := [("", fileSchema)] })] })] }

/-- The refusal names the box, in which no rule is broken. -/
theorem sound_schemas_accepted_nameless :
    ∃ last, Leads boxSchema ["box", ""] last ∧ last.properties = [("", fileSchema)] ∧
      Breaks last "" ∧
      compile [] boxSchema = .error (.invalidProperty "box" (.unsupportedType "file")) ∧
      ¬∃ rest, "box" = ".".intercalate ["box", ""] ++ rest := by
  refine ⟨{ Schema.empty with properties := [("", fileSchema)] }, ?_, rfl, ?_, ?_, ?_⟩
  · exact .inside List.mem_cons_self ⟨rfl, rfl⟩
      (.inside List.mem_cons_self ⟨rfl, rfl⟩ (.here _))
  · refine .property List.mem_cons_self fun h => ?_
    exact absurd (h.own.type "file" rfl) (by decide)
  · rfl
  · rintro ⟨rest, hrest⟩
    have hlength := congrArg String.length hrest
    rw [String.length_append] at hlength
    have hlong : (".".intercalate ["box", ""]).length = 4 := by decide
    have hshort : "box".length = 3 := rfl
    omega

end Record

end SwaggerProvider
