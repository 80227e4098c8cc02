import SwaggerProvider.Proofs.Swagger.Likeness
import SwaggerProvider.Proofs.Swagger.Ways

/-!
Documents lose nothing of what was read: at every level a node is read again as it was written, and
the members that it does not know are in its extensions. Schemas of documents have the same written
form exactly when they are alike.
-/

set_option autoImplicit false

namespace SwaggerProvider

theorem Json.distinct_at? {path : List Json.Step} {value inner : Json}
    (h : value.distinct = true) (hinner : value.at? path = some inner) :
    inner.distinct = true := by
  induction path generalizing value with
  | nil =>
    cases hinner
    exact h
  | cons step rest ih =>
    obtain ⟨next, hnext, hrest⟩ := Option.bind_eq_some_iff.1 hinner
    refine ih ?_ hrest
    cases value with
    | object members =>
      cases step with
      | member name => exact (distinct_object h).2 name next hnext
      | item i => cases hnext
    | array items =>
      cases step with
      | member name => cases hnext
      | item i => exact distinct_array h next (List.mem_of_getElem? hnext)
    | _ => cases step <;> cases hnext

namespace Swagger

/-- What was kept of what stands at a place: a node that is read again when it is written, with all
members that it does not know as they were. Null, like nothing, is no node. -/
inductive Kept (kind : NodeKind) : Option Json → Option kind.Node → Prop where
  | absent : Kept kind none none
  | null : Kept kind (some .null) none
  | node {members : Members} {node : kind.Node} (read : kind.decode (.object members) = some node)
    (again : kind.decode (kind.encode node) = some node)
    (extensions : kind.extensions node = members.filter fun e => e.1 ∉ kind.names) :
    Kept kind (some (.object members)) (some node)

theorem Stands.kept {kind : NodeKind} {value : Option Json} {node : Option kind.Node}
    (h : Stands kind.decode value node) : Kept kind value node := by
  cases h with
  | absent => exact .absent
  | null => exact .null
  | read h =>
    obtain ⟨members, rfl, hextensions⟩ := NodeKind.decode_eq_some h
    exact .node h (kind.lossless h) hextensions

theorem Way.declared {value : Json} {document : Document} {schema : Schema}
    (hdistinct : value.distinct = true) (h : Document.decode value = some document)
    (way : Way .document .schema) (hschema : way.node? document = some schema) :
    schema.Declared := by
  have hstands := way.stands (k := .document) h
  rw [hschema] at hstands
  obtain ⟨inner, hinner, hread⟩ := hstands.of_some
  exact ⟨inner, Json.distinct_at? hdistinct hinner, hread⟩

/-- A node of any kind that was read is read again as it was, and so are all nodes inside it, each
with the members that it does not know. Of two schemas from documents the written forms are the same
when the schemas are alike, and only then. -/
theorem documents_lossless :
    (∀ (kind : NodeKind) (value : Json) (node : kind.Node), kind.decode value = some node →
      kind.decode (kind.encode node) = some node ∧
      ∀ (inner : NodeKind) (way : Way kind inner),
        Kept inner (value.at? way.steps) (way.node? node)) ∧
    ∀ (value other : Json) (document another : Document),
      value.distinct = true → other.distinct = true →
      Document.decode value = some document → Document.decode other = some another →
      ∀ (p q : Way .document .schema) (a b : Schema),
        p.node? document = some a → q.node? another = some b → (a.same b = true ↔ a.Like b) :=
  ⟨fun kind _ _ h => ⟨kind.lossless h, fun _ way => (way.stands h).kept⟩,
    fun _ _ _ _ hvalue hother hdocument hanother p q _ _ ha hb =>
      Schema.same_iff_like (p.declared hvalue hdocument ha) (q.declared hother hanother hb)⟩

def serverDocument : Json := .object [
  ("swagger", .string "2.0"),
  ("paths", .object [("/servers", .object [("post", .object [("parameters", .array [.object [
    ("in", .string "body"),
    ("x-order", .array []),
    ("schema", .object [
      ("type", .string "object"),
      ("properties", .object [
        ("id", .object [("type", .string "string"), ("readOnly", .bool true)]),
        ("name", .object [("type", .string "string")])])])]])])])]),
  ("definitions", .object [("Server", .object [
    ("properties", .object [
      ("name", .object [("type", .string "string")]),
      ("id", .object [("readOnly", .bool true), ("type", .string "string")])]),
    ("type", .string "object")])])]

def serverParameter : Way .document .parameter :=
  .inside (.path "/servers") (.inside (.operation .post) (.inside (.parameter 0) .here))

def serverBody : Way .document .schema :=
  .inside (.path "/servers") (.inside (.operation .post) (.inside (.parameter 0)
    (.inside .given .here)))

def serverDefinition : Way .document .schema := .inside (.definition "Server") .here

/-- The order is kept with the parameter, and its schema is like the definition. -/
theorem documents_lossless_server :
    ∃ d a b, Document.decode serverDocument = some d ∧ Document.decode d.encode = some d ∧
      Kept .parameter (serverDocument.at? serverParameter.steps) (serverParameter.node? d) ∧
      serverBody.node? d = some a ∧ serverDefinition.node? d = some b ∧ a.Like b := by
  obtain ⟨d, a, b, hd, ha, hb, hsame⟩ : ∃ d a b, Document.decode serverDocument = some d ∧
      serverBody.node? d = some a ∧ serverDefinition.node? d = some b ∧ a.same b = true :=
    ⟨_, _, _, rfl, rfl, rfl, by decide⟩
  have hdistinct : serverDocument.distinct = true := by decide
  obtain ⟨again, kept⟩ := documents_lossless.1 .document serverDocument d hd
  have hlike := documents_lossless.2 serverDocument serverDocument d d hdistinct hdistinct hd hd
    serverBody serverDefinition a b ha hb
  exact ⟨d, a, b, hd, again, kept .parameter serverParameter, ha, hb, hlike.1 hsame⟩

end Swagger

end SwaggerProvider
