import SwaggerProvider.Proofs.Json.Agreement
import SwaggerProvider.Proofs.Swagger.Nodes

/-!
The ways from a node to the nodes inside it, and the paths that values have along them. A node that
was read has a node at the end of a way when its value has one at the end of the path.
-/

set_option autoImplicit false

namespace SwaggerProvider

namespace Json

@[simp] theorem at?_append (p q : List Step) (value : Json) :
    at? (p ++ q) value = (at? p value).bind (at? q) := by
  induction p generalizing value with
  | nil => rfl
  | cons step rest ih =>
    simp only [List.cons_append, at?, Option.bind_assoc]
    cases value.step? step with
    | none => rfl
    | some inner => exact ih inner

theorem at?_entry (value : Option Json) (name : String) :
    value.bind (at? [.member name]) = Table.get? ((value.bind members?).getD []) name := by
  cases value with
  | none => rfl
  | some value =>
    cases value with
    | object members =>
      simp [at?, step?, members?]
    | _ => rfl

theorem at?_item (value : Option Json) (i : Nat) :
    value.bind (at? [.item i]) = ((value.bind items?).getD [])[i]? := by
  cases value with
  | none => rfl
  | some value =>
    cases value with
    | array items => simp [at?, step?, items?]
    | _ => rfl

end Json

namespace Swagger

inductive NodeKind where
  | document
  | pathItem
  | operation
  | parameter
  | response
  | schema
  | securityDefinition

namespace NodeKind

abbrev Node : NodeKind → Type
  | .document => Document
  | .pathItem => PathItem
  | .operation => Operation
  | .parameter => Parameter
  | .response => Response
  | .schema => Schema
  | .securityDefinition => SecurityDefinition

def decode : (kind : NodeKind) → Json → Option kind.Node
  | .document => Document.decode
  | .pathItem => PathItem.decode
  | .operation => Operation.decode
  | .parameter => Parameter.decode
  | .response => Response.decode
  | .schema => Schema.decode
  | .securityDefinition => SecurityDefinition.decode

def encode : (kind : NodeKind) → kind.Node → Json
  | .document => Document.encode
  | .pathItem => PathItem.encode
  | .operation => Operation.encode
  | .parameter => Parameter.encode
  | .response => Response.encode
  | .schema => Schema.encode
  | .securityDefinition => SecurityDefinition.encode

def extensions : (kind : NodeKind) → kind.Node → Extensions
  | .document => Document.extensions
  | .pathItem => PathItem.extensions
  | .operation => Operation.extensions
  | .parameter => Parameter.extensions
  | .response => Response.extensions
  | .schema => Schema.extensions
  | .securityDefinition => SecurityDefinition.extensions

def names : NodeKind → List String
  | .document => Document.names
  | .pathItem => PathItem.names
  | .operation => Operation.names
  | .parameter => Parameter.names
  | .response => Response.names
  | .schema => Schema.names
  | .securityDefinition => SecurityDefinition.names

theorem lossless (kind : NodeKind) : Lossless kind.decode kind.encode := by
  cases kind with
  | document => exact Document.lossless
  | pathItem => exact PathItem.lossless
  | operation => exact Operation.lossless
  | parameter => exact Parameter.lossless
  | response => exact Response.lossless
  | schema => exact Schema.lossless
  | securityDefinition => exact SecurityDefinition.lossless

/-- Every kind of node is built member by member, and keeps what it does not know. -/
theorem built (kind : NodeKind) : ∃ member empty, kind.decode = Decode.node? member empty ∧
    Keeps member kind.names kind.extensions ∧ kind.extensions empty = [] := by
  cases kind with
  | document => exact ⟨_, _, rfl, Document.keeps, rfl⟩
  | pathItem => exact ⟨_, _, rfl, PathItem.keeps, rfl⟩
  | operation => exact ⟨_, _, rfl, Operation.keeps, rfl⟩
  | parameter => exact ⟨_, _, rfl, Parameter.keeps, rfl⟩
  | response => exact ⟨_, _, rfl, Response.keeps, rfl⟩
  | schema => exact ⟨_, _, Schema.decode_eq, Schema.keeps, rfl⟩
  | securityDefinition => exact ⟨_, _, rfl, SecurityDefinition.keeps, rfl⟩

theorem decode_eq_some {kind : NodeKind} {value : Json} {node : kind.Node}
    (h : kind.decode value = some node) :
    ∃ members, value = .object members ∧
      kind.extensions node = members.filter fun e => e.1 ∉ kind.names := by
  obtain ⟨member, empty, hdecode, hkeeps, hempty⟩ := kind.built
  rw [hdecode] at h
  obtain ⟨members, rfl⟩ := node?_eq_some h
  exact ⟨members, rfl, hkeeps.eq hempty h⟩

end NodeKind

inductive Child : NodeKind → NodeKind → Type where
  | path (name : String) : Child .document .pathItem
  | definition (name : String) : Child .document .schema
  | securityDefinition (name : String) : Child .document .securityDefinition
  | operation (method : Method) : Child .pathItem .operation
  | shared (index : Nat) : Child .pathItem .parameter
  | parameter (index : Nat) : Child .operation .parameter
  | response (status : String) : Child .operation .response
  | given : Child .parameter .schema
  | returned : Child .response .schema
  | property (name : String) : Child .schema .schema
  | items : Child .schema .schema

namespace Child

variable {k l : NodeKind}

def steps : Child k l → List Json.Step
  | .path name => [.member "paths", .member name]
  | .definition name => [.member "definitions", .member name]
  | .securityDefinition name => [.member "securityDefinitions", .member name]
  | .operation method => [.member method.key]
  | .shared index => [.member "parameters", .item index]
  | .parameter index => [.member "parameters", .item index]
  | .response status => [.member "responses", .member status]
  | .given => [.member "schema"]
  | .returned => [.member "schema"]
  | .property name => [.member "properties", .member name]
  | .items => [.member "items"]

def node? : {k l : NodeKind} → Child k l → k.Node → Option l.Node
  | _, _, .path name, d => Table.get? (Document.paths d) name
  | _, _, .definition name, d => Table.get? (Document.definitions d) name
  | _, _, .securityDefinition name, d => Table.get? (Document.securityDefinitions d) name
  | _, _, .operation method, item => PathItem.operation? item method
  | _, _, .shared index, item => (PathItem.parameters item)[index]?
  | _, _, .parameter index, op => (Operation.parameters op)[index]?
  | _, _, .response status, op => Table.get? (Operation.responses op) status
  | _, _, .given, p => Parameter.schema p
  | _, _, .returned, r => Response.schema r
  | _, _, .property name, schema => Table.get? (Schema.properties schema) name
  | _, _, .items, schema => Schema.items schema

section Places

open Decode

variable {α β : Type} {member : String → Json → α → Option α} {empty node : α} {members : Members}
  {read : Json → Option β} {name : String}

theorem stands_in_table {field : α → Table β} (hf : Field member name (table? read) field)
    (hempty : field empty = []) (h : Decode.node? member empty (.object members) = some node)
    (key : String) :
    Stands read (Json.at? [.member name, .member key] (.object members))
      (Table.get? (field node) key) := by
  have hat : Json.at? [.member name, .member key] (.object members) =
      (Table.get? members name).bind (Json.at? [.member key]) := rfl
  rw [hat, Json.at?_entry]
  exact stands_entry (forall₂_of_table (hf.eq hempty h)) key

theorem stands_in_list {field : α → List β} (hf : Field member name (list? read) field)
    (hempty : field empty = []) (h : Decode.node? member empty (.object members) = some node)
    (i : Nat) :
    Stands read (Json.at? [.member name, .item i] (.object members)) (field node)[i]? := by
  have hat : Json.at? [.member name, .item i] (.object members) =
      (Table.get? members name).bind (Json.at? [.item i]) := rfl
  rw [hat, Json.at?_item]
  exact stands_item (forall₂_of_list (hf.eq hempty h)) i

theorem stands_alone {field : α → Option β}
    (hf : Field member name (Decode.optional read) field) (hempty : field empty = none)
    (h : Decode.node? member empty (.object members) = some node) :
    Stands read (Json.at? [.member name] (.object members)) (field node) := by
  have hat : Json.at? [.member name] (.object members) = Table.get? members name :=
    Option.bind_fun_some _
  rw [hat]
  exact stands_optional (hf.eq hempty h)

end Places

theorem stands (child : Child k l) {value : Json} {node : k.Node}
    (h : k.decode value = some node) :
    Stands l.decode (value.at? child.steps) (child.node? node) := by
  obtain ⟨members, rfl, -⟩ := NodeKind.decode_eq_some h
  cases child with
  | path name => exact stands_in_table Document.pathsField rfl h name
  | definition name => exact stands_in_table Document.definitionsField rfl h name
  | securityDefinition name => exact stands_in_table Document.securityDefinitionsField rfl h name
  | operation method =>
    exact stands_alone (PathItem.operationField method) (by cases method <;> rfl) h
  | shared index => exact stands_in_list PathItem.parametersField rfl h index
  | parameter index => exact stands_in_list Operation.parametersField rfl h index
  | response status => exact stands_in_table Operation.responsesField rfl h status
  | given => exact stands_alone Parameter.schemaField rfl h
  | returned => exact stands_alone Response.schemaField rfl h
  | property name =>
    rw [NodeKind.decode, Schema.decode_eq] at h
    exact stands_in_table Schema.propertiesField rfl h name
  | items =>
    rw [NodeKind.decode, Schema.decode_eq] at h
    exact stands_alone Schema.itemsField rfl h

end Child

/-- A way to a node at any depth. -/
inductive Way : NodeKind → NodeKind → Type where
  | here {k : NodeKind} : Way k k
  | inside {k l m : NodeKind} (child : Child k l) (rest : Way l m) : Way k m

namespace Way

variable {k l : NodeKind}

def steps : {k l : NodeKind} → Way k l → List Json.Step
  | _, _, .here => []
  | _, _, .inside child rest => child.steps ++ rest.steps

def node? : {k l : NodeKind} → Way k l → k.Node → Option l.Node
  | _, _, .here, node => some node
  | _, _, .inside child rest, node => (child.node? node).bind rest.node?

theorem stands_null (way : Way k l) : Stands l.decode (Json.null.at? way.steps) none := by
  cases hsteps : way.steps with
  | nil => exact .null
  | cons step rest => exact .absent

theorem stands (way : Way k l) {value : Json} {node : k.Node} (h : k.decode value = some node) :
    Stands l.decode (value.at? way.steps) (way.node? node) := by
  induction way generalizing value with
  | here => exact .read h
  | inside child rest ih =>
    have hchild := child.stands h
    rw [steps, node?, Json.at?_append]
    generalize value.at? child.steps = inner, child.node? node = found at hchild
    cases hchild with
    | absent => exact .absent
    | null => exact rest.stands_null
    | read hread => exact ih hread

end Way

end Swagger

end SwaggerProvider
