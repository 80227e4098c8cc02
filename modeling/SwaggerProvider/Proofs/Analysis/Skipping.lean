import SwaggerProvider.Analysis
import SwaggerProvider.Proofs.Outcome

/-!
Errors that skip a path. All steps from a path to its resource or data source, up to the hosts of
the resource, refuse with compilation errors only, so they skip the path and nothing else.
-/

set_option autoImplicit false

namespace SwaggerProvider

open Swagger (Document PathItem Schema)

abbrev Skippable {α : Type} (x : Except Error α) : Prop :=
  x.FailsOnly fun e => e.isCompilation = true

theorem Analysis.inResource_skippable {α : Type} (name : String) {x : Except Error α}
    (hx : Skippable x) : Skippable (inResource name x) := by
  intro e h
  cases hc : x with
  | error other =>
    rw [hc] at h
    cases h
    have hother := hx other hc
    cases other <;> first | rfl | cases hother
  | ok a =>
    rw [hc] at h
    cases h

namespace Record

theorem atProperty_skippable {α : Type} (name : String) (x : Except PropertyFault α) :
    Skippable (atProperty name x) := by
  cases x with
  | ok a => exact .ok a
  | error fault => exact .error rfl

theorem within_skippable {α : Type} (parent : String) {x : Except Error α} (hx : Skippable x) :
    Skippable (within parent x) := by
  cases hc : x with
  | ok a => exact .ok a
  | error e =>
    have he := hx e hc
    cases e with
    | invalidProperty property fault => exact .error rfl
    | resourceCompilation resource fault => exact .error rfl
    | _ => cases he

variable (definitions : Table Schema)

theorem checkReference_skippable (name : String) (reference : Option String) :
    Skippable (checkReference definitions name reference) := by
  cases reference with
  | none => exact .ok ()
  | some reference => exact .error rfl

theorem checkMarks_skippable (r : Record) : Skippable (checkMarks r) := by
  unfold checkMarks
  dsimp only
  split
  · exact .error rfl
  · exact .ok r

theorem finish_skippable (t : Traits) (kind : Kind Field) : Skippable (finish t kind) :=
  .bind (atProperty_skippable _ _) fun _ => .ok _

theorem compileFields_skippable {required : List String} {properties : List (String × Schema)}
    (h : ∀ e ∈ properties, ∀ name required,
      Skippable (compileField definitions name required e.2)) :
    Skippable (compileFields definitions required properties) := by
  induction properties with
  | nil =>
    unfold compileFields
    exact .ok []
  | cons e rest ih =>
    unfold compileFields
    refine .bind (h e List.mem_cons_self _ _) fun field => .map _ ?_
    exact ih fun e he => h e (List.mem_cons_of_mem _ he)

theorem compileItems_skippable {name : String} {items : Schema}
    (h : Skippable (compileFields definitions items.required items.properties)) :
    Skippable (compileItems definitions name items) := by
  obtain ⟨reference, type, _, properties, _, required, _, _, _⟩ := items
  unfold compileItems
  refine .bind (checkReference_skippable definitions name reference) fun _ => ?_
  refine .bind (atProperty_skippable name _) fun shape => ?_
  cases shape with
  | scalar type => exact .ok _
  | list => exact .error rfl
  | object => exact .map _ (within_skippable name (.bind h checkMarks_skippable))

theorem schema_skippable (schema : Schema) :
    (∀ name required, Skippable (compileField definitions name required schema)) ∧
      ∀ required, Skippable (compileFields definitions required schema.properties) := by
  induction schema using Schema.induction with
  | step schema ihProperties ihItems =>
    have hfields (required : List String) :
        Skippable (compileFields definitions required schema.properties) :=
      compileFields_skippable definitions fun e he => (ihProperties e he).1
    refine ⟨fun name isRequired => ?_, hfields⟩
    obtain ⟨reference, type, _, properties, items, required, _, _, _⟩ := schema
    unfold compileField
    refine .bind (checkReference_skippable definitions name reference) fun _ => ?_
    refine .bind (atProperty_skippable name _) fun shape => ?_
    cases shape with
    | scalar type => exact finish_skippable _ _
    | object =>
      have hobject := (hfields required).bind checkMarks_skippable
      exact .bind (.map _ (within_skippable name hobject)) fun kind => finish_skippable _ kind
    | list =>
      cases items with
      | none => exact .error rfl
      | some items =>
        have hitems : Skippable (compileItems definitions name items) :=
          compileItems_skippable definitions ((ihItems items rfl).2 items.required)
        exact .bind hitems fun kind => finish_skippable _ kind

theorem compile_skippable (schema : Schema) : Skippable (compile definitions schema) := by
  refine .bind (checkReference_skippable definitions "" schema.reference) fun _ => ?_
  have h := (schema_skippable definitions schema).2 schema.required
  obtain ⟨_, _, _, properties, _, required, _, _, _⟩ := schema
  unfold compileObject
  exact .bind h checkMarks_skippable

theorem checkIdentifier_skippable (r : Record) : Skippable r.checkIdentifier := by
  unfold checkIdentifier
  dsimp only
  split
  · exact .error rfl
  · cases r.identifier? with
    | some f => exact .ok f
    | none => exact .error rfl

end Record

namespace Path

theorem name_skippable (path : String) : Skippable (name path) := by
  unfold name
  split
  · exact .ok _
  · exact .error rfl

theorem findRoot_skippable (path : String) (known : List String) :
    Skippable (findRoot path known) := by
  unfold findRoot
  cases root? path with
  | none => exact .error rfl
  | some root =>
    dsimp only
    split
    · exact .ok root
    · split
      · exact .ok _
      · exact .error rfl

theorem chainFrom_skippable (fuel : Nat) (done : List Char) (parents : List Parent)
    (kept rest : List Char) : Skippable (chainFrom fuel done parents kept rest) := by
  induction fuel generalizing done parents kept rest with
  | zero => exact .ok _
  | succ fuel ih =>
    cases rest with
    | nil => exact .ok _
    | cons c rest =>
      rw [chainFrom]
      cases step? (c :: rest) with
      | none => exact ih _ _ _ _
      | some step =>
        obtain ⟨segment, parameter, tail⟩ := step
        have hname := (name_skippable (String.ofList segment)).map fun n => n.render none
        dsimp only
        split
        · exact .ok _
        · cases hn : resourceName (String.ofList segment) with
          | error e => exact .error (hname e hn)
          | ok name => exact ih _ _ _ _

theorem chain_skippable (path : String) : Skippable (chain path) := chainFrom_skippable _ _ _ _ _

end Path

theorem Swagger.Schema.merge_skippable (request response : Schema) :
    Skippable (request.merge response) := by
  unfold Schema.merge
  split
  · exact .ok _
  · exact .error rfl

theorem Operation.compile_skippable (op : Swagger.Operation)
    (pathParameters : List Swagger.Parameter) (schemes : Security.Schemes) :
    Skippable (compile op pathParameters schemes) := by
  unfold compile
  cases op.extensions.text? resourceTimeoutKey with
  | none => exact .ok _
  | some value =>
    refine .bind (.map _ ?_) fun _ => .ok _
    unfold Duration.parseTimeout
    cases Duration.parse value with
    | ok duration => exact .ok duration
    | error fault => exact .error rfl

namespace Analysis

variable (document : Document) (schemes : Security.Schemes)

theorem resourceSchema_skippable (path : String) (post : Swagger.Operation) :
    Skippable (resourceSchema path post) := by
  unfold resourceSchema
  cases post.bodySchema? with
  | none =>
    cases returnedSchema? post with
    | none => exact .error rfl
    | some response =>
      dsimp only
      split
      · exact .error rfl
      · exact .ok _
  | some body =>
    dsimp only
    split
    · exact .error rfl
    · cases returnedSchema? post with
      | none => exact .ok _
      | some response =>
        dsimp only
        split
        · exact .ok _
        · exact .map _ (inResource_skippable path (body.merge_skippable response))

theorem candidate_skippable (path : String) (item : PathItem) :
    Skippable (candidate document path item) := by
  unfold candidate
  cases objectGet? item with
  | none => exact .error rfl
  | some get =>
    refine .bind (Path.findRoot_skippable path _) fun root => ?_
    cases document.paths.get? root with
    | none => exact .error rfl
    | some rootItem =>
      cases hpost : rootItem.post with
      | none =>
        dsimp only
        rw [hpost]
        exact .error rfl
      | some post =>
        dsimp only
        rw [hpost]
        exact .bind (resourceSchema_skippable path post) fun _ => .ok _

theorem parentsFrom_skippable (path : String) (names : List String) (parents : List Parent)
    (chain : List Path.Parent) : Skippable (parentsFrom document path names parents chain) := by
  induction chain generalizing names parents with
  | nil => exact .ok _
  | cons p rest ih =>
    rw [parentsFrom]
    cases item? document p.root with
    | none => exact .error rfl
    | some rootItem =>
      dsimp only
      split
      · exact .error rfl
      · split
        · exact .error rfl
        · exact .bind (Path.name_skippable p.root) fun name => ih _ _

theorem parentsOf_skippable (path : String) : Skippable (parentsOf document path) :=
  .bind (Path.chain_skippable path) fun _ => parentsFrom_skippable document path _ _ _

theorem optionally_skippable {α β : Type} {f : α → Except Error β} (hf : ∀ a, Skippable (f a))
    (a : Option α) : Skippable (optionally f a) := by
  cases a with
  | none => exact .ok none
  | some a => exact .map some (hf a)

theorem draft_skippable (path : String) (item : PathItem) :
    Skippable (draft document schemes path item) := by
  refine .bind (candidate_skippable document path item) fun c => ?_
  refine .bind (inResource_skippable _ (Record.compile_skippable _ _)) fun record => ?_
  refine .bind (inResource_skippable _ record.checkIdentifier_skippable) fun _ => ?_
  refine .bind (parentsOf_skippable document path) fun _ => ?_
  refine .bind (Path.name_skippable c.root) fun own => ?_
  refine .bind (inResource_skippable _ (Operation.compile_skippable _ _ _)) fun post => ?_
  refine .bind (inResource_skippable _ (Operation.compile_skippable _ _ _)) fun get => ?_
  refine .bind (inResource_skippable _ (optionally_skippable ?_ _)) fun put => ?_
  · exact fun op => Operation.compile_skippable op _ _
  refine .bind (inResource_skippable _ (optionally_skippable ?_ _)) fun delete => .ok _
  exact fun op => Operation.compile_skippable op _ _

theorem dataSourceAt_skippable (path : String) (item : PathItem) :
    Skippable (dataSourceAt document schemes path item) := by
  unfold dataSourceAt
  cases item.get.bind fun get => (itemSchema? get).map fun items => (get, items) with
  | none => exact .ok none
  | some found =>
    refine .bind (inResource_skippable _ (Record.compile_skippable _ _)) fun record => ?_
    refine .bind (parentsOf_skippable document path) fun _ => ?_
    refine .bind (Path.name_skippable path) fun own => ?_
    exact .bind (inResource_skippable _ (Operation.compile_skippable _ _ _)) fun get => .ok _

end Analysis

end SwaggerProvider
