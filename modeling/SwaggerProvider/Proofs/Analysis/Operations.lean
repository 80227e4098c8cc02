import SwaggerProvider.Proofs.Analysis.Grounding

/-!
Where the operations of an analysis come from: each was compiled from an operation of a path that
the document declares, with the parameters of the path before its own.
-/

set_option autoImplicit false

namespace SwaggerProvider

open Swagger (Document Method PathItem)

/-- An operation with the place where it is called. -/
structure Route where
  path : String
  method : Method
  operation : Operation

/-- A resource is created at its root path, all else happens at its instance path. -/
def Resource.routes (r : Resource) : List Route :=
  ⟨r.root, .post, r.post⟩ :: ⟨r.instancePath, .get, r.get⟩ ::
    ((r.put.toList.map fun op => ⟨r.instancePath, .put, op⟩) ++
      r.delete.toList.map fun op => ⟨r.instancePath, .delete, op⟩)

def DataSource.route (d : DataSource) : Route := ⟨d.path, .get, d.get⟩

namespace Analysis

def routes (a : Analysis) : List Route :=
  a.resources.flatMap Resource.routes ++ a.dataSources.map DataSource.route

def Compiled (document : Document) (route : Route) : Prop :=
  ∃ item source, (route.path, item) ∈ document.paths ∧
    item.operation? route.method = some source ∧
    Operation.compile source item.parameters (Security.Schemes.ofDocument document) =
      .ok route.operation

theorem optionally_eq_some {α β : Type} {f : α → Except Error β} {given : Option α} {b : β}
    (h : optionally f given = .ok (some b)) : ∃ a, given = some a ∧ f a = .ok b := by
  cases given with
  | none => cases h
  | some a =>
    obtain ⟨found, hfound, hb⟩ := Except.map_eq_ok.1 h
    cases hb
    exact ⟨a, rfl, hfound⟩

theorem compiled_of_draft {document : Document} {path : String} {item : PathItem} {r : Resource}
    {creating : Swagger.Operation} (hmem : (path, item) ∈ document.paths)
    (h : draft document (Security.Schemes.ofDocument document) path item = .ok (r, creating)) :
    ∀ route ∈ r.routes, Compiled document route := by
  obtain ⟨c, hc, h⟩ := Except.bind_eq_ok.1 h
  obtain ⟨record, _, h⟩ := Except.bind_eq_ok.1 h
  obtain ⟨f, _, h⟩ := Except.bind_eq_ok.1 h
  obtain ⟨⟨names, parents⟩, _, h⟩ := Except.bind_eq_ok.1 h
  obtain ⟨own, _, h⟩ := Except.bind_eq_ok.1 h
  obtain ⟨post, hpost, h⟩ := Except.bind_eq_ok.1 h
  obtain ⟨get, hget, h⟩ := Except.bind_eq_ok.1 h
  obtain ⟨put, hput, h⟩ := Except.bind_eq_ok.1 h
  obtain ⟨delete, hdelete, h⟩ := Except.bind_eq_ok.1 h
  cases h
  obtain ⟨hobject, -, hrootItem, hrootPost, -⟩ := candidate_eq_ok hc
  obtain ⟨hitem, -⟩ := objectGet?_eq_some hobject
  have hcreates : Compiled document ⟨c.root, .post, post⟩ :=
    ⟨c.rootItem, c.post, Table.mem_of_get? hrootItem, hrootPost, inResource_eq_ok.1 hpost⟩
  have hreads : Compiled document ⟨path, .get, get⟩ :=
    ⟨item, c.get, hmem, hitem, inResource_eq_ok.1 hget⟩
  have hupdates : ∀ op, put = some op → Compiled document ⟨path, .put, op⟩ := by
    rintro op rfl
    obtain ⟨source, hsource, hop⟩ := optionally_eq_some (inResource_eq_ok.1 hput)
    exact ⟨item, source, hmem, hsource, hop⟩
  have hdeletes : ∀ op, delete = some op → Compiled document ⟨path, .delete, op⟩ := by
    rintro op rfl
    obtain ⟨source, hsource, hop⟩ := optionally_eq_some (inResource_eq_ok.1 hdelete)
    exact ⟨item, source, hmem, hsource, hop⟩
  simpa [Resource.routes, or_imp, forall_and] using ⟨hcreates, hreads, hupdates, hdeletes⟩

theorem compiled_of_dataSourceAt {document : Document} {path : String} {item : PathItem}
    {d : DataSource} (hmem : (path, item) ∈ document.paths)
    (h : dataSourceAt document (Security.Schemes.ofDocument document) path item = .ok (some d)) :
    Compiled document d.route := by
  obtain ⟨hcollected, -, source, hsource, hcompiled⟩ := dataSourceAt_eq_ok h
  have hpath : (d.path, item) ∈ document.paths := hcollected.path ▸ hmem
  exact ⟨item, source, hpath, hsource, hcompiled⟩

end Analysis

theorem compiled_of_mem_routes {document : Document} {url : String} {analysis : Analysis}
    (h : analyse document url = .ok analysis) {route : Route} (hroute : route ∈ analysis.routes) :
    Analysis.Compiled document route := by
  rcases List.mem_append.1 hroute with hroute | hroute
  · obtain ⟨r, hr, hroute⟩ := List.mem_flatMap.1 hroute
    obtain ⟨path, item, found, hmem, hfound, hr⟩ := exists_resourcesAt h hr
    obtain ⟨base, creating, hosted, hdraft, -, rfl⟩ := Analysis.resourcesAt_eq_ok hfound
    obtain ⟨e, -, rfl⟩ := List.mem_map.1 hr
    exact Analysis.compiled_of_draft hmem hdraft route hroute
  · obtain ⟨d, hd, rfl⟩ := List.mem_map.1 hroute
    obtain ⟨path, item, hmem, hfound⟩ := exists_dataSourceAt h hd
    exact Analysis.compiled_of_dataSourceAt hmem hfound

end SwaggerProvider
