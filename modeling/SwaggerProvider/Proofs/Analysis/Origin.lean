import SwaggerProvider.Analysis
import SwaggerProvider.Proofs.Outcome

/-!
Where the resources of an analysis come from: each instance path has one draft, which is copied
under the name and host of each region and entered, unless its name is taken.
-/

set_option autoImplicit false

namespace SwaggerProvider

open Swagger (Document PathItem)

theorem Operation.compile_eq_ok {op : Swagger.Operation} {parameters : List Swagger.Parameter}
    {schemes : Security.Schemes} {operation : Operation}
    (h : Operation.compile op parameters schemes = .ok operation) :
    operation.headers = Header.ofParameters (parameters ++ op.parameters) ∧
      operation.security = schemes.requirements op.security := by
  unfold Operation.compile at h
  split at h
  · obtain ⟨timeout, -, h⟩ := Except.bind_eq_ok.1 h
    cases h
    exact ⟨rfl, rfl⟩
  · cases h
    exact ⟨rfl, rfl⟩

namespace Analysis

variable {document : Document} {schemes : Security.Schemes} {path : String} {item : PathItem}

theorem inResource_eq_ok {α : Type} {name : String} {x : Except Error α} {a : α} :
    inResource name x = .ok a ↔ x = .ok a :=
  Except.mapError_eq_ok

structure Drafted (document : Document) (path : String) (item : PathItem) (r : Resource)
    (c : Candidate) : Prop where
  candidate : candidate document path item = .ok c
  record : Record.compile document.definitions c.schema = .ok r.record
  identifier : ∃ f, r.record.checkIdentifier = .ok f
  parents : ∃ names, parentsOf document path = .ok (names, r.parents)
  root : r.root = c.root
  instancePath : r.instancePath = path

def Titled (document : Document) (path : String) (r : Resource) (c : Candidate) : Prop :=
  ∃ names own, parentsOf document path = .ok (names, r.parents) ∧ Path.name c.root = .ok own ∧
    r.name = joinNames names (own.render (preferredName (some c.post)))

theorem draft_eq_ok {r : Resource} {post : Swagger.Operation}
    (h : draft document schemes path item = .ok (r, post)) :
    ∃ c, Drafted document path item r c ∧ post = c.post ∧ Titled document path r c := by
  obtain ⟨c, hc, h⟩ := Except.bind_eq_ok.1 h
  obtain ⟨record, hrecord, h⟩ := Except.bind_eq_ok.1 h
  obtain ⟨f, hf, h⟩ := Except.bind_eq_ok.1 h
  obtain ⟨⟨names, parents⟩, hparents, h⟩ := Except.bind_eq_ok.1 h
  obtain ⟨own, hown, h⟩ := Except.bind_eq_ok.1 h
  obtain ⟨_, _, h⟩ := Except.bind_eq_ok.1 h
  obtain ⟨_, _, h⟩ := Except.bind_eq_ok.1 h
  obtain ⟨_, _, h⟩ := Except.bind_eq_ok.1 h
  obtain ⟨_, _, h⟩ := Except.bind_eq_ok.1 h
  cases h
  exact ⟨c, ⟨hc, inResource_eq_ok.1 hrecord, ⟨f, inResource_eq_ok.1 hf⟩, ⟨names, hparents⟩, rfl,
    rfl⟩, rfl, names, own, hparents, hown, rfl⟩

theorem resourcesAt_of_error {e : Error} (h : draft document schemes path item = .error e) :
    resourcesAt document schemes path item = .error e := by
  unfold resourcesAt
  rw [h]
  rfl

theorem resourcesAt_of_ok {base : Resource} {post : Swagger.Operation}
    (h : draft document schemes path item = .ok (base, post)) :
    resourcesAt document schemes path item = (hosts document base.name post).map fun hosted =>
      hosted.map fun e => { base with name := e.1, host := e.2 } := by
  unfold resourcesAt
  rw [h]
  rfl

theorem resourcesAt_eq_ok {found : List Resource}
    (h : resourcesAt document schemes path item = .ok found) :
    ∃ base post hosted, draft document schemes path item = .ok (base, post) ∧
      hosts document base.name post = .ok hosted ∧
      found = hosted.map fun e => { base with name := e.1, host := e.2 } := by
  cases hdraft : draft document schemes path item with
  | error e =>
    rw [resourcesAt_of_error hdraft] at h
    cases h
  | ok drafted =>
    rw [resourcesAt_of_ok hdraft] at h
    obtain ⟨hosted, hhosted, rfl⟩ := Except.map_eq_ok.1 h
    exact ⟨drafted.1, drafted.2, hosted, rfl, hhosted, rfl⟩

theorem drafted_of_mem {found : List Resource} {r : Resource}
    (h : resourcesAt document schemes path item = .ok found) (hr : r ∈ found) :
    ∃ c, Drafted document path item r c := by
  obtain ⟨base, post, hosted, hdraft, -, rfl⟩ := resourcesAt_eq_ok h
  obtain ⟨c, hc, -⟩ := draft_eq_ok hdraft
  obtain ⟨e, -, rfl⟩ := List.mem_map.1 hr
  exact ⟨c, ⟨hc.candidate, hc.record, hc.identifier, hc.parents, hc.root, hc.instancePath⟩⟩

theorem finding_resources {found : List Resource}
    (h : finding document schemes path item = .ok (.resources found)) :
    resourcesAt document schemes path item = .ok found := by
  unfold finding at h
  split at h
  · split at h
    · next hr =>
      cases h
      exact hr
    · split at h <;> cases h
  · split at h
    · cases h
    · split at h <;> cases h

structure Collected (document : Document) (path : String) (d : DataSource) : Prop where
  parents : ∃ names, parentsOf document path = .ok (names, d.parents)
  path : d.path = path

theorem dataSourceAt_eq_ok {d : DataSource}
    (h : dataSourceAt document schemes path item = .ok (some d)) :
    Collected document path d ∧ d.host = dataSourceHost item ∧
      ∃ get, item.get = some get ∧ Operation.compile get item.parameters schemes = .ok d.get := by
  unfold dataSourceAt at h
  split at h
  · cases h
  · next get items hget =>
    obtain ⟨record, _, h⟩ := Except.bind_eq_ok.1 h
    obtain ⟨⟨names, parents⟩, hparents, h⟩ := Except.bind_eq_ok.1 h
    obtain ⟨own, _, h⟩ := Except.bind_eq_ok.1 h
    obtain ⟨compiled, hcompiled, h⟩ := Except.bind_eq_ok.1 h
    cases h
    obtain ⟨source, hsource, hitems⟩ := Option.bind_eq_some_iff.1 hget
    obtain ⟨_, -, hpair⟩ := Option.map_eq_some_iff.1 hitems
    cases hpair
    exact ⟨⟨⟨names, hparents⟩, rfl⟩, rfl, _, hsource, inResource_eq_ok.1 hcompiled⟩

theorem finding_dataSource {d : DataSource}
    (h : finding document schemes path item = .ok (.dataSource (some d))) :
    dataSourceAt document schemes path item = .ok (some d) := by
  unfold finding at h
  split at h
  · split at h
    · cases h
    · split at h <;> cases h
  · split at h
    · next hd =>
      cases h
      exact hd
    · split at h <;> cases h

theorem findings_eq_ok {paths : List (String × PathItem)}
    {found : List (String × PathItem × Finding)}
    (h : findings document schemes paths = .ok found) :
    found.map (fun f => (f.1, f.2.1)) = paths ∧
      ∀ f ∈ found, finding document schemes f.1 f.2.1 = .ok f.2.2 := by
  induction paths generalizing found with
  | nil =>
    cases h
    exact ⟨rfl, fun f hf => by simp at hf⟩
  | cons e rest ih =>
    obtain ⟨first, hfirst, h⟩ := Except.bind_eq_ok.1 h
    obtain ⟨more, hmore, h⟩ := Except.bind_eq_ok.1 h
    cases h
    obtain ⟨hpaths, hfound⟩ := ih hmore
    refine ⟨by rw [List.map_cons, hpaths], fun f hf => ?_⟩
    rcases List.mem_cons.1 hf with rfl | hf
    · exact hfirst
    · exact hfound f hf

def addAll (document : Document) (analysis : Analysis)
    (found : List (String × PathItem × Finding)) : Analysis :=
  found.foldl (fun analysis (path, item, finding) => analysis.add document path item finding)
    analysis

theorem mem_addResources {analysis : Analysis} {found : List Resource} {r : Resource}
    (h : r ∈ (found.foldl (addResource path) analysis).resources) :
    r ∈ analysis.resources ∨ r ∈ found := by
  induction found generalizing analysis with
  | nil => exact .inl h
  | cons first rest ih =>
    rcases ih h with h | h
    · unfold addResource at h
      dsimp only at h
      split at h
      · exact .inl h
      · rcases List.mem_append.1 h with h | h
        · exact .inl h
        · exact .inr (List.mem_singleton.1 h ▸ List.mem_cons_self)
    · exact .inr (List.mem_cons_of_mem _ h)

theorem mem_add {analysis : Analysis} {finding : Finding} {r : Resource}
    (h : r ∈ (analysis.add document path item finding).resources) :
    r ∈ analysis.resources ∨ ∃ found, finding = .resources found ∧ r ∈ found := by
  cases finding with
  | resources found =>
    rcases mem_addResources h with h | h
    · exact .inl h
    · exact .inr ⟨found, rfl, h⟩
  | skippedResource e => exact .inl h
  | skippedDataSource e => exact .inl h
  | dataSource d =>
    cases d with
    | none => exact .inl h
    | some d =>
      change r ∈ (addDataSource path _ d).resources at h
      unfold addDataSource at h
      split at h <;> exact .inl h

theorem dataSources_addResources (path : String) (analysis : Analysis) (found : List Resource) :
    (found.foldl (addResource path) analysis).dataSources = analysis.dataSources := by
  induction found generalizing analysis with
  | nil => rfl
  | cons first rest ih =>
    rw [List.foldl_cons, ih]
    unfold addResource
    dsimp only
    split <;> rfl

theorem mem_add_dataSources {analysis : Analysis} {finding : Finding} {d : DataSource}
    (h : d ∈ (analysis.add document path item finding).dataSources) :
    d ∈ analysis.dataSources ∨ finding = .dataSource (some d) := by
  cases finding with
  | resources found =>
    have hsame := dataSources_addResources path (analysis.say (notes document path item)) found
    exact .inl (hsame ▸ h)
  | skippedResource e => exact .inl h
  | skippedDataSource e => exact .inl h
  | dataSource found =>
    cases found with
    | none => exact .inl h
    | some found =>
      change d ∈ (addDataSource path _ found).dataSources at h
      unfold addDataSource at h
      split at h
      · exact .inl h
      · rcases List.mem_append.1 h with h | h
        · exact .inl h
        · exact .inr (by rw [List.mem_singleton.1 h])

theorem mem_addAll_dataSources {analysis : Analysis}
    {found : List (String × PathItem × Finding)} {d : DataSource}
    (h : d ∈ (addAll document analysis found).dataSources) :
    d ∈ analysis.dataSources ∨ ∃ f ∈ found, f.2.2 = .dataSource (some d) := by
  induction found generalizing analysis with
  | nil => exact .inl h
  | cons f rest ih =>
    rcases ih h with h | ⟨g, hg, hd⟩
    · rcases mem_add_dataSources h with h | hd
      · exact .inl h
      · exact .inr ⟨f, List.mem_cons_self, hd⟩
    · exact .inr ⟨g, List.mem_cons_of_mem _ hg, hd⟩

theorem mem_addAll {analysis : Analysis} {found : List (String × PathItem × Finding)}
    {r : Resource} (h : r ∈ (addAll document analysis found).resources) :
    r ∈ analysis.resources ∨ ∃ f ∈ found, ∃ rs, f.2.2 = .resources rs ∧ r ∈ rs := by
  induction found generalizing analysis with
  | nil => exact .inl h
  | cons f rest ih =>
    rcases ih h with h | ⟨g, hg, hr⟩
    · rcases mem_add h with h | hr
      · exact .inl h
      · exact .inr ⟨f, List.mem_cons_self, hr⟩
    · exact .inr ⟨g, List.mem_cons_of_mem _ hg, hr⟩

structure SameBasis (a b : Analysis) : Prop where
  backend : a.backend = b.backend
  security : a.security = b.security
  headers : a.headers = b.headers

theorem SameBasis.trans {a b c : Analysis} (h : SameBasis a b) (h' : SameBasis b c) :
    SameBasis a c where
  backend := h.backend.trans h'.backend
  security := h.security.trans h'.security
  headers := h.headers.trans h'.headers

theorem sameBasis_addResource (analysis : Analysis) (path : String) (r : Resource) :
    SameBasis (addResource path analysis r) analysis := by
  unfold addResource
  dsimp only
  split <;> exact ⟨rfl, rfl, rfl⟩

theorem sameBasis_addDataSource (analysis : Analysis) (path : String) (d : DataSource) :
    SameBasis (addDataSource path analysis d) analysis := by
  unfold addDataSource
  split <;> exact ⟨rfl, rfl, rfl⟩

theorem sameBasis_add (analysis : Analysis) (path : String) (item : PathItem)
    (finding : Finding) : SameBasis (analysis.add document path item finding) analysis := by
  cases finding with
  | resources found =>
    have hfound (a : Analysis) : SameBasis (found.foldl (addResource path) a) a := by
      induction found generalizing a with
      | nil => exact ⟨rfl, rfl, rfl⟩
      | cons r rest ih => exact (ih _).trans (sameBasis_addResource a path r)
    exact (hfound _).trans ⟨rfl, rfl, rfl⟩
  | skippedResource e => exact ⟨rfl, rfl, rfl⟩
  | skippedDataSource e => exact ⟨rfl, rfl, rfl⟩
  | dataSource found =>
    cases found with
    | none => exact ⟨rfl, rfl, rfl⟩
    | some d => exact (sameBasis_addDataSource _ path d).trans ⟨rfl, rfl, rfl⟩

theorem sameBasis_addAll (analysis : Analysis) (found : List (String × PathItem × Finding)) :
    SameBasis (addAll document analysis found) analysis := by
  induction found generalizing analysis with
  | nil => exact ⟨rfl, rfl, rfl⟩
  | cons f rest ih => exact (ih _).trans (sameBasis_add analysis f.1 f.2.1 f.2.2)

end Analysis

theorem analyse_eq (document : Document) (url : String) :
    analyse document url = (Backend.ofDocument document url).bind fun backend =>
      (Analysis.findings document (Security.Schemes.ofDocument document) document.paths).bind
        fun found => .ok (Analysis.addAll document
          (Analysis.start document backend (Security.Schemes.ofDocument document)) found) := rfl

theorem analyse_eq_ok {document : Document} {url : String} {analysis : Analysis} :
    analyse document url = .ok analysis ↔ ∃ backend found,
      Backend.ofDocument document url = .ok backend ∧
      Analysis.findings document (Security.Schemes.ofDocument document) document.paths = .ok found ∧
      Analysis.addAll document (Analysis.start document backend
        (Security.Schemes.ofDocument document)) found = analysis := by
  rw [analyse_eq, Except.bind_eq_ok]
  simp only [Except.bind_eq_ok, Except.ok.injEq, ← exists_and_left]

theorem sameBasis_of_analyse {document : Document} {url : String} {analysis : Analysis}
    (h : analyse document url = .ok analysis) :
    ∃ backend, Backend.ofDocument document url = .ok backend ∧ Analysis.SameBasis analysis
      (Analysis.start document backend (Security.Schemes.ofDocument document)) := by
  obtain ⟨backend, found, hbackend, -, rfl⟩ := analyse_eq_ok.1 h
  exact ⟨backend, hbackend, Analysis.sameBasis_addAll _ found⟩

theorem exists_resourcesAt {document : Document} {url : String} {analysis : Analysis}
    {r : Resource} (h : analyse document url = .ok analysis) (hr : r ∈ analysis.resources) :
    ∃ path item found, (path, item) ∈ document.paths ∧
      Analysis.resourcesAt document (Security.Schemes.ofDocument document) path item = .ok found ∧
      r ∈ found := by
  obtain ⟨backend, found, -, hfound, rfl⟩ := analyse_eq_ok.1 h
  rcases Analysis.mem_addAll hr with hr | ⟨f, hf, rs, hrs, hr⟩
  · exact absurd hr List.not_mem_nil
  · obtain ⟨hpaths, hfindings⟩ := Analysis.findings_eq_ok hfound
    have hf' := hfindings f hf
    rw [hrs] at hf'
    have hmem : (f.1, f.2.1) ∈ document.paths := by
      rw [← hpaths]
      exact List.mem_map_of_mem hf
    exact ⟨f.1, f.2.1, rs, hmem, Analysis.finding_resources hf', hr⟩

theorem exists_drafted {document : Document} {url : String} {analysis : Analysis} {r : Resource}
    (h : analyse document url = .ok analysis) (hr : r ∈ analysis.resources) :
    ∃ item c, (r.instancePath, item) ∈ document.paths ∧
      Analysis.Drafted document r.instancePath item r c := by
  obtain ⟨path, item, found, hmem, hfound, hr⟩ := exists_resourcesAt h hr
  obtain ⟨c, hc⟩ := Analysis.drafted_of_mem hfound hr
  rw [hc.instancePath]
  exact ⟨item, c, hmem, hc⟩

theorem exists_name {document : Document} {url : String} {analysis : Analysis} {r : Resource}
    (h : analyse document url = .ok analysis) (hr : r ∈ analysis.resources) :
    ∃ name, Path.name r.root = .ok name := by
  obtain ⟨path, item, found, -, hfound, hr⟩ := exists_resourcesAt h hr
  obtain ⟨base, post, hosted, hdraft, -, rfl⟩ := Analysis.resourcesAt_eq_ok hfound
  obtain ⟨c, hc, -, -, name, -, hname, -⟩ := Analysis.draft_eq_ok hdraft
  obtain ⟨e, -, rfl⟩ := List.mem_map.1 hr
  exact ⟨name, hc.root ▸ hname⟩

theorem exists_dataSourceAt {document : Document} {url : String} {analysis : Analysis}
    {d : DataSource} (h : analyse document url = .ok analysis) (hd : d ∈ analysis.dataSources) :
    ∃ path item, (path, item) ∈ document.paths ∧
      Analysis.dataSourceAt document (Security.Schemes.ofDocument document) path item =
        .ok (some d) := by
  obtain ⟨backend, found, -, hfound, rfl⟩ := analyse_eq_ok.1 h
  rcases Analysis.mem_addAll_dataSources hd with hd | ⟨f, hf, hd⟩
  · exact absurd hd List.not_mem_nil
  · obtain ⟨hpaths, hfindings⟩ := Analysis.findings_eq_ok hfound
    have hfinding := hfindings f hf
    rw [hd] at hfinding
    have hmem : (f.1, f.2.1) ∈ document.paths := by
      rw [← hpaths]
      exact List.mem_map_of_mem hf
    exact ⟨f.1, f.2.1, hmem, Analysis.finding_dataSource hfinding⟩

theorem exists_collected {document : Document} {url : String} {analysis : Analysis}
    {d : DataSource} (h : analyse document url = .ok analysis) (hd : d ∈ analysis.dataSources) :
    Analysis.Collected document d.path d := by
  obtain ⟨path, item, -, hfound⟩ := exists_dataSourceAt h hd
  obtain ⟨hcollected, -⟩ := Analysis.dataSourceAt_eq_ok hfound
  exact hcollected.path ▸ hcollected

theorem exists_resource {β : Type} {document : Document} {url : String} {view : Resource → β}
    {seen : List β} {b : β}
    (h : (analyse document url).toOption.map (fun a => a.resources.map view) = some seen)
    (hb : b ∈ seen) :
    ∃ analysis, ∃ r ∈ analysis.resources, analyse document url = .ok analysis ∧ view r = b := by
  obtain ⟨analysis, hresult, rfl⟩ := Except.toOption_map_eq_some.1 h
  obtain ⟨r, hr, hview⟩ := List.mem_map.1 hb
  exact ⟨analysis, r, hr, hresult, hview⟩

end SwaggerProvider
