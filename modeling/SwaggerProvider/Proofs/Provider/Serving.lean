import SwaggerProvider.Provider
import SwaggerProvider.Proofs.Analysis.Accounting
import SwaggerProvider.Proofs.Lifecycle.Runs
import Mathlib.Data.List.Nodup

/-!
Data sources as they are published and as they are served. Each has a handler that reads it and a
schema that describes it. A collection is read before an instance of the same name, but the instance
is the one that is published, so the two go together where no collection has the name of an
instance.
-/

set_option autoImplicit false

namespace SwaggerProvider

open Analysis (typeName instanceSuffix)
open Http (Run Timeline)

namespace Provider

variable {p : Provider}

namespace DataHandler

def schema : DataHandler → TypeSchema
  | .collection d => Publish.dataSource d
  | .byId r => Publish.instanceSource r

def read (client : Client) (config : Members) : DataHandler → Run ResourceState
  | .collection d => Lifecycle.select d client config
  | .byId r => Lifecycle.readById r client config

end DataHandler

def handler? (p : Provider) (type : String) : Option DataHandler :=
  (p.localName? type).bind p.dataHandler?

def collection? (p : Provider) (type : String) : Option DataSource :=
  p.analysis.dataSources.find? fun d => typeName p.name d.name == type

def byId? (p : Provider) (type : String) : Option Resource :=
  p.analysis.offered.find? fun r => typeName p.name (r.name ++ instanceSuffix) == type

theorem localName?_eq_some_iff (type name : String) :
    p.localName? type = some name ↔ typeName p.name name = type := by
  unfold localName? typeName
  rw [Option.map_eq_some_iff]
  constructor
  · rintro ⟨rest, hrest, rfl⟩
    rw [Text.after?_eq_some_iff] at hrest
    rw [← String.toList_inj, hrest]
    simp
  · rintro rfl
    refine ⟨name.toList, ?_, String.ofList_toList⟩
    simp [Text.after?_eq_some_iff]

theorem instanceName?_eq_some_iff (name front : String) :
    instanceName? name = some front ↔ front ++ instanceSuffix = name := by
  unfold instanceName?
  rw [Option.map_eq_some_iff]
  constructor
  · rintro ⟨cs, hcs, rfl⟩
    rw [Text.before?_eq_some_iff] at hcs
    rw [← String.toList_inj, hcs]
    simp
  · rintro rfl
    refine ⟨front.toList, ?_, String.ofList_toList⟩
    simp [Text.before?_eq_some_iff]

theorem typeName_inj {provider name other : String} :
    typeName provider name = typeName provider other ↔ name = other := by
  simp [typeName]

theorem collection?_of_localName? {type name : String} (h : p.localName? type = some name) :
    p.collection? type = p.analysis.dataSources.find? fun d => d.name == name := by
  have hname (d : DataSource) :
      (typeName p.name d.name == type) = (d.name == name) := by
    rw [← (localName?_eq_some_iff type name).1 h, Bool.eq_iff_iff, beq_iff_eq, beq_iff_eq,
      typeName_inj]
  simp only [collection?, hname]

theorem byId?_of_localName? {type name : String} (h : p.localName? type = some name) :
    p.byId? type = (instanceName? name).bind p.offered? := by
  have htype := (localName?_eq_some_iff type name).1 h
  cases hfront : instanceName? name with
  | none =>
    refine List.find?_eq_none.2 fun r _ hr => ?_
    rw [← htype, beq_iff_eq, typeName_inj, ← instanceName?_eq_some_iff, hfront] at hr
    cases hr
  | some front =>
    have hname (r : Resource) :
        (typeName p.name (r.name ++ instanceSuffix) == type) = (r.name == front) := by
      rw [← htype, ← (instanceName?_eq_some_iff name front).1 hfront, Bool.eq_iff_iff, beq_iff_eq,
        beq_iff_eq, typeName_inj, String.append_left_inj]
    simp only [byId?, hname]
    rfl

theorem handler?_eq (type : String) :
    p.handler? type =
      ((p.collection? type).map .collection).or ((p.byId? type).map .byId) := by
  unfold handler?
  cases h : p.localName? type with
  | none =>
    have hforeign (name : String) : ¬(typeName p.name name == type) = true := by
      rw [beq_iff_eq, ← localName?_eq_some_iff, h]
      simp
    have hcollection : p.collection? type = none := List.find?_eq_none.2 fun d _ => hforeign _
    have hbyId : p.byId? type = none := List.find?_eq_none.2 fun r _ => hforeign _
    rw [hcollection, hbyId]
    rfl
  | some name =>
    rw [collection?_of_localName? h, byId?_of_localName? h, Option.bind_some, dataHandler?]
    cases p.analysis.dataSources.find? fun d => d.name == name <;> rfl

section Names

variable {ι : Type} {items : List ι} {key : ι → String}

theorem nodup_keys {name : ι → String} (around : String → String)
    (haround : Function.Injective around) (hnames : (items.map name).Nodup) :
    (items.map fun i => around (name i)).Nodup := by
  have hmap : (items.map fun i => around (name i)) = (items.map name).map around := by simp
  rw [hmap]
  exact List.Nodup.map haround hnames

theorem find?_eq_some_iff (hkeys : (items.map key).Nodup) (k : String) (i : ι) :
    (items.find? fun i => key i == k) = some i ↔ i ∈ items ∧ key i = k := by
  constructor
  · intro h
    exact ⟨List.mem_of_find?_eq_some h, by simpa using List.find?_some h⟩
  · rintro ⟨hi, rfl⟩
    have hsome : (items.find? fun j => key j == key i).isSome = true :=
      List.find?_isSome.2 ⟨i, hi, beq_self_eq_true _⟩
    obtain ⟨j, hj⟩ := Option.isSome_iff_exists.1 hsome
    have hname : key j = key i := by simpa using List.find?_some hj
    rw [hj, List.inj_on_of_nodup_map hkeys (List.mem_of_find?_eq_some hj) hi hname]

end Names

theorem nodup_collections (hnames : p.analysis.NamesDiffer) :
    (p.analysis.dataSources.map fun d => typeName p.name d.name).Nodup :=
  nodup_keys (typeName p.name) (fun _ _ => typeName_inj.1) hnames.dataSources

theorem nodup_instances (hnames : p.analysis.NamesDiffer) :
    (p.analysis.offered.map fun r => typeName p.name (r.name ++ instanceSuffix)).Nodup := by
  have hoffered : (p.analysis.offered.map Resource.name).Nodup :=
    hnames.resources.sublist (List.filter_sublist.map _)
  refine nodup_keys (fun name => typeName p.name (name ++ instanceSuffix)) ?_ hoffered
  intro name other h
  exact (String.append_left_inj _).1 (typeName_inj.1 h)

theorem published_eq (hnames : p.analysis.NamesDiffer) (type : String) :
    p.schema.dataSources.get? type =
      ((p.byId? type).map Publish.instanceSource).or
        ((p.collection? type).map Publish.dataSource) := by
  have hcollections : (Table.keys (p.analysis.dataSources.map fun d =>
      (typeName p.name d.name, Publish.dataSource d))).Nodup := by
    simpa [Table.keys, Function.comp_def] using nodup_collections hnames
  have hinstances : (Table.keys (p.analysis.offered.map fun r =>
      (typeName p.name (r.name ++ instanceSuffix), Publish.instanceSource r))).Nodup := by
    simpa [Table.keys, Function.comp_def] using nodup_instances hnames
  unfold schema Analysis.providerSchema
  rw [Table.get?_sorted, List.reverse_append, Table.get?_append,
    Table.get?_reverse hcollections, Table.get?_reverse hinstances, Table.get?_map, Table.get?_map]
  rfl

theorem readData_run {client : Client} (hclient : p.client = some client) (type : String)
    (config : Members) (t : Timeline) :
    (p.readData type config).run t =
      match p.handler? type with
      | some handler => (handler.read client config).run t
      | none => (.error (.unknownResource type), t) := by
  have hconfigured : p.configured = .ok client := by rw [configured, hclient]
  unfold readData handler?
  cases p.localName? type with
  | none => rfl
  | some name =>
    dsimp only
    rw [Run.run_lift_ok hconfigured, Option.bind_some]
    cases p.dataHandler? name with
    | none => rfl
    | some handler => cases handler <;> rfl

end Provider

namespace Publish

theorem blocks_withParents (b : Block) (parents : List Parent) :
    (withParents b parents).blocks = b.blocks := by
  induction parents generalizing b with
  | nil => rfl
  | cons p rest ih => exact ih _

theorem dataSource_ne_instanceSource (d : DataSource) (r : Resource) :
    dataSource d ≠ instanceSource r := by
  intro h
  have hblocks := congrArg (fun schema => Table.get? schema.block.blocks filterName) h
  have hcollection : Table.get? (dataSource d).block.blocks filterName = some filterBlock := by
    unfold dataSource Block.withBlock
    rw [Table.get?_insertSorted, if_pos rfl]
  have hinstance : Table.get? (instanceSource r).block.blocks filterName = none := by
    unfold instanceSource Block.withAttribute
    dsimp only
    rw [blocks_withParents]
    rfl
  rw [hcollection, hinstance] at hblocks
  cases hblocks

end Publish

namespace Provider

variable {p : Provider} {document : Swagger.Document} {url : String}

/-- A data source is read by the handler whose schema is published, and every collection and every
instance is published under its own name. -/
structure ServesAsPublished (p : Provider) : Prop where
  served : ∀ type schema, p.schema.dataSources.get? type = some schema →
    ∃ handler, p.handler? type = some handler ∧ handler.schema = schema ∧
      ∀ client config t, p.client = some client →
        (p.readData type config).run t = (handler.read client config).run t
  unknown : ∀ type, p.schema.dataSources.get? type = none → ∀ client config t,
    p.client = some client → (p.readData type config).run t = (.error (.unknownResource type), t)
  collection_iff : ∀ type d, p.handler? type = some (.collection d) ↔
    d ∈ p.analysis.dataSources ∧ typeName p.name d.name = type
  byId_iff : ∀ type r, p.handler? type = some (.byId r) ↔
    r ∈ p.analysis.offered ∧ typeName p.name (r.name ++ instanceSuffix) = type
  collections : ∀ d ∈ p.analysis.dataSources,
    p.schema.dataSources.get? (typeName p.name d.name) = some (Publish.dataSource d)
  instances : ∀ r ∈ p.analysis.offered,
    p.schema.dataSources.get? (typeName p.name (r.name ++ instanceSuffix)) =
      some (Publish.instanceSource r)
  kinds : ∀ d r, Publish.dataSource d ≠ Publish.instanceSource r

theorem collection?_or_byId? (hdiffer : ∀ d ∈ p.analysis.dataSources, ∀ r ∈ p.analysis.offered,
    d.name ≠ r.name ++ instanceSuffix) (type : String) :
    p.collection? type = none ∨ p.byId? type = none := by
  cases hd : p.collection? type with
  | none => exact .inl rfl
  | some d =>
    cases hr : p.byId? type with
    | none => exact .inr rfl
    | some r =>
      have hdname : typeName p.name d.name = type := by simpa using List.find?_some hd
      have hrname : typeName p.name (r.name ++ instanceSuffix) = type := by
        simpa using List.find?_some hr
      exact absurd (typeName_inj.1 (hdname.trans hrname.symm))
        (hdiffer d (List.mem_of_find?_eq_some hd) r (List.mem_of_find?_eq_some hr))

section Analysed

variable (hnames : p.analysis.NamesDiffer)

include hnames

theorem handler?_eq_collection_iff (type : String) (d : DataSource) :
    p.handler? type = some (.collection d) ↔
      d ∈ p.analysis.dataSources ∧ typeName p.name d.name = type := by
  rw [← find?_eq_some_iff (nodup_collections hnames), handler?_eq]
  change _ ↔ p.collection? type = some d
  cases p.collection? type <;> simp

variable (hdiffer : ∀ d ∈ p.analysis.dataSources, ∀ r ∈ p.analysis.offered,
  d.name ≠ r.name ++ instanceSuffix)

include hdiffer

theorem published_of_handler (type : String) :
    p.schema.dataSources.get? type = (p.handler? type).map DataHandler.schema := by
  rw [published_eq hnames, handler?_eq]
  rcases collection?_or_byId? hdiffer type with h | h <;> rw [h] <;>
    simp [Function.comp_def, DataHandler.schema]

theorem handler?_eq_byId_iff (type : String) (r : Resource) :
    p.handler? type = some (.byId r) ↔
      r ∈ p.analysis.offered ∧ typeName p.name (r.name ++ instanceSuffix) = type := by
  rw [← find?_eq_some_iff (nodup_instances hnames), handler?_eq]
  change _ ↔ p.byId? type = some r
  rcases collection?_or_byId? hdiffer type with h | h <;> rw [h] <;> simp

theorem servesAsPublished : p.ServesAsPublished := by
  have hpublished := published_of_handler hnames hdiffer
  have hcollection := handler?_eq_collection_iff hnames
  have hbyId := handler?_eq_byId_iff hnames hdiffer
  refine ⟨?_, ?_, hcollection, hbyId, ?_, ?_, Publish.dataSource_ne_instanceSource⟩
  · intro type schema hschema
    rw [hpublished, Option.map_eq_some_iff] at hschema
    obtain ⟨handler, hhandler, hschema⟩ := hschema
    refine ⟨handler, hhandler, hschema, fun client config t hclient => ?_⟩
    rw [readData_run hclient, hhandler]
  · intro type hnone client config t hclient
    rw [hpublished, Option.map_eq_none_iff] at hnone
    rw [readData_run hclient, hnone]
  · intro d hd
    rw [hpublished, (hcollection _ d).2 ⟨hd, rfl⟩]
    rfl
  · intro r hr
    rw [hpublished, (hbyId _ r).2 ⟨hr, rfl⟩]
    rfl

end Analysed

/-- What is published as a data source is what is read, and nothing else is read, exactly where no
collection has the name that an instance is published under. -/
theorem data_sources_served_as_published (hanalysis : analyse document url = .ok p.analysis) :
    p.ServesAsPublished ↔ ∀ d ∈ p.analysis.dataSources, ∀ r ∈ p.analysis.offered,
      d.name ≠ r.name ++ instanceSuffix := by
  constructor
  · intro h d hd r hr hname
    have hcollection := h.collections d hd
    rw [hname, h.instances r hr] at hcollection
    exact h.kinds d r (Option.some.inj hcollection).symm
  · exact servesAsPublished (Analysis.namesDiffer_of_analyse hanalysis)

def listing (path : String) : Swagger.Document := { Swagger.Document.empty with
  host := some "api.example.com"
  schemes := ["http"]
  paths := [
    ("/cdns", { Swagger.PathItem.empty with
      post := some { Analysis.cdnPost with extensions := [] } }),
    ("/cdns/{id}", { Swagger.PathItem.empty with get := some Analysis.cdnGet }),
    (path, { Swagger.PathItem.empty with
      get := some { Swagger.Operation.empty with
        responses := [("200", ⟨"", some { Swagger.Schema.empty with
          type := some "array"
          items := some Analysis.cdnReturned }, []⟩)] } })] }

def cdnProvider (analysis : Analysis) : Provider := ⟨"cdn", analysis, .standard, none⟩

def namesOf (analysis : Analysis) : List String × List String :=
  (analysis.dataSources.map DataSource.name, analysis.offered.map Resource.name)

theorem listing_analysed (path name : String)
    (h : (analyse (listing path) "").toOption.map namesOf = some ([name], ["cdns"])) :
    ∃ analysis d r, analyse (listing path) "" = .ok analysis ∧
      analysis.dataSources = [d] ∧ analysis.offered = [r] ∧ d.name = name ∧ r.name = "cdns" := by
  obtain ⟨analysis, hanalysis, hnames⟩ := Except.toOption_map_eq_some.1 h
  obtain ⟨hcollections, hoffered⟩ := Prod.mk.inj hnames
  obtain ⟨d, hd, hdname⟩ := List.map_eq_singleton_iff.1 hcollections
  obtain ⟨r, hr, hrname⟩ := List.map_eq_singleton_iff.1 hoffered
  exact ⟨analysis, d, r, hanalysis, hd, hr, hdname, hrname⟩

/-- The list and the instances of the CDNs have names of their own. -/
theorem data_sources_served_as_published_list :
    ∃ analysis d r, analyse (listing "/cdns_list") "" = .ok analysis ∧
      (cdnProvider analysis).ServesAsPublished ∧
      (cdnProvider analysis).handler? "cdn_cdns_list" = some (.collection d) ∧
      (cdnProvider analysis).handler? "cdn_cdns_instance" = some (.byId r) := by
  obtain ⟨analysis, d, r, hanalysis, hd, hr, hdname, hrname⟩ :=
    listing_analysed "/cdns_list" "cdns_list" (by decide +kernel)
  have hdiffer : ∀ d ∈ (cdnProvider analysis).analysis.dataSources,
      ∀ r ∈ (cdnProvider analysis).analysis.offered, d.name ≠ r.name ++ instanceSuffix := by
    simp only [cdnProvider, hd, hr, List.forall_mem_singleton, hdname, hrname]
    decide
  have hserves := (data_sources_served_as_published (p := cdnProvider analysis) hanalysis).2 hdiffer
  refine ⟨analysis, d, r, hanalysis, hserves, (hserves.collection_iff _ d).2 ⟨?_, ?_⟩,
    (hserves.byId_iff _ r).2 ⟨?_, ?_⟩⟩
  · simp [cdnProvider, hd]
  · rw [hdname]
    rfl
  · simp [cdnProvider, hr]
  · rw [hrname]
    rfl

/-- A list under the name of the instances is read where the instances are published. -/
theorem data_sources_served_as_published_clash :
    ∃ analysis d r, analyse (listing "/cdns_instance") "" = .ok analysis ∧
      (cdnProvider analysis).handler? "cdn_cdns_instance" = some (.collection d) ∧
      (cdnProvider analysis).schema.dataSources.get? "cdn_cdns_instance" =
        some (Publish.instanceSource r) ∧
      ¬(cdnProvider analysis).ServesAsPublished := by
  obtain ⟨analysis, d, r, hanalysis, hd, hr, hdname, hrname⟩ :=
    listing_analysed "/cdns_instance" "cdns_instance" (by decide +kernel)
  have hcollection : (cdnProvider analysis).collection? "cdn_cdns_instance" = some d := by
    simp only [collection?, cdnProvider, hd, List.find?_singleton, hdname]
    rfl
  have hbyId : (cdnProvider analysis).byId? "cdn_cdns_instance" = some r := by
    simp only [byId?, cdnProvider, hr, List.find?_singleton, hrname]
    rfl
  have hpublished : (cdnProvider analysis).schema.dataSources.get? "cdn_cdns_instance" =
      some (Publish.instanceSource r) := by
    rw [published_eq (Analysis.namesDiffer_of_analyse hanalysis), hbyId]
    rfl
  refine ⟨analysis, d, r, hanalysis, ?_, hpublished, fun hserves => ?_⟩
  · rw [handler?_eq, hcollection]
    rfl
  · have hown := hserves.collections d (by simp [cdnProvider, hd])
    have hname : typeName (cdnProvider analysis).name d.name = "cdn_cdns_instance" := by
      rw [hdname]
      rfl
    rw [hname, hpublished] at hown
    exact Publish.dataSource_ne_instanceSource d r (Option.some.inj hown).symm

end Provider

end SwaggerProvider
