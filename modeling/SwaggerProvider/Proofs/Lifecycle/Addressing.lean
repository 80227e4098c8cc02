import SwaggerProvider.Proofs.Analysis.Grounding
import SwaggerProvider.Proofs.Lifecycle.Failures
import SwaggerProvider.Proofs.Path.Places

/-!
Which endpoints of a document can be addressed. Identifiers are given for the parents of a path and
asked for its parameters; the two agree where a literal segment leads to every parameter. Where they
do not agree, no call of the endpoint is ever sent.
-/

set_option autoImplicit false

namespace SwaggerProvider

open Error (Counted)
open Http.Run (FailsOnly)
open Http (Run Timeline)

namespace Lifecycle

/-- The error when a path does not get an identifier for each of its parameters. -/
def miscount (template : String) (given : Nat) : Error :=
  .runtimeConfig (.identifierCount template (Path.parameterCount template) given)

section Addressed

variable {r : Resource} {c : Client}

theorem fill_eq_ok {template : String} {ids : List String}
    (h : Path.parameterCount template = ids.length) : ∃ path, Path.fill template ids = .ok path :=
  ⟨_, if_pos h⟩

theorem url_counted {name : String} {host : Host} {template : String} {ids : List String}
    (h : Path.parameterCount template = ids.length) :
    (c.url name host template ids).FailsOnly Counted := by
  obtain ⟨path, hpath⟩ := fill_eq_ok h
  refine .bind (hostOf_counted _ _ _ _) fun address => ?_
  rw [hpath]
  exact .ok _

theorem url_miscounts {name : String} {host : Host} {template address : String}
    {ids : List String} (hhost : c.config.hostOf c.backend name host = .ok address)
    (h : Path.parameterCount template ≠ ids.length) :
    c.url name host template ids = .error (miscount template ids.length) := by
  have hfill : Path.fill template ids = .error (miscount template ids.length) := if_neg h
  unfold Client.url
  rw [hhost, hfill]
  rfl

structure Addressable (r : Resource) : Prop where
  root : Path.parameterCount r.root = r.parents.length
  instancePath : Path.parameterCount r.instancePath = r.parents.length + 1

theorem Addressable.instanceUrl (h : Addressable r) {attributes : Members} {parents : List String}
    (hparents : parentIds attributes r.parents = .ok parents) (id : String) :
    (instanceUrl r c parents id).FailsOnly Counted := by
  refine url_counted ?_
  rw [h.instancePath, List.length_append, parentIds_length hparents]
  rfl

theorem Addressable.rootUrl (h : Addressable r) {attributes : Members} {parents : List String}
    (hparents : parentIds attributes r.parents = .ok parents) :
    (rootUrl r c parents).FailsOnly Counted := by
  refine url_counted ?_
  rw [h.root, parentIds_length hparents]

theorem Addressable.create (h : Addressable r) (planned : Members) :
    FailsOnly Counted (create r c planned) := by
  refine .bind ?_ fun _ => .pure _
  refine .lift_bind (parentIds_counted _ _) fun parents hparents => ?_
  refine .lift_bind (h.rootUrl hparents) fun url _ => ?_
  refine .bind (request_counted _ _ _ _ _ _) fun answer => ?_
  split
  · exact .throw trivial
  · refine .bind (.say _ _) fun _ => ?_
    split
    · exact .pure _
    · exact .lift_bind (h.instanceUrl hparents _) fun url _ =>
        .bind (settle_counted _ _ _ _ _) fun _ => .pure _

theorem Addressable.read (h : Addressable r) (current : ResourceState) :
    FailsOnly Counted (read r c current) := by
  refine .bind (.lift_bind (parentIds_counted _ _) fun parents hparents =>
    .lift_bind (h.instanceUrl hparents _) fun url _ => fetch_counted _ _ _) fun found => ?_
  split
  · exact .pure _
  · exact .bind (.say _ _) fun _ => .pure _

theorem Addressable.update (h : Addressable r) (prior : ResourceState) (planned : Members) :
    FailsOnly Counted (update r c prior planned) := by
  refine .bind ?_ fun _ => .pure _
  unfold updated
  split
  · exact .throw trivial
  · refine .lift_bind (checkImmutable_counted _ _ _) fun _ _ => ?_
    refine .lift_bind (parentIds_counted _ _) fun parents hparents => ?_
    refine .lift_bind (h.instanceUrl hparents _) fun url _ => ?_
    refine .bind (request_counted _ _ _ _ _ _) fun answer => ?_
    split
    · exact settle_counted _ _ _ _ _
    · exact .pure _
    · exact fetch_counted _ _ _

theorem Addressable.delete (h : Addressable r) (current : ResourceState) :
    FailsOnly Counted (delete r c current) := by
  unfold Lifecycle.delete
  split
  · exact .throw trivial
  · refine .lift_bind (parentIds_counted _ _) fun parents hparents => ?_
    refine .lift_bind (h.instanceUrl hparents _) fun url _ => ?_
    refine .bind (send_counted _ _) fun answer => ?_
    split
    · exact .say _ _
    · refine .bind (.lift (check_counted _ _ _)) fun answer => ?_
      dsimp only
      split
      · exact .say _ _
      · exact .bind (poll_counted _ _ _ _ _) fun _ => .say _ _

theorem Addressable.readById (h : Addressable r) (config : Members) :
    FailsOnly Counted (readById r c config) := by
  unfold Lifecycle.readById
  split
  · exact .throw trivial
  · refine .lift_bind (parentIds_counted _ _) fun parents hparents => ?_
    refine .lift_bind (h.instanceUrl hparents _) fun url _ => ?_
    refine .bind (fetch_counted _ _ _) fun found => ?_
    split
    · exact .throw trivial
    · exact .pure _

theorem select_addressed {d : DataSource} (c : Client)
    (h : Path.parameterCount d.path = d.parents.length) (config : Members) :
    FailsOnly Counted (select d c config) := by
  refine .lift_bind (ofConfig_counted _ _) fun filters _ => ?_
  refine .lift_bind (parentIds_counted _ _) fun parents hparents => ?_
  refine .lift_bind (url_counted (h.trans (parentIds_length hparents).symm)) fun url _ => ?_
  refine .bind (send_counted _ _) fun answer => .bind (.lift (check_counted _ _ _)) fun answer => ?_
  split
  · exact .throw trivial
  · refine .bind (.lift (single_counted _ _ _)) fun item => .bind (.say _ _) fun _ => ?_
    split
    · exact .throw trivial
    · exact .pure _

end Addressed

/-- No operation of a resource complains about the number of identifiers. -/
structure Serves (r : Resource) : Prop where
  create : ∀ (c : Client) (planned : Members), FailsOnly Counted (create r c planned)
  read : ∀ (c : Client) (current : ResourceState), FailsOnly Counted (read r c current)
  update : ∀ (c : Client) (prior : ResourceState) (planned : Members),
    FailsOnly Counted (update r c prior planned)
  delete : ∀ (c : Client) (current : ResourceState), FailsOnly Counted (delete r c current)
  readById : ∀ (c : Client) (config : Members), FailsOnly Counted (readById r c config)

theorem Addressable.serves {r : Resource} (h : Addressable r) : Serves r where
  create _ := h.create
  read _ := h.read
  update _ := h.update
  delete _ := h.delete
  readById _ := h.readById

/-- An operation that asks for a URL with the identifiers of these parents. -/
structure Asks (c : Client) (name : String) (host : Host) (parents : List Parent)
    (attributes : Members) (ids : List String) : Prop where
  present : parentIds attributes parents = .ok ids
  hosted : ∃ address, c.config.hostOf c.backend name host = .ok address

/-- Every operation of a resource complains about the number of identifiers before anything is sent
or said, although all of them are there. -/
structure Refuses (r : Resource) : Prop where
  create : ∀ (c : Client) (planned : Members) (ids : List String) (t : Timeline),
    Asks c r.name r.host r.parents planned ids →
      (create r c planned).run t = (.error (miscount r.root ids.length), t)
  read : ∀ (c : Client) (current : ResourceState) (ids : List String) (t : Timeline),
    Asks c r.name r.host r.parents current.attributes ids →
      (read r c current).run t = (.error (miscount r.instancePath (ids.length + 1)), t)
  update : ∀ (c : Client) (prior : ResourceState) (planned : Members) (ids : List String)
    (t : Timeline), Asks c r.name r.host r.parents prior.attributes ids → r.put.isSome = true →
      checkImmutable r.record prior.attributes planned = .ok () →
      (update r c prior planned).run t = (.error (miscount r.instancePath (ids.length + 1)), t)
  delete : ∀ (c : Client) (current : ResourceState) (ids : List String) (t : Timeline),
    Asks c r.name r.host r.parents current.attributes ids → r.delete.isSome = true →
      (delete r c current).run t = (.error (miscount r.instancePath (ids.length + 1)), t)
  readById : ∀ (c : Client) (config : Members) (id : String) (ids : List String) (t : Timeline),
    Asks c r.name r.host r.parents config ids →
      (config.get? Record.idName).bind Json.scalarText? = some id →
      (readById r c config).run t = (.error (miscount r.instancePath (ids.length + 1)), t)

section Refusal

variable {c : Client} {r : Resource} {attributes : Members} {ids : List String}

theorem Asks.instanceUrl (h : Asks c r.name r.host r.parents attributes ids)
    (hcount : Path.parameterCount r.instancePath ≠ r.parents.length + 1) (id : String) :
    instanceUrl r c ids id = .error (miscount r.instancePath (ids.length + 1)) := by
  obtain ⟨address, hhost⟩ := h.hosted
  have hlength : (ids ++ [id]).length = ids.length + 1 := by simp
  have hmore : Path.parameterCount r.instancePath ≠ (ids ++ [id]).length := by
    rw [hlength, parentIds_length h.present]
    exact hcount
  have hurl := url_miscounts hhost hmore
  rw [hlength] at hurl
  exact hurl

theorem Asks.rootUrl (h : Asks c r.name r.host r.parents attributes ids)
    (hcount : Path.parameterCount r.root ≠ r.parents.length) :
    rootUrl r c ids = .error (miscount r.root ids.length) := by
  obtain ⟨address, hhost⟩ := h.hosted
  exact url_miscounts hhost (by rw [parentIds_length h.present]; exact hcount)

theorem refuses {r : Resource} (hroot : Path.parameterCount r.root ≠ r.parents.length)
    (hinstance : Path.parameterCount r.instancePath ≠ r.parents.length + 1) : Refuses r := by
  constructor
  case create =>
    intro c planned ids t h
    have hcreated : (created r c planned).run t = (.error (miscount r.root ids.length), t) :=
      (Run.run_lift_ok h.present).trans (Run.run_lift_error (h.rootUrl hroot))
    change (created r c planned >>= _).run t = _
    rw [Run.run_bind, hcreated]
  case read =>
    intro c current ids t h
    have hcurrent : (current? r c current).run t =
        (.error (miscount r.instancePath (ids.length + 1)), t) :=
      (Run.run_lift_ok h.present).trans (Run.run_lift_error (h.instanceUrl hinstance _))
    change (current? r c current >>= _).run t = _
    rw [Run.run_bind, hcurrent]
  case update =>
    intro c prior planned ids t h hput himmutable
    obtain ⟨put, hput⟩ := Option.isSome_iff_exists.1 hput
    have hupdated : (updated r c prior planned).run t =
        (.error (miscount r.instancePath (ids.length + 1)), t) := by
      unfold updated
      rw [hput]
      exact (Run.run_lift_ok himmutable).trans
        ((Run.run_lift_ok h.present).trans (Run.run_lift_error (h.instanceUrl hinstance _)))
    change (updated r c prior planned >>= _).run t = _
    rw [Run.run_bind, hupdated]
  case delete =>
    intro c current ids t h hdelete
    obtain ⟨operation, hdelete⟩ := Option.isSome_iff_exists.1 hdelete
    unfold Lifecycle.delete
    rw [hdelete]
    exact (Run.run_lift_ok h.present).trans (Run.run_lift_error (h.instanceUrl hinstance _))
  case readById =>
    intro c config id ids t h hid
    unfold Lifecycle.readById
    rw [hid]
    exact (Run.run_lift_ok h.present).trans (Run.run_lift_error (h.instanceUrl hinstance _))

theorem select_refuses {d : DataSource} {c : Client} {config : Members} {ids : List String}
    {filters : List Filter} (hcount : Path.parameterCount d.path ≠ d.parents.length)
    (h : Asks c d.name d.host d.parents config ids)
    (hfilters : Filter.ofConfig d.record config = .ok filters) (t : Timeline) :
    (select d c config).run t = (.error (miscount d.path ids.length), t) := by
  obtain ⟨address, hhost⟩ := h.hosted
  have hurl := url_miscounts hhost (by rw [parentIds_length h.present]; exact hcount)
  exact (Run.run_lift_ok hfilters).trans
    ((Run.run_lift_ok h.present).trans (Run.run_lift_error hurl))

end Refusal

end Lifecycle

open Swagger (Document)
open SwaggerProvider.Path (Led places parameterCount)

section Analysed

variable {document : Document} {url : String} {analysis : Analysis}

theorem length_parents {path : String} {names : List String} {parents : List Parent}
    (h : Analysis.parentsOf document path = .ok (names, parents)) :
    parents.length = ((places path).filter fun p => p.IsParent).length := by
  obtain ⟨chain, hchain, hparents⟩ := Except.bind_eq_ok.1 h
  obtain ⟨more, rfl, hancestors⟩ :=
    Analysis.parentsFrom_eq_ok (Path.chain_plain hchain) hparents
  have hlength := congrArg List.length (Path.chain_parents hchain)
  rw [List.length_map, List.length_map] at hlength
  exact hancestors.length_eq.symm.trans hlength

theorem length_parents_resource (h : analyse document url = .ok analysis) {r : Resource}
    (hr : r ∈ analysis.resources) :
    parameterCount r.instancePath = parameterCount r.root + 1 ∧
      r.parents.length = ((places r.root).filter fun p => Led p.before).length := by
  obtain ⟨item, c, hmem, hc⟩ := exists_drafted h hr
  obtain ⟨front, name, hne, hplain, hroot, hinstance⟩ := (hc.grounded hmem).path
  obtain ⟨names, hparents⟩ := hc.parents
  have hname : Path.IsName name := ⟨hne, hplain⟩
  have hpath : ∃ ending : List Char, (∀ c ∈ ending, c = '/') ∧
      r.instancePath.toList = front.toList ++ '/' :: (Path.braced name ++ ending) := by
    rcases hinstance with h | h
    · exact ⟨[], by simp, by simp [h, Path.parameterSegment, Path.braced]⟩
    · exact ⟨['/'], by simp, by simp [h, Path.parameterSegment, Path.braced]⟩
  obtain ⟨ending, hending, hpath⟩ := hpath
  have hfront : parameterCount r.root = (places front).length ∧
      ((places r.root).filter fun p => Led p.before).length =
        ((places front).filter fun p => Led p.before).length := by
    rw [Path.parameterCount_eq]
    rcases hroot with h | h
    · rw [h]
      exact ⟨rfl, rfl⟩
    · rw [h, Path.places_slash, List.length_map, List.filter_map, List.length_map]
      exact ⟨rfl, rfl⟩
  constructor
  · rw [hfront.1, Path.parameterCount_eq, Path.places_instance hname hending hpath]
    simp
  · rw [hfront.2, length_parents hparents, Path.count_parents_instance hname hending hpath]

/-- Every endpoint of a document is given at most as many identifiers as its paths ask for, and
exactly as many where a literal segment leads to each of their parameters. Where they are too few,
every operation of the endpoint fails. -/
theorem endpoint_addressing (h : analyse document url = .ok analysis) :
    (∀ r ∈ analysis.resources,
      parameterCount r.instancePath = parameterCount r.root + 1 ∧
      r.parents.length ≤ parameterCount r.root ∧
      (r.parents.length = parameterCount r.root ↔ ∀ p ∈ places r.root, Led p.before) ∧
      ((∀ p ∈ places r.root, Led p.before) → Lifecycle.Serves r) ∧
      ((∃ p ∈ places r.root, ¬ Led p.before) → Lifecycle.Refuses r)) ∧
    (∀ d ∈ analysis.dataSources,
      d.parents.length ≤ parameterCount d.path ∧
      (d.parents.length = parameterCount d.path ↔ ∀ p ∈ places d.path, p.IsParent) ∧
      ((∀ p ∈ places d.path, p.IsParent) → ∀ (c : Client) (config : Members),
        FailsOnly Counted (Lifecycle.select d c config)) ∧
      ((∃ p ∈ places d.path, ¬ p.IsParent) →
        ∀ (c : Client) (config : Members) (ids : List String) (filters : List Filter)
          (t : Timeline), Lifecycle.Asks c d.name d.host d.parents config ids →
          Filter.ofConfig d.record config = .ok filters →
          (Lifecycle.select d c config).run t =
            (.error (Lifecycle.miscount d.path ids.length), t))) := by
  constructor
  · intro r hr
    obtain ⟨hinstance, hparents⟩ := length_parents_resource h hr
    have hagree : r.parents.length = parameterCount r.root ↔ ∀ p ∈ places r.root, Led p.before := by
      rw [hparents, Path.parameterCount_eq, List.length_filter_eq_length_iff]
      simp
    refine ⟨hinstance, ?_, hagree, fun hled => ?_, fun ⟨p, hp, hnot⟩ => ?_⟩
    · rw [hparents, Path.parameterCount_eq]
      exact List.length_filter_le _ _
    · have hroot := hagree.2 hled
      exact Lifecycle.Addressable.serves ⟨hroot.symm, by omega⟩
    · have hroot : parameterCount r.root ≠ r.parents.length :=
        fun heq => hnot (hagree.1 heq.symm p hp)
      exact Lifecycle.refuses hroot (by omega)
  · intro d hd
    obtain ⟨names, hnames⟩ := (exists_collected h hd).parents
    have hparents := length_parents hnames
    have hagree : d.parents.length = parameterCount d.path ↔
        ∀ p ∈ places d.path, p.IsParent := by
      rw [hparents, Path.parameterCount_eq, List.length_filter_eq_length_iff]
      simp
    refine ⟨?_, hagree, fun hall c config => ?_, fun ⟨p, hp, hnot⟩ => ?_⟩
    · rw [hparents, Path.parameterCount_eq]
      exact List.length_filter_le _ _
    · exact Lifecycle.select_addressed c (hagree.2 hall).symm config
    · intro c config ids filters t hasks hfilters
      have hcount : parameterCount d.path ≠ d.parents.length :=
        fun heq => hnot (hagree.1 heq.symm p hp)
      exact Lifecycle.select_refuses hcount hasks hfilters t

end Analysed

namespace Analysis

/-- A wall inside a CDN can be addressed. -/
theorem endpoint_addressing_wall :
    ∃ analysis r, analyse wallDocument "" = .ok analysis ∧ r ∈ analysis.resources ∧
      r.name = "cdns_v1_walls" ∧ r.parents.length = parameterCount r.root ∧
      Lifecycle.Serves r := by
  have hseen : (analyse wallDocument "").toOption.map (fun a =>
      a.resources.map fun r => (r.name, r.root)) =
      some [("cdns_v1", "/v1/cdns/"), ("cdns_v1_walls", "/v1/cdns/{id}/walls")] := by
    decide +kernel
  obtain ⟨analysis, r, hr, h, hview⟩ :=
    exists_resource hseen (List.mem_cons_of_mem _ List.mem_cons_self)
  obtain ⟨hname, hroot⟩ := Prod.mk.inj hview
  have hled : ∀ p ∈ places r.root, Led p.before := by
    rw [hroot]
    decide +kernel
  obtain ⟨-, -, hagree, hserves, -⟩ := (endpoint_addressing h).1 r hr
  exact ⟨analysis, r, h, hr, hname, hagree.2 hled, hserves hled⟩

def dottedDocument : Document := { Document.empty with
  host := some "api.example.com"
  schemes := ["https"]
  paths := [
    ("/v1/file.types", wallItem (some wallPost) none),
    ("/v1/file.types/{type}", wallItem none (some wallGet)),
    ("/v1/file.types/{type}/walls", wallItem (some wallPost) none),
    ("/v1/file.types/{type}/walls/{wall}", wallItem none (some wallGet))] }

def plainClient : Client where
  backend := ⟨"api.example.com", "", ["http"], none⟩
  schemes := .empty
  config := .empty
  settings := .standard

/-- The walls have no parent, so one identifier is missing from each of their paths. -/
theorem endpoint_addressing_dotted :
    ∃ analysis r, analyse dottedDocument "" = .ok analysis ∧ r ∈ analysis.resources ∧
      r.root = "/v1/file.types/{type}/walls" ∧ r.parents.length = 0 ∧
      parameterCount r.root = 1 ∧ Lifecycle.Refuses r ∧
      ∀ (planned : Members) (t : Timeline), (Lifecycle.create r plainClient planned).run t =
        (.error (.runtimeConfig (.identifierCount "/v1/file.types/{type}/walls" 1 0)), t) := by
  have hseen : (analyse dottedDocument "").toOption.map (fun a =>
      a.resources.map fun r => (r.root, r.instancePath, r.parents.length, r.host)) =
      some [("/v1/file.types", "/v1/file.types/{type}", 0, .global),
        ("/v1/file.types/{type}/walls", "/v1/file.types/{type}/walls/{wall}", 0, .global)] := by
    decide +kernel
  obtain ⟨analysis, r, hr, h, hview⟩ :=
    exists_resource hseen (List.mem_cons_of_mem _ List.mem_cons_self)
  obtain ⟨hroot, hinstance, hparents, hhost⟩ : r.root = "/v1/file.types/{type}/walls" ∧
      r.instancePath = "/v1/file.types/{type}/walls/{wall}" ∧ r.parents.length = 0 ∧
      r.host = .global := by simpa using hview
  have hcount : parameterCount r.root = 1 := by
    rw [hroot]
    decide +kernel
  have hrefuses : Lifecycle.Refuses r := by
    refine Lifecycle.refuses (by omega) ?_
    rw [hinstance, hparents]
    decide +kernel
  refine ⟨analysis, r, h, hr, hroot, hparents, hcount, hrefuses, fun planned t => ?_⟩
  have hasks : Lifecycle.Asks plainClient r.name r.host r.parents planned [] := by
    rw [hhost, List.eq_nil_of_length_eq_zero hparents]
    exact ⟨rfl, "api.example.com", rfl⟩
  have hcreate := hrefuses.create plainClient planned [] t hasks
  rw [hcreate, Lifecycle.miscount, hcount, hroot]
  rfl

end Analysis

end SwaggerProvider
