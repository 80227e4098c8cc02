import SwaggerProvider.Proofs.Analysis.Grounding
import SwaggerProvider.Proofs.Config.Endpoints
import SwaggerProvider.Proofs.Text.Pieces

/-!
Hosts of requests. An endpoint of the configuration comes before the host that the document gives to
a resource, and that one before the host of the API. Where the API has regions, the configured one
counts or else the first. Both are declared, so every resource and data source has a host.
-/

set_option autoImplicit false

namespace SwaggerProvider

open Swagger (Document)

namespace RegionHost

def placeholder (keyword : String) : List Char := ['$', '{'] ++ keyword.toList ++ ['}']

/-- The address is the template with a region in the place of every placeholder of the keyword. -/
def Fills (template keyword region address : String) : Prop :=
  ∃ pieces, (∀ piece ∈ pieces, ¬placeholder keyword <:+: piece) ∧
    template.toList = Text.join (placeholder keyword) pieces ∧
    address.toList = Text.join region.toList pieces

theorem fills_resolve (template keyword region : String) :
    Fills template keyword region (resolve template keyword region) := by
  have hpattern : placeholder keyword ≠ [] := by simp [placeholder]
  obtain ⟨pieces, -, hfree, htemplate, haddress⟩ :=
    Text.exists_pieces_replaceAll hpattern region.toList template.toList
  exact ⟨pieces, hfree, htemplate, String.toList_ofList.trans haddress⟩

end RegionHost

namespace Backend

/-- The document declares the template of the hosts and at least one region. -/
structure DeclaresRegions (document : Document) (m : MultiRegion) : Prop where
  template : document.extensions.text? multiRegionKey = some m.template
  keyword : RegionHost.keyword? m.template = some m.keyword
  regions : document.extensions.list? providerRegionsKey = some m.regions
  nonempty : m.regions ≠ []

theorem readMultiRegion_eq_some {document : Document} {m : MultiRegion}
    (h : readMultiRegion document = .ok (some m)) : DeclaresRegions document m := by
  unfold readMultiRegion at h
  split at h
  · cases h
  · next template htemplate =>
    split at h
    · cases h
    · next keyword hkeyword =>
      split at h
      · cases h
      · next hregions hnonempty =>
        cases h
        refine ⟨htemplate, hkeyword, ?_, hnonempty⟩
        cases hlist : document.extensions.list? providerRegionsKey with
        | none =>
          rw [hlist] at hnonempty
          exact absurd rfl hnonempty
        | some regions => rfl

theorem ofDocument_multiRegion {document : Document} {url : String} {b : Backend}
    (h : ofDocument document url = .ok b) : readMultiRegion document = .ok b.multiRegion := by
  obtain ⟨multiRegion, hmulti, h⟩ := Except.bind_eq_ok.1 h
  rw [hmulti]
  dsimp only at h
  split at h
  on_goal 2 => split at h
  all_goals
    obtain ⟨host, -, h⟩ := Except.bind_eq_ok.1 h
    split at h
    · cases h
    · cases h
      rfl

theorem hostIn_of_mem {b : Backend} {m : MultiRegion} {region : String}
    (hb : b.multiRegion = some m) (hregion : region ∈ m.regions) :
    hostIn b region = .ok (RegionHost.resolve m.template m.keyword region) := by
  unfold hostIn
  rw [hb]
  exact if_pos (List.contains_iff_mem.2 hregion)

end Backend

namespace Configuration

variable {values : Members} {a : Analysis} {c : Configuration}

/-- The endpoint that is accepted for a name: the last one given, if there is such a resource. -/
def endpoint? (values : Members) (a : Analysis) (name : String) : Option String :=
  if isResource a name then Table.get? (givenEndpoints values).reverse name else none

theorem get?_endpoints (h : ofValues values a = .ok c) (name : String) :
    c.endpoints.get? name = endpoint? values a name := by
  obtain ⟨-, endpoints, -, hendpoints, -, -, -, hsorted⟩ := ofValues_eq_ok h
  rw [hsorted, (readEndpoints_eq_ok hendpoints).1, Table.get?_sorted, ← List.filter_reverse,
    Table.get?_filter (isResource a)]
  rfl

theorem region_eq (h : ofValues values a = .ok c) :
    c.region = value? values Analysis.regionName ∧
      ∀ region, c.region = some region → region ∈ a.backend.regions := by
  obtain ⟨-, -, -, -, hregion, -⟩ := ofValues_eq_ok h
  unfold readRegion at hregion
  split at hregion
  · next hvalue =>
    have hnone := Except.ok.inj hregion
    simp [← hnone, hvalue]
  · next region hvalue =>
    split at hregion
    · cases hregion
    · split at hregion
      · next hdeclared =>
        have hsome := Except.ok.inj hregion
        simpa [← hsome, hvalue] using hdeclared
      · cases hregion

/-- Where requests for a name go. -/
inductive Reached (values : Members) (a : Analysis) (name : String) : Host → String → Prop
  | endpoint {host : Host} {address : String} (given : endpoint? values a name = some address) :
      Reached values a name host address
  | override {address : String} (free : endpoint? values a name = none) :
      Reached values a name (.override address) address
  | regional {region address : String} (free : endpoint? values a name = none) :
      Reached values a name (.regional region address) address
  | single (free : endpoint? values a name = none) (plain : a.backend.multiRegion = none) :
      Reached values a name .global a.backend.host
  | configured {m : MultiRegion} {region address : String}
      (free : endpoint? values a name = none) (regions : a.backend.multiRegion = some m)
      (given : value? values Analysis.regionName = some region) (declared : region ∈ m.regions)
      (fills : RegionHost.Fills m.template m.keyword region address) :
      Reached values a name .global address
  | first {m : MultiRegion} {region address : String}
      (free : endpoint? values a name = none) (regions : a.backend.multiRegion = some m)
      (unset : value? values Analysis.regionName = none) (first : m.regions.head? = some region)
      (fills : RegionHost.Fills m.template m.keyword region address) :
      Reached values a name .global address

/-- The host of the API does not fail for a region that it declares. -/
theorem resolveHost_reached (h : ofValues values a = .ok c)
    (hregions : ∀ m, a.backend.multiRegion = some m → m.regions ≠ []) {name : String}
    (hfree : endpoint? values a name = none) :
    ∃ address, a.backend.resolveHost c.region = .ok address ∧
      Reached values a name .global address := by
  obtain ⟨hregion, hdeclared⟩ := region_eq h
  unfold Backend.resolveHost Backend.isMultiRegion Backend.defaultRegion Backend.regions
  unfold Backend.regions at hdeclared
  cases hm : a.backend.multiRegion with
  | none => exact ⟨_, rfl, .single hfree hm⟩
  | some m =>
    rw [hm] at hdeclared
    cases hc : c.region with
    | some region =>
      have hmem := hdeclared region hc
      exact ⟨_, Backend.hostIn_of_mem hm hmem,
        .configured hfree hm (hregion.symm.trans hc) hmem (RegionHost.fills_resolve _ _ _)⟩
    | none =>
      obtain ⟨region, hfirst⟩ := Option.ne_none_iff_exists'.1
        (mt List.head?_eq_none_iff.1 (hregions m hm))
      have hmem := List.mem_of_head? hfirst
      refine ⟨_, ?_, .first hfree hm (hregion.symm.trans hc) hfirst
        (RegionHost.fills_resolve _ _ _)⟩
      simp only [Option.isSome_some, Bool.not_true, Bool.false_eq_true, if_false, hfirst,
        Option.none_or]
      exact Backend.hostIn_of_mem hm hmem

theorem hostOf_reached (h : ofValues values a = .ok c)
    (hregions : ∀ m, a.backend.multiRegion = some m → m.regions ≠ []) (name : String)
    (host : Host) :
    ∃ address, c.hostOf a.backend name host = .ok address ∧
      Reached values a name host address := by
  unfold hostOf
  rw [get?_endpoints h]
  cases hendpoint : endpoint? values a name with
  | some address => exact ⟨address, rfl, .endpoint hendpoint⟩
  | none =>
    cases host with
    | override address => exact ⟨address, rfl, .override hendpoint⟩
    | regional region address => exact ⟨address, rfl, .regional hendpoint⟩
    | global => exact resolveHost_reached h hregions hendpoint

end Configuration

namespace Analysis

/-- The host of a resource by the operation that creates it: none of its own, one that the operation
names, or a template in which a region is filled in that the document lists. -/
inductive DeclaresHost (document : Document) (post : Swagger.Operation) : Host → Prop
  | global (undeclared : trimmed? post.extensions hostKey = none) :
      DeclaresHost document post .global
  | override {host : String} (declared : trimmed? post.extensions hostKey = some host)
      (plain : RegionHost.keyword? host = none) : DeclaresHost document post (.override host)
  | regional {template keyword region address : String} {regions : List String}
      (declared : trimmed? post.extensions hostKey = some template)
      (varies : RegionHost.keyword? template = some keyword)
      (listed : document.extensions.list? (regionsStart ++ keyword) = some regions)
      (mem : region ∈ regions) (fills : RegionHost.Fills template keyword region address) :
      DeclaresHost document post (.regional region address)

theorem declaresHost_of_hosts {document : Document} {name : String} {post : Swagger.Operation}
    {hosted : List (String × Host)} {e : String × Host}
    (h : hosts document name post = .ok hosted) (he : e ∈ hosted) :
    DeclaresHost document post e.2 := by
  unfold hosts at h
  split at h
  · next hundeclared =>
    cases h
    rw [List.mem_singleton.1 he]
    exact .global hundeclared
  · next host hdeclared =>
    split at h
    · next hplain =>
      cases h
      rw [List.mem_singleton.1 he]
      exact .override hdeclared hplain
    · next keyword hkeyword =>
      dsimp only at h
      split at h
      · cases h
      · cases h
      · next regions hlisted =>
        cases h
        obtain ⟨region, hregion, rfl⟩ := List.mem_map.1 he
        exact .regional hdeclared hkeyword hlisted hregion (RegionHost.fills_resolve _ _ _)

/-- Every resource and every data source of an analysis has a host, under an accepted
configuration. -/
structure HostsResolve (document : Document) (values : Members) (a : Analysis)
    (c : Configuration) : Prop where
  regions : ∀ m, a.backend.multiRegion = some m → Backend.DeclaresRegions document m
  resources : ∀ r ∈ a.resources,
    (∃ item post, document.paths.get? r.root = some item ∧ item.post = some post ∧
      DeclaresHost document post r.host) ∧
    ∃ address, c.hostOf a.backend r.name r.host = .ok address ∧
      Configuration.Reached values a r.name r.host address
  dataSources : ∀ d ∈ a.dataSources,
    (∃ item, (d.path, item) ∈ document.paths ∧ d.host = dataSourceHost item) ∧
    ∃ address, c.hostOf a.backend d.name d.host = .ok address ∧
      Configuration.Reached values a d.name d.host address

/-- Under an accepted configuration no request lacks a host. -/
theorem hosts_resolve {document : Document} {url : String} {values : Members} {a : Analysis}
    {c : Configuration} (h : analyse document url = .ok a)
    (hc : Configuration.ofValues values a = .ok c) : HostsResolve document values a c := by
  obtain ⟨backend, hbackend, hbasis⟩ := sameBasis_of_analyse h
  have hregions (m : MultiRegion) (hm : a.backend.multiRegion = some m) :
      Backend.DeclaresRegions document m := by
    have hread := Backend.ofDocument_multiRegion hbackend
    rw [hbasis.backend] at hm
    exact Backend.readMultiRegion_eq_some (hread.trans (congrArg _ hm))
  have hreached := Configuration.hostOf_reached hc fun m hm => (hregions m hm).nonempty
  constructor
  case regions => exact hregions
  case resources =>
    intro r hr
    obtain ⟨path, item, found, -, hfound, hmem⟩ := exists_resourcesAt h hr
    obtain ⟨base, post, hosted, hdraft, hhosted, rfl⟩ := resourcesAt_eq_ok hfound
    obtain ⟨k, hk, rfl, -⟩ := draft_eq_ok hdraft
    obtain ⟨-, -, hitem, hpost, -⟩ := candidate_eq_ok hk.candidate
    obtain ⟨e, he, rfl⟩ := List.mem_map.1 hmem
    exact ⟨⟨k.rootItem, k.post, hk.root ▸ hitem, hpost, declaresHost_of_hosts hhosted he⟩,
      hreached e.1 e.2⟩
  case dataSources =>
    intro d hd
    obtain ⟨path, item, hmem, hfound⟩ := exists_dataSourceAt h hd
    obtain ⟨hcollected, hhost, -⟩ := dataSourceAt_eq_ok hfound
    exact ⟨⟨item, hcollected.path ▸ hmem, hhost⟩, hreached d.name d.host⟩

def regionDocument : Document := { Document.empty with
  schemes := ["https"]
  extensions := [(multiRegionKey, .string "api.${region}.example.com"),
    (providerRegionsKey, .string "eu-1, us-1")]
  paths := [
    ("/cdns", wallItem (some wallPost) none),
    ("/cdns/{id}", wallItem none (some wallGet)),
    ("/walls", wallItem (some { wallPost with
      extensions := [(hostKey, .string "walls.example.com")] }) none),
    ("/walls/{id}", wallItem none (some wallGet))] }

def regionValues : Members := [(regionName, .string "us-1"),
  (endpointsName, .object [("walls", .string "localhost:8443"), ("doors", .string "localhost")])]

theorem hosts_resolve_regions :
    ∃ a c, analyse regionDocument "" = .ok a ∧ Configuration.ofValues regionValues a = .ok c ∧
      HostsResolve regionDocument regionValues a c ∧
      a.resources.map (fun r => (r.name, r.host, (c.hostOf a.backend r.name r.host).toOption)) =
        [("cdns", .global, some "api.us-1.example.com"),
          ("walls", .override "walls.example.com", some "localhost:8443")] := by
  have hseen : (analyse regionDocument "").toOption.map (fun a =>
      (Configuration.ofValues regionValues a).toOption.map fun c => a.resources.map fun r =>
        (r.name, r.host, (c.hostOf a.backend r.name r.host).toOption)) =
      some (some [("cdns", .global, some "api.us-1.example.com"),
        ("walls", .override "walls.example.com", some "localhost:8443")]) := by decide +kernel
  obtain ⟨a, h, hseen⟩ := Except.toOption_map_eq_some.1 hseen
  obtain ⟨c, hc, haddresses⟩ := Except.toOption_map_eq_some.1 hseen
  exact ⟨a, c, h, hc, hosts_resolve h hc, haddresses⟩

end Analysis

end SwaggerProvider
