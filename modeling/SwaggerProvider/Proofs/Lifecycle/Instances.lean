import SwaggerProvider.Proofs.Analysis.Grounding
import SwaggerProvider.Proofs.Lifecycle.Addressing
import SwaggerProvider.Proofs.Lifecycle.FirstCall
import SwaggerProvider.Proofs.Path.Filling

/-!
Where the requests for the instance of a resource go. If the path of the resource consists of
literals and parameters, its segments stand behind those of the API, with the identifiers in the
places of the parameters. An identifier that is empty or dots takes segments away instead.
-/

set_option autoImplicit false

namespace SwaggerProvider

open SwaggerProvider.Path (Carries Regular Usable)

section Requests

/-- The URL of the API itself, which has neither a query nor a fragment. -/
structure IsRoot (c : Client) (name : String) (host : Host) (root : Url) : Prop where
  parsed : ∃ address, c.config.hostOf c.backend name host = .ok address ∧
    Url.parse (Url.join c.backend.scheme address c.backend.basePath "" ++ "/") = .ok root
  query : root.query = none
  fragment : root.fragment = none

/-- A URL of the API that a template and identifiers lead to. Its path carries the identifiers if
all of them can be used; each one that cannot takes at least one segment away. -/
structure Reaches (template : String) (ids : List String) (root url : Url) : Prop where
  site : { url with path := root.path, query := root.query } = root
  carries : (∀ id ∈ ids, Usable id) → ∃ sent,
    Path.segments url.path = Path.segments root.path ++ sent ∧
      Carries (Path.segments template) ids sent
  lost : (Path.segments url.path).length + ids.countP (fun id => ¬ Usable id) ≤
    (Path.segments root.path).length + (Path.segments template).length

theorem Backend.isWeb_scheme (backend : Backend) : Url.IsWeb backend.scheme := by
  unfold Backend.scheme
  split
  · exact .inr rfl
  · exact .inl rfl

variable {c : Client} {name : String} {host : Host} {template text : String} {ids : List String}
  {root : Url}

theorem reaches_of_url (hroot : IsRoot c name host root) (hregular : Regular template)
    (hliteral : ∃ s ∈ Path.segments template, Path.IsLiteral s)
    (h : c.url name host template ids = .ok text) :
    ∃ url, Url.parse text = .ok url ∧ Reaches template ids root url := by
  obtain ⟨address, haddress, hparsed⟩ := hroot.parsed
  obtain ⟨given, hgiven, h⟩ := Except.bind_eq_ok.1 h
  obtain ⟨path, hpath, h⟩ := Except.bind_eq_ok.1 h
  rw [haddress] at hgiven
  cases hgiven
  cases h
  have hfilling := Path.fill_eq_ok hregular hpath
  obtain ⟨segment, hsegment, hplain⟩ := hliteral
  rw [Url.join_empty] at hparsed
  obtain ⟨done, hsite⟩ :=
    Url.exists_site c.backend.isWeb_scheme hparsed hroot.query hroot.fragment
  obtain ⟨whole, hwhole, hsegments⟩ := hsite.behind _ hfilling.trim_chars
  rw [Url.join_eq_addressed _ _ _ (hfilling.trim_ne_nil hsegment hplain)]
  refine ⟨_, hwhole, rfl, fun husable => ⟨_, ?_, hfilling.carries husable⟩, ?_⟩
  · rw [hsegments, Url.filled_passDots done (hfilling.trim_not_dots husable),
      Url.filled_pieces_trim, hsite.segments, List.reverse_append, List.reverse_reverse,
      List.map_append]
  · have hleft := Url.length_filled_passDots done
      (Text.pieces '/' (Text.trimStartBy Url.isSlash path.toList))
    have haccount := hfilling.accounting
    rw [Url.countP_names_trim] at hleft
    rw [hsegments, hsite.segments, Url.segments_eq template]
    simp only [List.length_map, List.length_reverse]
    omega

theorem reaches_of_parse {url : Url} (hparse : Url.parse text = .ok url)
    (h : ∃ found, Url.parse text = .ok found ∧ Reaches template ids root found) :
    Reaches template ids root url := by
  obtain ⟨found, hfound, hreaches⟩ := h
  rw [hparse] at hfound
  cases hfound
  exact hreaches

theorem Reaches.ids_eq {others : List String} {url other : Url}
    (h : Reaches template ids root url) (h' : Reaches template others root other)
    (husable : ∀ id ∈ ids, Usable id) (hpath : url.path = other.path) : ids = others := by
  obtain ⟨sent, hsegments, hcarries⟩ := h.carries husable
  have hlength := congrArg List.length hsegments
  rw [List.length_append, hcarries.length_eq] at hlength
  have hlost := h'.lost
  rw [← hpath, hlength] at hlost
  have hnone : others.countP (fun id => ¬ Usable id) = 0 := by omega
  have hothers : ∀ id ∈ others, Usable id := by simpa using List.countP_eq_zero.1 hnone
  obtain ⟨sent', hsegments', hcarries'⟩ := h'.carries hothers
  rw [← hpath, hsegments] at hsegments'
  rw [← List.append_cancel_left hsegments'] at hcarries'
  exact hcarries.ids_eq hcarries'

/-- A template with fewer segments leads to no other path with all of them. -/
theorem Reaches.path_ne {shorter : String} {others : List String} {url other : Url}
    (h : Reaches template ids root url) (h' : Reaches shorter others root other)
    (husable : ∀ id ∈ ids, Usable id)
    (hshorter : (Path.segments shorter).length < (Path.segments template).length) :
    url.path ≠ other.path := by
  obtain ⟨sent, hsegments, hcarries⟩ := h.carries husable
  intro hpath
  have hlength := congrArg List.length hsegments
  have hlost := h'.lost
  rw [List.length_append, hcarries.length_eq] at hlength
  rw [← hpath, hlength] at hlost
  omega

theorem Reaches.appendQuery {url : Url} (h : Reaches template ids root url)
    (pairs : List (String × String)) : Reaches template ids root (url.appendQuery pairs) := by
  have hsame : { url.appendQuery pairs with path := root.path, query := root.query } =
      { url with path := root.path, query := root.query } := by cases pairs <;> rfl
  have hpath : (url.appendQuery pairs).path = url.path := by cases pairs <;> rfl
  exact ⟨hsame.trans h.site, hpath ▸ h.carries, hpath ▸ h.lost⟩

theorem reaches_of_fits {turn : Turn} {call : Call} (hfits : turn.Fits c)
    (hcall : turn.call? = some call)
    (h : ∃ url, Url.parse call.url = .ok url ∧ Reaches template ids root url) :
    turn.request.method = call.method ∧ Reaches template ids root turn.request.url := by
  obtain ⟨url, hurl, hreaches⟩ := h
  unfold Turn.Fits at hfits
  rw [hcall] at hfits
  obtain ⟨credentials, hrequest⟩ := hfits
  obtain ⟨fields, -, hrequest⟩ := Except.bind_eq_ok.1 hrequest
  rw [hurl] at hrequest
  rw [← Except.ok.inj hrequest]
  exact ⟨rfl, hreaches.appendQuery _⟩

end Requests

namespace Lifecycle

open Http.Run (Speaks)

def Visits (r : Resource) (root : Url) (attributes : Members) (id : String) (turns : List Turn) :
    Prop :=
  ∀ turn ∈ turns, turn.call?.isSome = true → ∃ parents,
    parentIds attributes r.parents = .ok parents ∧
    Reaches r.instancePath (parents ++ [id]) root turn.request.url

def Assigned (r : Resource) (id : String) (turns : List Turn) : Prop :=
  ∃ turn ∈ turns, ∃ answer object, turn.answer? = some answer ∧ answer.object? = some object ∧
    Payload.identifier? r.record object = some id

/-- The calls among the turns of a create are for the collection or for the instance that it has
made. -/
def VisitsCreated (r : Resource) (root : Url) (planned : Members) (turns : List Turn) : Prop :=
  ∀ turn ∈ turns, turn.call?.isSome = true → ∃ parents,
    parentIds planned r.parents = .ok parents ∧
    ((turn.request.method = .post ∧ Reaches r.root parents root turn.request.url) ∨
      (turn.request.method = .get ∧ ∃ id, Assigned r id turns ∧
        Reaches r.instancePath (parents ++ [id]) root turn.request.url))

/-- The requests for the instances of a resource go where they should. -/
structure Located (r : Resource) (c : Client) (root : Url) : Prop where
  valid : ∀ parents id text, instanceUrl r c parents id = .ok text →
    ∃ url, Url.parse text = .ok url ∧ Reaches r.instancePath (parents ++ [id]) root url
  read : ∀ current, Speaks c (read r c current) fun _ turns =>
    Visits r root current.attributes current.id turns
  update : ∀ prior planned, Speaks c (update r c prior planned) fun _ turns =>
    Visits r root prior.attributes prior.id turns
  delete : ∀ current, Speaks c (delete r c current) fun _ turns =>
    Visits r root current.attributes current.id turns
  readById : ∀ config, Speaks c (readById r c config) fun _ turns =>
    calls turns = [] ∨ ∃ id, (config.get? Record.idName).bind Json.scalarText? = some id ∧
      Visits r root config id turns
  create : ∀ planned, Speaks c (create r c planned) fun _ turns =>
    VisitsCreated r root planned turns
  distinct : ∀ parents id others other text text' url url',
    instanceUrl r c parents id = .ok text → instanceUrl r c others other = .ok text' →
    Url.parse text = .ok url → Url.parse text' = .ok url' →
    (∀ used ∈ parents ++ [id], Usable used) → url.path = url'.path → parents = others ∧ id = other
  collection : ∀ parents id others text text' url url',
    instanceUrl r c parents id = .ok text → rootUrl r c others = .ok text' →
    Url.parse text = .ok url → Url.parse text' = .ok url' →
    (∀ used ∈ parents ++ [id], Usable used) → url.path ≠ url'.path

section Operations

variable {c : Client} {o : Opening} {follows : Follows} {α : Type} {P : α → List Turn → Prop}
  {result : Except Error α} {turns : List Turn}

theorem Opens.calls_at (h : Opens c o follows P result turns)
    (hfollows : ∀ turns ids url other, follows turns ids url other → other.url = url) :
    ∀ call ∈ calls turns, ∃ ids, o.Starts c ids call.url := by
  intro call hcall
  cases h with
  | unsent none => simp [none] at hcall
  | sent starts ready first rest answer =>
    rw [first] at hcall
    rcases List.mem_cons.1 hcall with rfl | hmore
    · exact ⟨_, starts⟩
    · rw [hfollows _ _ _ _ (rest call hmore)]
      exact ⟨_, starts⟩

variable {r : Resource} {root : Url}

structure Grounds (r : Resource) (c : Client) (root : Url) : Prop where
  root : IsRoot c r.name r.host root
  regular : Regular r.instancePath
  regularRoot : Regular r.root
  literal : ∃ s ∈ Path.segments r.instancePath, Path.IsLiteral s
  literalRoot : ∃ s ∈ Path.segments r.root, Path.IsLiteral s
  longer : (Path.segments r.root).length < (Path.segments r.instancePath).length

theorem Grounds.instance_reaches (h : Grounds r c root) {ids : List String} {text : String}
    (hurl : c.url r.name r.host r.instancePath ids = .ok text) :
    ∃ url, Url.parse text = .ok url ∧ Reaches r.instancePath ids root url :=
  reaches_of_url h.root h.regular h.literal hurl

theorem Grounds.root_reaches (h : Grounds r c root) {ids : List String} {text : String}
    (hurl : c.url r.name r.host r.root ids = .ok text) :
    ∃ url, Url.parse text = .ok url ∧ Reaches r.root ids root url :=
  reaches_of_url h.root h.regularRoot h.literalRoot hurl

structure Opening.IsFor (o : Opening) (r : Resource) (attributes : Members) (id : String) :
    Prop where
  name : o.name = r.name
  host : o.host = r.host
  template : o.template = r.instancePath
  parents : o.parents = r.parents
  attributes : o.attributes = attributes
  own : o.own = some id

/-- Calls at the URL of the first one are made for the same instance. -/
theorem Grounds.visits (h : Grounds r c root) {attributes : Members} {id : String}
    (ho : o.IsFor r attributes id) (hopens : Opens c o follows P result turns)
    (hfollows : ∀ turns ids url other, follows turns ids url other → other.url = url)
    (hfits : ∀ turn ∈ turns, turn.Fits c) : Visits r root attributes id turns := by
  intro turn hturn hcalled
  obtain ⟨call, hcall⟩ := Option.isSome_iff_exists.1 hcalled
  obtain ⟨parents, hstarts⟩ :=
    hopens.calls_at hfollows call (List.mem_filterMap.2 ⟨turn, hturn, hcall⟩)
  have hparents := hstarts.parents
  have hurl := hstarts.url
  rw [ho.attributes, ho.parents] at hparents
  rw [ho.name, ho.host, ho.template, ho.own] at hurl
  exact ⟨parents, hparents,
    (reaches_of_fits (hfits turn hturn) hcall (h.instance_reaches hurl)).2⟩

theorem looks_url {r : Resource} (turns : List Turn) (ids : List String) (url : String)
    (other : Call) (h : Follows.looks r turns ids url other) : other.url = url := by
  rw [h]
  rfl

theorem nothing_url (turns : List Turn) (ids : List String) (url : String) (other : Call)
    (h : Follows.nothing turns ids url other) : other.url = url := h.elim

theorem Grounds.created (h : Grounds r c root) {planned : Members} {answered : α → List Turn → Prop}
    (hopens : Opens c (.create r planned) (.looksAtCreated r c planned) answered result turns)
    (hfits : ∀ turn ∈ turns, turn.Fits c) : VisitsCreated r root planned turns := by
  intro turn hturn hcalled
  obtain ⟨call, hcall⟩ := Option.isSome_iff_exists.1 hcalled
  have hmem : call ∈ calls turns := List.mem_filterMap.2 ⟨turn, hturn, hcall⟩
  have hfit := hfits turn hturn
  cases hopens with
  | unsent none => simp [none] at hmem
  | @sent _ _ parents url more starts ready first rest answer =>
    refine ⟨parents, starts.parents, ?_⟩
    rw [first] at hmem
    rcases List.mem_cons.1 hmem with rfl | hmore
    · have hurl : c.url r.name r.host r.root parents = .ok url := by
        have hstarts := starts.url
        rwa [Opening.create, Option.toList_none, List.append_nil] at hstarts
      exact .inl (reaches_of_fits hfit hcall (h.root_reaches hurl))
    · obtain ⟨other, hother, a, object, id, place, -, hanswer, hobject, hid, hplace, rfl⟩ :=
        rest call hmore
      obtain ⟨hmethod, hreaches⟩ := reaches_of_fits hfit hcall (h.instance_reaches hplace)
      exact .inr ⟨hmethod, id, ⟨other, hother, a, object, hanswer, hobject, hid⟩, hreaches⟩

theorem Grounds.located (h : Grounds r c root) : Located r c root where
  valid _ _ _ hurl := h.instance_reaches hurl
  read current := (read_opens r current).fits.weaken fun _ _ ⟨hopens, hfits⟩ =>
    h.visits ⟨rfl, rfl, rfl, rfl, rfl, rfl⟩ hopens nothing_url hfits
  update prior planned := (update_opens r prior planned).fits.weaken fun _ _ ⟨hopens, hfits⟩ =>
    h.visits ⟨rfl, rfl, rfl, rfl, rfl, rfl⟩ hopens looks_url hfits
  delete current := (delete_opens r current).fits.weaken fun _ _ ⟨hopens, hfits⟩ =>
    h.visits ⟨rfl, rfl, rfl, rfl, rfl, rfl⟩ hopens looks_url hfits
  readById config := (readById_opens r config).fits.weaken fun _ turns ⟨hopens, hfits⟩ => by
    cases hid : (config.get? Record.idName).bind Json.scalarText? with
    | some id =>
      exact .inr ⟨id, rfl, h.visits ⟨rfl, rfl, rfl, rfl, rfl, hid⟩ hopens nothing_url hfits⟩
    | none =>
      have hforbidden : (Opening.readById r config).permitted = false := by
        simp [Opening.readById, hid]
      exact .inl (hopens.blocked (.forbidden hforbidden)).1
  create planned := (create_opens r planned).fits.weaken fun _ _ ⟨hopens, hfits⟩ =>
    h.created hopens hfits
  distinct parents id others other text text' url url' hurl hurl' hparse hparse' husable hpath := by
    have hreaches := reaches_of_parse hparse (h.instance_reaches hurl)
    have hreaches' := reaches_of_parse hparse' (h.instance_reaches hurl')
    obtain ⟨hparents, hid⟩ := List.append_inj' (hreaches.ids_eq hreaches' husable hpath) rfl
    exact ⟨hparents, List.singleton_inj.1 hid⟩
  collection parents id others text text' url url' hurl hurl' hparse hparse' husable := by
    have hreaches := reaches_of_parse hparse (h.instance_reaches hurl)
    have hreaches' := reaches_of_parse hparse' (h.root_reaches hurl')
    exact hreaches.path_ne hreaches' husable h.longer

end Operations

end Lifecycle

open Swagger (Document)

theorem grounds_of_analyse {document : Document} {url : String} {analysis : Analysis}
    (h : analyse document url = .ok analysis) {r : Resource} (hr : r ∈ analysis.resources)
    (hregular : Regular r.instancePath) {c : Client} {root : Url}
    (hroot : IsRoot c r.name r.host root) : Lifecycle.Grounds r c root := by
  obtain ⟨item, candidate, hmem, hdrafted⟩ := exists_drafted h hr
  obtain ⟨front, parameter, -, hplain, hfront, hinstance⟩ := (hdrafted.grounded hmem).path
  have hsegments : Path.segments r.root = Path.segments front := by
    rcases hfront with hfront | hfront
    · rw [hfront]
    · rw [hfront, Path.segments_slash]
  have hmore : Path.segments r.instancePath =
      Path.segments r.root ++ ['{' :: parameter ++ ['}']] := by
    rw [hsegments, ← Path.segments_parameter front hplain]
    rcases hinstance with hinstance | hinstance
    · rw [hinstance]
    · rw [hinstance, Path.segments_slash]
  have hregularRoot : Regular r.root := fun s hs =>
    hregular s (by rw [hmore]; exact List.mem_append_left _ hs)
  obtain ⟨name, hname⟩ := exists_name h hr
  obtain ⟨literal, hliteral, hnot⟩ := Path.exists_segment_of_name hname
  have hplain : Path.IsLiteral literal := by
    refine (hregularRoot literal hliteral).resolve_right fun hslot => ?_
    rw [hslot.isParameter] at hnot
    cases hnot
  exact {
    root := hroot
    regular := hregular
    regularRoot := hregularRoot
    literal := ⟨literal, by rw [hmore]; exact List.mem_append_left _ hliteral, hplain⟩
    literalRoot := ⟨literal, hliteral, hplain⟩
    longer := by rw [hmore]; simp }

/-- If the path of a resource consists of literals and parameters, the requests for its instances go
to URLs with the segments of that path behind those of the API: the literals, and segments that are
decoded to the identifiers. Different identifiers make different paths, and none of them is a path
of the collection. All this holds as long as no identifier is empty or dots; each one that is takes
at least one segment away. -/
theorem instance_requests_located {document : Document} {url : String} {analysis : Analysis}
    (h : analyse document url = .ok analysis) {r : Resource} (hr : r ∈ analysis.resources)
    (hregular : Regular r.instancePath) {c : Client} {root : Url}
    (hroot : IsRoot c r.name r.host root) : Lifecycle.Located r c root :=
  (grounds_of_analyse h hr hregular hroot).located

namespace Analysis

def plainRoot : Url := ⟨"http", "", some "api.example.com", none, "/", none, none⟩

/-- The walls of a CDN, by whatever identifiers. -/
theorem instance_requests_located_wall :
    ∃ analysis r, analyse wallDocument "" = .ok analysis ∧ r ∈ analysis.resources ∧
      r.instancePath = "/v1/cdns/{id}/walls/{wall}/" ∧
      Lifecycle.Located r plainClient plainRoot := by
  have hseen : (analyse wallDocument "").toOption.map (fun a =>
      a.resources.map fun r => (r.instancePath, r.host)) =
      some [("/v1/cdns/{id}", .global), ("/v1/cdns/{id}/walls/{wall}/", .global)] := by
    decide +kernel
  obtain ⟨analysis, r, hr, h, hview⟩ :=
    exists_resource hseen (List.mem_cons_of_mem _ List.mem_cons_self)
  obtain ⟨hpath, hhost⟩ := Prod.mk.inj hview
  have hregular : Regular r.instancePath := by
    rw [hpath]
    decide +kernel
  have hroot : IsRoot plainClient r.name r.host plainRoot := by
    rw [hhost]
    exact ⟨⟨"api.example.com", rfl, by decide +kernel⟩, rfl, rfl⟩
  exact ⟨analysis, r, h, hr, hpath, instance_requests_located h hr hregular hroot⟩

def asked {α : Type} (x : Http.Run α) : List String :=
  (x.run (.ofReplies [])).2.sent.map fun request => request.method.text ++ " " ++ request.url.path

/-- Without an identifier, or with a dot for one, the request goes to the collection. Two dots lead
above it. -/
theorem instance_requests_located_dots :
    ∃ analysis r, analyse wallDocument "" = .ok analysis ∧ r ∈ analysis.resources ∧
      r.instancePath = "/v1/cdns/{id}" ∧ Regular r.instancePath ∧
      asked (Lifecycle.create r plainClient [("label", .string "edge")]) = ["POST /v1/cdns/"] ∧
      ["", ".", ".."].map (fun id => asked (Lifecycle.read r plainClient ⟨id, []⟩)) =
        [["GET /v1/cdns/"], ["GET /v1/cdns/"], ["GET /v1/"]] := by
  have hseen : (analyse wallDocument "").toOption.map (fun a => a.resources.map fun r =>
      (r.instancePath, asked (Lifecycle.create r plainClient [("label", .string "edge")]),
        ["", ".", ".."].map fun id => asked (Lifecycle.read r plainClient ⟨id, []⟩))) =
      some [("/v1/cdns/{id}", ["POST /v1/cdns/"],
          [["GET /v1/cdns/"], ["GET /v1/cdns/"], ["GET /v1/"]]),
        ("/v1/cdns/{id}/walls/{wall}/", [], [[], [], []])] := by
    decide +kernel
  obtain ⟨analysis, r, hr, h, hview⟩ := exists_resource hseen List.mem_cons_self
  obtain ⟨hpath, hview⟩ := Prod.mk.inj hview
  obtain ⟨hcreate, hreads⟩ := Prod.mk.inj hview
  refine ⟨analysis, r, h, hr, hpath, ?_, hcreate, hreads⟩
  rw [hpath]
  decide +kernel

end Analysis

end SwaggerProvider
