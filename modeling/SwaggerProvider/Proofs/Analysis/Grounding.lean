import SwaggerProvider.Proofs.Analysis.Origin
import SwaggerProvider.Proofs.Path.Parents
import SwaggerProvider.Proofs.Path.Root
import SwaggerProvider.Proofs.Record.Compile
import SwaggerProvider.Proofs.Swagger.Inputs

/-!
Resources are grounded in the document: their paths and those of their parents are declared with the
operations that they need, and requests carry exactly what the body of the creating operation can
set.
-/

set_option autoImplicit false

namespace SwaggerProvider

open Swagger (Document PathItem Schema)

namespace Analysis

theorem resourceSchema_eq_ok {path : String} {post : Swagger.Operation} {schema : Schema}
    {notes : List String} (h : resourceSchema path post = .ok (schema, notes)) :
    (∀ name, name ∈ schema.inputNames ↔ name ∈ post.bodyInputs) ∧
      ∀ name ∈ schema.inputNames, (name ∈ schema.required ↔ name ∈ post.bodyRequired) := by
  unfold resourceSchema at h
  unfold Swagger.Operation.bodyInputs Swagger.Operation.bodyRequired
  cases hb : post.bodySchema? with
  | none =>
    rw [hb] at h
    cases hr : returnedSchema? post with
    | none =>
      rw [hr] at h
      cases h
    | some response =>
      rw [hr] at h
      dsimp only at h
      split at h
      · cases h
      · next hnone =>
        cases h
        have hempty : ∀ name, name ∉ schema.inputNames := by
          intro name hname
          obtain ⟨p, hp, hread⟩ := Schema.mem_inputNames.1 hname
          have hfound := List.find?_eq_none.1 hnone (name, p) hp
          simp [hread] at hfound
        exact ⟨fun name => by simp [hempty name], fun name hname => absurd hname (hempty name)⟩
  | some body =>
    rw [hb] at h
    dsimp only at h
    split at h
    · cases h
    · cases hr : returnedSchema? post with
      | none =>
        rw [hr] at h
        cases h
        exact ⟨fun name => Iff.rfl, fun name _ => Iff.rfl⟩
      | some response =>
        rw [hr] at h
        dsimp only at h
        split at h
        · cases h
          exact ⟨fun name => Iff.rfl, fun name _ => Iff.rfl⟩
        · obtain ⟨merged, hm, h⟩ := Except.map_eq_ok.1 h
          cases h
          obtain ⟨hnames, hrequired⟩ := Schema.merge_eq_ok (inResource_eq_ok.1 hm)
          exact ⟨hnames, fun name _ => by rw [hrequired]; rfl⟩

/-- The path item of a path that the document may declare with a slash at its end. -/
def declared? (document : Document) (path : String) : Option PathItem :=
  (document.paths.get? path).or (document.paths.get? (path ++ "/"))

theorem item?_eq_declared? (document : Document) {path : String} (h : Path.Plain path) :
    item? document path = declared? document path := by
  unfold item? declared?
  rw [h, String.ofList_toList]
  cases document.paths.get? path with
  | some item => rfl
  | none => cases document.paths.get? (path ++ "/") <;> rfl

structure Named (document : Document) (p : Path.Parent) (own : String) : Prop where
  item : ∃ item name, item? document p.root = some item ∧ isExcluded item.post = false ∧
    Path.name p.root = .ok name ∧ own = name.render (preferredName item.post)
  declaredInstance : (item? document p.instancePath).isSome = true

theorem parentsFrom_cons {document : Document} {path : String} {names : List String}
    {parents : List Parent} {p : Path.Parent} {rest : List Path.Parent}
    {s : List String × List Parent} :
    parentsFrom document path names parents (p :: rest) = .ok s ↔
      ∃ own, Named document p own ∧ parentsFrom document path (names ++ [own])
        (parents ++ [⟨"_".intercalate (names ++ [own]), p.root, p.instancePath⟩]) rest = .ok s := by
  rw [parentsFrom]
  constructor
  · intro h
    cases hi : item? document p.root with
    | none =>
      rw [hi] at h
      cases h
    | some item =>
      rw [hi] at h
      dsimp only at h
      split at h
      · cases h
      · next hdeclared =>
        split at h
        · cases h
        · next hexcluded =>
          obtain ⟨name, hname, h⟩ := Except.bind_eq_ok.1 h
          refine ⟨_, ⟨⟨item, name, hi, by simpa using hexcluded, hname, rfl⟩, ?_⟩, h⟩
          simpa [Option.isSome_iff_ne_none] using hdeclared
  · rintro ⟨own, ⟨⟨item, name, hi, hexcluded, hname, rfl⟩, hdeclared⟩, h⟩
    have hthere : (item? document p.instancePath).isNone = false := by simpa using hdeclared
    rw [hi]
    dsimp only
    rw [hthere, hexcluded, hname]
    exact h

/-- A parent on the way to a path is declared, and the API may be asked for it. -/
structure Ancestor (document : Document) (ancestor : Path.Parent) (p : Parent) : Prop where
  root : p.root = ancestor.root
  instancePath : p.instancePath = ancestor.instancePath
  declaredRoot : ∃ item, declared? document p.root = some item ∧ isExcluded item.post = false
  declaredInstance : (declared? document p.instancePath).isSome = true

theorem parentsFrom_eq_ok {document : Document} {path : String} {chain : List Path.Parent}
    {names given : List String} {parents found : List Parent}
    (hplain : ∀ p ∈ chain, Path.Plain p.root ∧ Path.Plain p.instancePath)
    (h : parentsFrom document path names parents chain = .ok (given, found)) :
    ∃ more, found = parents ++ more ∧ List.Forall₂ (Ancestor document) chain more := by
  induction chain generalizing names parents with
  | nil =>
    cases h
    exact ⟨[], (List.append_nil _).symm, .nil⟩
  | cons p rest ih =>
    obtain ⟨hroot, hinstance⟩ := hplain p List.mem_cons_self
    obtain ⟨own, hnamed, h⟩ := parentsFrom_cons.1 h
    obtain ⟨item, -, hitem, hexcluded, -⟩ := hnamed.item
    obtain ⟨more, rfl, hmore⟩ := ih (fun q hq => hplain q (List.mem_cons_of_mem _ hq)) h
    have hdeclared := hnamed.declaredInstance
    rw [item?_eq_declared? document hroot] at hitem
    rw [item?_eq_declared? document hinstance] at hdeclared
    exact ⟨_ :: more, List.append_assoc _ _ _,
      .cons ⟨rfl, rfl, ⟨item, hitem, hexcluded⟩, hdeclared⟩ hmore⟩

/-- A resource is grounded in a document, by the operation that creates it. -/
structure Grounded (document : Document) (r : Resource) (post : Swagger.Operation) : Prop where
  creates : ∃ item, document.paths.get? r.root = some item ∧ item.post = some post
  reads : ∃ item get response schema, (r.instancePath, item) ∈ document.paths ∧
    item.get = some get ∧ get.response? 200 = some response ∧ response.schema = some schema ∧
    schema.isObject = true
  path : ∃ front parameter, parameter ≠ [] ∧ (∀ c ∈ parameter, Path.isDelimiter c = false) ∧
    (r.root = front ∨ r.root = front ++ "/") ∧
    (r.instancePath = front ++ Path.parameterSegment parameter ∨
      r.instancePath = front ++ Path.parameterSegment parameter ++ "/")
  marked : (r.record.filter fun f => f.identifier).length ≤ 1
  identifier : r.record.identifier?.isSome = true
  ancestors : ∃ chain, Path.chain r.instancePath = .ok chain ∧
    List.Forall₂ (Ancestor document) chain.parents r.parents
  inputs : ∀ name, name ∈ r.record.inputs.map (fun f => f.name) ↔ name ∈ post.bodyInputs
  required : ∀ f ∈ r.record.inputs, f.required = true ↔ f.name ∈ post.bodyRequired

theorem objectGet?_eq_some {item : PathItem} {get : Swagger.Operation}
    (h : objectGet? item = some get) :
    item.get = some get ∧ ∃ response schema, get.response? 200 = some response ∧
      response.schema = some schema ∧ schema.isObject = true := by
  obtain ⟨hget, hany⟩ := Option.filter_eq_some_iff.1 h
  obtain ⟨schema, hschema, hobject⟩ := (Option.any_eq_true _ _).1 hany
  obtain ⟨response, hresponse, hschema⟩ := Option.bind_eq_some_iff.1 hschema
  exact ⟨hget, response, schema, hresponse, hschema, hobject⟩

theorem candidate_eq_ok {document : Document} {path : String} {item : PathItem} {c : Candidate}
    (h : candidate document path item = .ok c) :
    objectGet? item = some c.get ∧
      Path.findRoot path document.paths.keys = .ok c.root ∧
      document.paths.get? c.root = some c.rootItem ∧ c.rootItem.post = some c.post ∧
      ∃ notes, resourceSchema path c.post = .ok (c.schema, notes) := by
  unfold candidate at h
  cases hg : objectGet? item with
  | none =>
    rw [hg] at h
    cases h
  | some get =>
    rw [hg] at h
    obtain ⟨root, hroot, h⟩ := Except.bind_eq_ok.1 h
    cases hitem : document.paths.get? root with
    | none =>
      rw [hitem] at h
      cases h
    | some rootItem =>
      rw [hitem] at h
      dsimp only at h
      cases hpost : rootItem.post with
      | none =>
        rw [hpost] at h
        cases h
      | some post =>
        rw [hpost] at h
        obtain ⟨⟨schema, notes⟩, hschema, h⟩ := Except.bind_eq_ok.1 h
        cases h
        exact ⟨rfl, hroot, hitem, hpost, notes, hschema⟩

theorem checkIdentifier_eq_ok {r : Record} {f : Field} (h : r.checkIdentifier = .ok f) :
    (r.filter fun f => f.identifier).length ≤ 1 ∧ r.identifier? = some f := by
  unfold Record.checkIdentifier at h
  dsimp only at h
  split at h
  · cases h
  · next hmarked =>
    cases hi : r.identifier? with
    | none =>
      rw [hi] at h
      cases h
    | some found =>
      rw [hi] at h
      cases h
      exact ⟨by omega, rfl⟩

theorem Drafted.grounded {document : Document} {r : Resource} {item : PathItem} {c : Candidate}
    (h : Drafted document r.instancePath item r c)
    (hmem : (r.instancePath, item) ∈ document.paths) : Grounded document r c.post := by
  obtain ⟨hget, hroot, hrootItem, hpost, notes, hschema⟩ := candidate_eq_ok h.candidate
  obtain ⟨hinputs, hrequired⟩ := resourceSchema_eq_ok hschema
  obtain ⟨hfields, -⟩ := Record.compile_eq_ok h.record
  have hnames := Record.compileFields_inputs hfields
  constructor
  case creates => exact ⟨c.rootItem, h.root ▸ hrootItem, hpost⟩
  case reads =>
    obtain ⟨hitem, response, schema, hresponse, hreturned, hobject⟩ := objectGet?_eq_some hget
    exact ⟨item, c.get, response, schema, hmem, hitem, hresponse, hreturned, hobject⟩
  case path =>
    obtain ⟨-, front, hfront, hends⟩ := Path.findRoot_eq_ok hroot
    obtain ⟨parameter, hne, hplain, hpath⟩ := Path.root?_eq_some hfront
    exact ⟨front, parameter, hne, hplain, h.root ▸ hends, hpath⟩
  case marked =>
    obtain ⟨f, hf⟩ := h.identifier
    exact (checkIdentifier_eq_ok hf).1
  case identifier =>
    obtain ⟨f, hf⟩ := h.identifier
    rw [(checkIdentifier_eq_ok hf).2]
    rfl
  case ancestors =>
    obtain ⟨names, hparents⟩ := h.parents
    obtain ⟨chain, hchain, hparents⟩ := Except.bind_eq_ok.1 hparents
    obtain ⟨more, hmore, hancestors⟩ := parentsFrom_eq_ok (Path.chain_plain hchain) hparents
    exact ⟨chain, hchain, hmore ▸ hancestors⟩
  case inputs =>
    intro name
    rw [hnames]
    exact hinputs name
  case required =>
    intro f hf
    have hname : f.name ∈ c.schema.inputNames := by
      have hmapped := List.mem_map_of_mem hf (f := fun f : Field => f.name)
      rwa [hnames] at hmapped
    obtain ⟨e, -, hfield⟩ := Record.exists_property hfields (List.mem_filter.1 hf).1
    rw [← hrequired f.name hname, Record.compileField_required hfield,
      Record.compileField_name hfield]
    exact List.contains_iff_mem

end Analysis

/-- Every resource of an analysis is grounded in the document that was analysed. -/
theorem emitted_resource_grounded {document : Document} {url : String} {analysis : Analysis}
    (h : analyse document url = .ok analysis) :
    ∀ r ∈ analysis.resources, ∃ post, Analysis.Grounded document r post := by
  intro r hr
  obtain ⟨item, c, hmem, hc⟩ := exists_drafted h hr
  exact ⟨c.post, hc.grounded hmem⟩

namespace Analysis

def wallText : Schema := { Schema.empty with type := some "string" }

def wallReturned : Schema := { Schema.empty with
  type := some "object"
  properties := [("id", { wallText with readOnly := true }), ("label", wallText),
    ("state", wallText)] }

def wallBody : Schema := { Schema.empty with
  type := some "object"
  properties := [("label", wallText)]
  required := ["label"] }

def wallItem (post get : Option Swagger.Operation) : PathItem := { PathItem.empty with post, get }

def wallPost : Swagger.Operation := { Swagger.Operation.empty with
  parameters := [⟨"body", "body", true, some wallBody, []⟩]
  responses := [("201", ⟨"", some wallReturned, []⟩)] }

def wallGet : Swagger.Operation := { Swagger.Operation.empty with
  responses := [("200", ⟨"", some wallReturned, []⟩)] }

def wallDocument : Document := { Document.empty with
  host := some "api.example.com"
  schemes := ["https"]
  paths := [
    ("/v1/cdns/", wallItem (some wallPost) none),
    ("/v1/cdns/{id}", wallItem none (some wallGet)),
    ("/v1/cdns/{id}/walls", wallItem (some wallPost) none),
    ("/v1/cdns/{id}/walls/{wall}/", wallItem none (some wallGet))] }

theorem emitted_resource_grounded_wall :
    ∃ analysis r post, analyse wallDocument "" = .ok analysis ∧ r ∈ analysis.resources ∧
      r.name = "cdns_v1_walls" ∧ Grounded wallDocument r post := by
  have hnames : (analyse wallDocument "").toOption.map (fun a => a.resources.map Resource.name) =
      some ["cdns_v1", "cdns_v1_walls"] := by decide +kernel
  cases h : analyse wallDocument "" with
  | error e =>
    rw [h] at hnames
    cases hnames
  | ok analysis =>
    rw [h] at hnames
    have hmem : "cdns_v1_walls" ∈ analysis.resources.map Resource.name := by
      rw [show analysis.resources.map Resource.name = _ from Option.some.inj hnames]
      decide
    obtain ⟨r, hr, hname⟩ := List.mem_map.1 hmem
    obtain ⟨post, hpost⟩ := emitted_resource_grounded h r hr
    exact ⟨analysis, r, post, rfl, hr, hname, hpost⟩

end Analysis

end SwaggerProvider
