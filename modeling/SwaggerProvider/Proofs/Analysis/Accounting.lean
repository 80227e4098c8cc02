import SwaggerProvider.Proofs.Analysis.Origin
import SwaggerProvider.Proofs.Analysis.Skipping
import SwaggerProvider.Proofs.Path.Root

/-!
Every path is accounted for. A path either yields its resources or is skipped with a reason, names
are never given twice, and only a document that breaks a promise to the whole provider ends the
analysis.
-/

set_option autoImplicit false

namespace SwaggerProvider

open Swagger (Document PathItem Schema)

namespace Analysis

/-- The regions that a document declares for an operation whose host is a region template. -/
def declaredRegions? (document : Document) (post : Swagger.Operation) : Option (List String) := do
  let host ← trimmed? post.extensions hostKey
  let keyword ← RegionHost.keyword? host
  some ((document.extensions.list? (regionsStart ++ keyword)).getD [])

/-- All of an instance path is in order but for the regions of its host, of which there are none. -/
def lacksRegions (document : Document) (schemes : Security.Schemes) (path : String)
    (item : PathItem) : Bool :=
  Path.isInstance path &&
    match draft document schemes path item with
    | .ok (_, post) => declaredRegions? document post == some []
    | .error _ => false

/-- How many resources and skipped paths an instance path leads to: one for each region if it
compiles with a region template for a host, and else one. -/
def share (document : Document) (schemes : Security.Schemes) (path : String) (item : PathItem) :
    Nat :=
  match draft document schemes path item with
  | .ok (_, post) => ((declaredRegions? document post).map List.length).getD 1
  | .error _ => 1

/-- How many resources and skipped paths an analysis has for a path. -/
def accounted (analysis : Analysis) (path : String) : Nat :=
  analysis.resources.countP (fun r => r.instancePath == path) +
    analysis.skipped.countP fun s => s.path == path

theorem hosts_spec (document : Document) (name : String) (post : Swagger.Operation) :
    (declaredRegions? document post = some [] ∧
      ∃ fault, hosts document name post = .error (.documentValidation fault)) ∨
    (declaredRegions? document post ≠ some [] ∧
      ∃ hosted, hosts document name post = .ok hosted ∧
        hosted.length = ((declaredRegions? document post).map List.length).getD 1) := by
  unfold declaredRegions? hosts
  cases trimmed? post.extensions hostKey with
  | none => exact .inr ⟨by simp, _, rfl, rfl⟩
  | some host =>
    cases hk : RegionHost.keyword? host with
    | none => simp [hk]
    | some keyword =>
      cases hl : document.extensions.list? (regionsStart ++ keyword) with
      | none => simp [hk, hl]
      | some regions => cases regions <;> simp [hk, hl]

namespace Finding

def weight : Finding → Nat
  | .resources found => found.length
  | .skippedResource _ | .skippedDataSource _ => 1
  | .dataSource _ => 0

def LiesAt (path : String) : Finding → Prop
  | .resources found => ∀ r ∈ found, r.instancePath = path
  | _ => True

end Finding

variable (document : Document) (schemes : Security.Schemes)

theorem finding_of_other {path : String} (item : PathItem) (hp : Path.isInstance path = false) :
    ∃ found, finding document schemes path item = .ok found ∧ found.LiesAt path := by
  unfold finding
  rw [if_neg (by rw [hp]; decide)]
  cases hd : dataSourceAt document schemes path item with
  | ok found => exact ⟨_, rfl, trivial⟩
  | error e =>
    have he := dataSourceAt_skippable document schemes path item e hd
    exact ⟨_, if_pos he, trivial⟩

theorem finding_of_error {path : String} {item : PathItem} (hp : Path.isInstance path = true)
    {e : Error} (h : draft document schemes path item = .error e) :
    finding document schemes path item = .ok (.skippedResource e) := by
  unfold finding
  rw [if_pos hp, resourcesAt_of_error h]
  exact if_pos (draft_skippable document schemes path item e h)

theorem finding_spec (path : String) (item : PathItem) :
    (lacksRegions document schemes path item = true ∧
      ∃ fault, finding document schemes path item = .error (.documentValidation fault)) ∨
    (lacksRegions document schemes path item = false ∧
      ∃ found, finding document schemes path item = .ok found ∧ found.LiesAt path ∧
        (Path.isInstance path = true → found.weight = share document schemes path item)) := by
  unfold lacksRegions share
  cases hp : Path.isInstance path with
  | false =>
    obtain ⟨found, hfound, hlies⟩ := finding_of_other document schemes item hp
    exact .inr ⟨rfl, found, hfound, hlies, fun h => by cases h⟩
  | true =>
    rw [Bool.true_and]
    cases hdraft : draft document schemes path item with
    | error e =>
      exact .inr ⟨rfl, _, finding_of_error document schemes hp hdraft, trivial, fun _ => rfl⟩
    | ok drafted =>
      obtain ⟨base, post⟩ := drafted
      unfold finding
      rw [if_pos hp, resourcesAt_of_ok hdraft]
      rcases hosts_spec document base.name post with ⟨hlacks, fault, hh⟩ | ⟨hhas, hosted, hh, hlen⟩
      · rw [hh]
        exact .inl ⟨beq_iff_eq.2 hlacks, fault, rfl⟩
      · rw [hh]
        refine .inr ⟨beq_eq_false_iff_ne.2 hhas, _, rfl, fun r hmem => ?_, fun _ => ?_⟩
        · obtain ⟨c, hc, -⟩ := draft_eq_ok hdraft
          obtain ⟨e, -, rfl⟩ := List.mem_map.1 hmem
          exact hc.instancePath
        · exact (List.length_map _).trans hlen

variable {document} {schemes}

theorem accounted_addResource {path : String} (analysis : Analysis) {r : Resource}
    (hr : r.instancePath = path) (p : String) :
    (addResource path analysis r).accounted p =
      analysis.accounted p + if path = p then 1 else 0 := by
  unfold addResource accounted
  dsimp only
  split
  · simp only [skip, say, List.countP_append, List.countP_singleton, beq_iff_eq]
    omega
  · simp only [say, List.countP_append, List.countP_singleton, beq_iff_eq, hr]
    omega

theorem accounted_addResources {path : String} (analysis : Analysis) {found : List Resource}
    (h : ∀ r ∈ found, r.instancePath = path) (p : String) :
    (found.foldl (addResource path) analysis).accounted p =
      analysis.accounted p + if path = p then found.length else 0 := by
  induction found generalizing analysis with
  | nil => simp
  | cons r rest ih =>
    rw [List.foldl_cons, ih _ fun r hr => h r (List.mem_cons_of_mem _ hr),
      accounted_addResource analysis (h r List.mem_cons_self), List.length_cons]
    split <;> omega

theorem accounted_skip (analysis : Analysis) (path reason p : String) :
    (analysis.skip path reason).accounted p = analysis.accounted p + if path = p then 1 else 0 := by
  simp only [skip, accounted, List.countP_append, List.countP_singleton, beq_iff_eq]
  omega

theorem accounted_add (analysis : Analysis) {path : String} (item : PathItem) {found : Finding}
    (h : found.LiesAt path) (p : String) :
    (analysis.add document path item found).accounted p =
      analysis.accounted p + if path = p then found.weight else 0 := by
  cases found with
  | resources found => exact accounted_addResources _ h p
  | skippedResource e => exact accounted_skip (analysis.say _) path e.message p
  | skippedDataSource e => exact accounted_skip (analysis.say _) path e.message p
  | dataSource d =>
    have hnone : (if path = p then (Finding.dataSource d).weight else 0) = 0 := ite_self 0
    rw [hnone]
    cases d with
    | none => rfl
    | some d =>
      change (addDataSource path (analysis.say (notes document path item)) d).accounted p = _
      unfold addDataSource
      split <;> rfl

/-- No two resources share a name, and no two data sources. -/
structure NamesDiffer (analysis : Analysis) : Prop where
  resources : (analysis.resources.map Resource.name).Nodup
  dataSources : (analysis.dataSources.map DataSource.name).Nodup

theorem nodup_append_of_new {α : Type} (name : α → String) {items : List α} {new : α}
    (h : (items.map name).Nodup) (hnew : ¬(items.any fun other => name other == name new) = true) :
    ((items ++ [new]).map name).Nodup := by
  have hmem : name new ∉ items.map name := by
    intro hmem
    obtain ⟨other, hother, hname⟩ := List.mem_map.1 hmem
    exact hnew (List.any_eq_true.2 ⟨other, hother, beq_iff_eq.2 hname⟩)
  rw [List.map_append, List.nodup_append]
  refine ⟨h, by simp, fun a ha b hb => ?_⟩
  rw [List.map_singleton, List.mem_singleton] at hb
  exact hb ▸ fun hab => hmem (hab ▸ ha)

theorem NamesDiffer.addResource {analysis : Analysis} (h : analysis.NamesDiffer) (path : String)
    (r : Resource) : (addResource path analysis r).NamesDiffer := by
  unfold Analysis.addResource
  dsimp only
  split
  · exact ⟨h.resources, h.dataSources⟩
  · next hnew => exact ⟨nodup_append_of_new Resource.name h.resources hnew, h.dataSources⟩

theorem NamesDiffer.addDataSource {analysis : Analysis} (h : analysis.NamesDiffer) (path : String)
    (d : DataSource) : (addDataSource path analysis d).NamesDiffer := by
  unfold Analysis.addDataSource
  split
  · exact ⟨h.resources, h.dataSources⟩
  · next hnew => exact ⟨h.resources, nodup_append_of_new DataSource.name h.dataSources hnew⟩

theorem NamesDiffer.add {analysis : Analysis} (h : analysis.NamesDiffer) (path : String)
    (item : PathItem) (found : Finding) : (analysis.add document path item found).NamesDiffer := by
  have hsaid : (analysis.say (notes document path item)).NamesDiffer :=
    ⟨h.resources, h.dataSources⟩
  cases found with
  | resources found =>
    change (found.foldl (Analysis.addResource path) _).NamesDiffer
    generalize analysis.say (notes document path item) = said at hsaid
    induction found generalizing said with
    | nil => exact hsaid
    | cons r rest ih => exact ih _ (hsaid.addResource path r)
  | skippedResource e => exact ⟨h.resources, h.dataSources⟩
  | skippedDataSource e => exact ⟨h.resources, h.dataSources⟩
  | dataSource d =>
    cases d with
    | none => exact hsaid
    | some d => exact hsaid.addDataSource path d

theorem namesDiffer_start (backend : Backend) (schemes : Security.Schemes) :
    (start document backend schemes).NamesDiffer := ⟨.nil, .nil⟩

theorem NamesDiffer.addAll {analysis : Analysis} (h : analysis.NamesDiffer)
    (found : List (String × PathItem × Finding)) :
    (addAll document analysis found).NamesDiffer := by
  induction found generalizing analysis with
  | nil => exact h
  | cons f rest ih => exact ih (h.add f.1 f.2.1 f.2.2)

theorem namesDiffer_of_analyse {url : String} {analysis : Analysis}
    (h : analyse document url = .ok analysis) : analysis.NamesDiffer := by
  obtain ⟨backend, found, -, -, rfl⟩ := analyse_eq_ok.1 h
  exact (namesDiffer_start _ _).addAll found

theorem accounted_addAll_of_notMem (analysis : Analysis)
    {found : List (String × PathItem × Finding)} (h : ∀ f ∈ found, f.2.2.LiesAt f.1) {p : String}
    (hp : p ∉ found.map Prod.fst) :
    (addAll document analysis found).accounted p = analysis.accounted p := by
  induction found generalizing analysis with
  | nil => rfl
  | cons f rest ih =>
    simp only [List.map_cons, List.mem_cons, not_or] at hp
    change (addAll document (analysis.add document f.1 f.2.1 f.2.2) rest).accounted p = _
    rw [ih _ (fun g hg => h g (List.mem_cons_of_mem _ hg)) hp.2,
      accounted_add analysis f.2.1 (h f List.mem_cons_self), if_neg (Ne.symm hp.1), Nat.add_zero]

theorem accounted_addAll_of_mem (analysis : Analysis)
    {found : List (String × PathItem × Finding)} (h : ∀ f ∈ found, f.2.2.LiesAt f.1)
    (hn : (found.map Prod.fst).Nodup) {f : String × PathItem × Finding} (hf : f ∈ found) :
    (addAll document analysis found).accounted f.1 = analysis.accounted f.1 + f.2.2.weight := by
  induction found generalizing analysis with
  | nil => simp at hf
  | cons g rest ih =>
    simp only [List.map_cons, List.nodup_cons] at hn
    have hrest : ∀ f ∈ rest, f.2.2.LiesAt f.1 := fun f hf => h f (List.mem_cons_of_mem _ hf)
    change (addAll document (analysis.add document g.1 g.2.1 g.2.2) rest).accounted f.1 = _
    rcases List.mem_cons.1 hf with rfl | hmem
    · rw [accounted_addAll_of_notMem _ hrest hn.1,
        accounted_add analysis f.2.1 (h f List.mem_cons_self), if_pos rfl]
    · have hne : g.1 ≠ f.1 := fun heq => hn.1 (heq ▸ List.mem_map_of_mem hmem)
      rw [ih _ hrest hn.2 hmem, accounted_add analysis g.2.1 (h g List.mem_cons_self),
        if_neg hne, Nat.add_zero]

/-- The first path that lacks the regions of its host ends the run, and nothing else does. -/
theorem findings_spec (document : Document) (schemes : Security.Schemes)
    (paths : List (String × PathItem)) :
    ((∃ e ∈ paths, lacksRegions document schemes e.1 e.2 = true) ∧
      ∃ fault, findings document schemes paths = .error (.documentValidation fault)) ∨
    ((∀ e ∈ paths, lacksRegions document schemes e.1 e.2 = false) ∧
      ∃ found, findings document schemes paths = .ok found) := by
  induction paths with
  | nil => exact .inr ⟨fun e he => by simp at he, [], rfl⟩
  | cons e rest ih =>
    have hstep : findings document schemes (e :: rest) =
        (finding document schemes e.1 e.2).bind fun first =>
          (findings document schemes rest).bind fun more =>
            .ok ((e.1, e.2, first) :: more) := rfl
    rw [hstep]
    rcases finding_spec document schemes e.1 e.2 with
      ⟨hlacks, fault, hf⟩ | ⟨hhas, first, hf, -, -⟩
    · refine .inl ⟨⟨e, List.mem_cons_self, hlacks⟩, fault, ?_⟩
      rw [hf]
      rfl
    · rw [hf]
      rcases ih with ⟨⟨g, hg, hlacks⟩, fault, hrest⟩ | ⟨hhasRest, more, hrest⟩
      · refine .inl ⟨⟨g, List.mem_cons_of_mem _ hg, hlacks⟩, fault, ?_⟩
        rw [hrest]
        rfl
      · refine .inr ⟨fun g hg => ?_, _, by rw [hrest]; rfl⟩
        rcases List.mem_cons.1 hg with rfl | hg
        · exact hhas
        · exact hhasRest g hg

end Analysis

abbrev Invalidates {α : Type} (x : Except Error α) : Prop :=
  x.FailsOnly fun e => ∃ fault, e = .documentValidation fault

theorem Backend.readMultiRegion_invalidates (document : Document) :
    Invalidates (readMultiRegion document) := by
  unfold readMultiRegion
  split
  · exact .ok _
  · split
    · exact .ok _
    · split
      · exact .error ⟨_, rfl⟩
      · exact .ok _

theorem Backend.hostOfUrl_invalidates (url : String) : Invalidates (hostOfUrl url) := by
  unfold hostOfUrl
  split
  · exact .error ⟨_, rfl⟩
  · split
    · exact .error ⟨_, rfl⟩
    · split
      · exact .ok _
      · exact .error ⟨_, rfl⟩

theorem Backend.ofDocument_invalidates (document : Document) (url : String) :
    Invalidates (ofDocument document url) := by
  refine .bind (readMultiRegion_invalidates document) fun multiRegion => ?_
  dsimp only
  split
  · refine .bind (.ok _) fun host => ?_
    split
    · exact .error ⟨_, rfl⟩
    · exact .ok _
  · split
    · refine .bind (.ok _) fun host => ?_
      split
      · exact .error ⟨_, rfl⟩
      · exact .ok _
    · refine .bind (hostOfUrl_invalidates url) fun host => ?_
      split
      · exact .error ⟨_, rfl⟩
      · exact .ok _

/-- What the analysis owes to a document that it accepts. A document has one entry for a path. -/
structure Analysis.Accounts (document : Document) (analysis : Analysis) : Prop where
  names : analysis.NamesDiffer
  paths : document.paths.keys.Nodup → ∀ path item, (path, item) ∈ document.paths →
    Path.isInstance path = true → analysis.accounted path =
      Analysis.share document (Security.Schemes.ofDocument document) path item

theorem Analysis.accounts_addAll {document : Document} {backend : Backend}
    {found : List (String × PathItem × Finding)}
    (h : findings document (Security.Schemes.ofDocument document) document.paths = .ok found) :
    (addAll document (start document backend (Security.Schemes.ofDocument document)) found).Accounts
      document := by
  obtain ⟨hpaths, hfound⟩ := findings_eq_ok h
  have hspec : ∀ f ∈ found, f.2.2.LiesAt f.1 ∧ (Path.isInstance f.1 = true →
      f.2.2.weight = share document (Security.Schemes.ofDocument document) f.1 f.2.1) := by
    intro f hf
    rcases finding_spec document (Security.Schemes.ofDocument document) f.1 f.2.1 with
      ⟨-, fault, herror⟩ | ⟨-, first, hok, hlies, hweight⟩
    · rw [hfound f hf] at herror
      cases herror
    · rw [hfound f hf] at hok
      cases hok
      exact ⟨hlies, hweight⟩
  refine ⟨(namesDiffer_start _ _).addAll found, fun hn path item hmem hp => ?_⟩
  rw [← hpaths] at hmem
  obtain ⟨f, hf, hfe⟩ := List.mem_map.1 hmem
  cases hfe
  have hkeys : (found.map Prod.fst).Nodup := by
    have h : found.map Prod.fst = document.paths.keys := by
      rw [← hpaths, Table.keys, List.map_map]
      rfl
    rwa [h]
  rw [accounted_addAll_of_mem _ (fun f hf => (hspec f hf).1) hkeys hf, (hspec f hf).2 hp]
  exact Nat.zero_add _

/-- The analysis looks up no path in vain, it is ended only by a document that breaks a promise to
the whole provider, and otherwise accounts for every instance path. -/
theorem every_path_accounted_for (document : Document) (url : String) :
    (∀ path root, Path.findRoot path document.paths.keys = .ok root →
      (document.paths.get? root).isSome = true) ∧
    (∀ e, analyse document url = .error e → ∃ fault, e = .documentValidation fault) ∧
    ((∃ e, analyse document url = .error e) ↔
      (∃ e, Backend.ofDocument document url = .error e) ∨
      ∃ path item, (path, item) ∈ document.paths ∧
        Analysis.lacksRegions document (Security.Schemes.ofDocument document) path item = true) ∧
    ∀ analysis, analyse document url = .ok analysis → analysis.Accounts document := by
  refine ⟨fun path root h => Table.get?_isSome_of_mem_keys ((Path.findRoot_eq_ok h).1), ?_⟩
  rw [analyse_eq]
  cases hb : Backend.ofDocument document url with
  | error e =>
    refine ⟨fun other hother => ?_, ⟨fun _ => .inl ⟨e, rfl⟩, fun _ => ⟨e, rfl⟩⟩, ?_⟩
    · cases hother
      exact Backend.ofDocument_invalidates document url e hb
    · intro analysis h
      cases h
  | ok backend =>
    have hspec := Analysis.findings_spec document (Security.Schemes.ofDocument document)
      document.paths
    rcases hspec with ⟨⟨entry, hentry, hlacks⟩, fault, hf⟩ | ⟨hhas, found, hf⟩
    · rw [hf]
      refine ⟨fun other hother => ?_, ⟨fun _ => ?_, fun _ => ⟨_, rfl⟩⟩, fun analysis h => ?_⟩
      · cases hother
        exact ⟨fault, rfl⟩
      · exact .inr ⟨entry.1, entry.2, hentry, hlacks⟩
      · cases h
    · rw [hf]
      refine ⟨fun e h => ?_, ⟨?_, ?_⟩, fun analysis h => ?_⟩
      · cases h
      · rintro ⟨e, h⟩
        cases h
      · rintro (⟨e, h⟩ | ⟨path, item, hmem, hlacks⟩)
        · cases h
        · rw [hhas (path, item) hmem] at hlacks
          cases hlacks
      · cases h
        exact Analysis.accounts_addAll hf

namespace Analysis

def cdnText : Schema := { Schema.empty with type := some "string" }

def cdnBody : Schema := { Schema.empty with properties := [("label", cdnText)] }

def cdnReturned : Schema := { Schema.empty with
  properties := [("id", { cdnText with readOnly := true }), ("label", cdnText)] }

def cdnPost : Swagger.Operation := { Swagger.Operation.empty with
  parameters := [⟨"body", "body", true, some cdnBody, []⟩]
  responses := [("201", ⟨"", some cdnReturned, []⟩)]
  extensions := [(hostKey, .string "cdn.${zone}.example.com")] }

def cdnGet : Swagger.Operation := { Swagger.Operation.empty with
  responses := [("200", ⟨"", some cdnReturned, []⟩)] }

def cdnDocument : Document := { Document.empty with
  host := some "api.example.com"
  schemes := ["https"]
  paths := [
    ("/cdns", { PathItem.empty with post := some cdnPost }),
    ("/cdns/{id}", { PathItem.empty with get := some cdnGet }),
    ("/cdns/{id}/logs/{log}", PathItem.empty)]
  extensions := [(regionsStart ++ "zone", .string "east, East, west")] }

/-- Without its regions the document is refused. -/
theorem every_path_accounted_for_cdn :
    (∃ analysis, analyse cdnDocument "" = .ok analysis ∧ analysis.NamesDiffer ∧
      analysis.accounted "/cdns/{id}" = 3 ∧ analysis.accounted "/cdns/{id}/logs/{log}" = 1) ∧
    ∃ fault, analyse { cdnDocument with extensions := [] } "" =
      .error (.documentValidation fault) := by
  constructor
  · obtain ⟨-, -, -, haccounts⟩ := every_path_accounted_for cdnDocument ""
    have hok : (analyse cdnDocument "").isOk = true := by decide +kernel
    have hkeys : cdnDocument.paths.keys.Nodup := by decide
    cases h : analyse cdnDocument "" with
    | error e =>
      rw [h] at hok
      cases hok
    | ok analysis =>
      obtain ⟨hnames, hpaths⟩ := haccounts analysis h
      refine ⟨analysis, rfl, hnames, ?_, ?_⟩
      · exact (hpaths hkeys _ { PathItem.empty with get := some cdnGet }
          (by simp [cdnDocument]) (by decide)).trans (by decide +kernel)
      · exact (hpaths hkeys _ PathItem.empty (by simp [cdnDocument]) (by decide)).trans
          (by decide +kernel)
  · obtain ⟨-, hfault, herror, -⟩ :=
      every_path_accounted_for { cdnDocument with extensions := [] } ""
    obtain ⟨e, he⟩ := herror.2 (.inr ⟨"/cdns/{id}", { PathItem.empty with get := some cdnGet },
      by simp [cdnDocument], by decide +kernel⟩)
    obtain ⟨fault, rfl⟩ := hfault e he
    exact ⟨fault, he⟩

end Analysis

end SwaggerProvider
