import SwaggerProvider.Proofs.Analysis.Accounting
import SwaggerProvider.Proofs.Analysis.Grounding
import SwaggerProvider.Proofs.Config.Headers

/-!
Paths in another order. Each path is looked at on its own, and of the other paths it only looks up
some, so the order of the paths decides nothing but the order of what is found. Where the names of
all that is built differ, everything is entered.
-/

set_option autoImplicit false

namespace SwaggerProvider

open Swagger (Document PathItem)

/-- The same document but for the order of its paths, which are all declared once. -/
structure Swagger.Document.Reordered (d e : Document) : Prop where
  paths : d.paths.Perm e.paths
  nodup : d.paths.keys.Nodup
  rest : e = { d with paths := e.paths }

theorem Path.findRoot_congr {known other : List String} (h : ∀ path, path ∈ known ↔ path ∈ other)
    (path : String) : findRoot path known = findRoot path other := by
  have hcontains (path : String) : known.contains path = other.contains path := by
    rw [Bool.eq_iff_iff, List.contains_iff_mem, List.contains_iff_mem, h]
  simp only [findRoot, hcontains]

namespace Swagger.Document.Reordered

open Analysis

variable {d e : Document} (h : d.Reordered e)

include h

theorem symm : e.Reordered d where
  paths := h.paths.symm
  nodup := (h.paths.map Prod.fst).nodup_iff.1 h.nodup
  rest := by rw [h.rest]

theorem get?_eq (path : String) : e.paths.get? path = d.paths.get? path :=
  (Table.get?_perm h.paths h.nodup path).symm

theorem findRoot_eq (path : String) :
    Path.findRoot path e.paths.keys = Path.findRoot path d.paths.keys :=
  Path.findRoot_congr (fun _ => (h.paths.map Prod.fst).mem_iff.symm) path

theorem definitions_eq : e.definitions = d.definitions := by
  rw [h.rest]

theorem extensions_eq : e.extensions = d.extensions := by
  rw [h.rest]

theorem schemes_eq : Security.Schemes.ofDocument e = Security.Schemes.ofDocument d := by
  rw [h.rest]
  rfl

theorem backend_eq (url : String) : Backend.ofDocument e url = Backend.ofDocument d url := by
  rw [h.rest]
  rfl

theorem candidate_eq (path : String) (item : PathItem) :
    candidate e path item = candidate d path item := by
  simp only [candidate, h.findRoot_eq, h.get?_eq]

theorem item?_eq (path : String) : item? e path = item? d path := by
  simp only [item?, h.get?_eq]

theorem parentsFrom_eq (path : String) (names : List String) (parents : List Parent)
    (chain : List Path.Parent) :
    parentsFrom e path names parents chain = parentsFrom d path names parents chain := by
  induction chain generalizing names parents with
  | nil => rfl
  | cons p rest ih => simp only [parentsFrom, h.item?_eq, ih]

theorem parentsOf_eq (path : String) : parentsOf e path = parentsOf d path := by
  simp only [parentsOf, h.parentsFrom_eq]

theorem hosts_eq (name : String) (post : Swagger.Operation) :
    hosts e name post = hosts d name post := by
  simp only [hosts, h.extensions_eq]

theorem resourcesAt_eq (schemes : Security.Schemes) (path : String) (item : PathItem) :
    resourcesAt e schemes path item = resourcesAt d schemes path item := by
  simp only [resourcesAt, draft, h.candidate_eq, h.definitions_eq,
    h.parentsOf_eq, h.hosts_eq]

theorem dataSourceAt_eq (schemes : Security.Schemes) (path : String) (item : PathItem) :
    dataSourceAt e schemes path item = dataSourceAt d schemes path item := by
  simp only [dataSourceAt, h.definitions_eq, h.parentsOf_eq]

theorem finding_eq (schemes : Security.Schemes) (path : String) (item : PathItem) :
    finding e schemes path item = finding d schemes path item := by
  simp only [finding, h.resourcesAt_eq, h.dataSourceAt_eq]

theorem findings_eq (schemes : Security.Schemes) (paths : List (String × PathItem)) :
    findings e schemes paths = findings d schemes paths := by
  induction paths with
  | nil => rfl
  | cons entry rest ih => simp only [findings, h.finding_eq, ih]

end Swagger.Document.Reordered

namespace Analysis

section Findings

variable {document : Document} {schemes : Security.Schemes}

theorem findings_cons_eq_ok {entry : String × PathItem} {rest : List (String × PathItem)}
    {found : List (String × PathItem × Finding)} :
    findings document schemes (entry :: rest) = .ok found ↔
      ∃ first more, finding document schemes entry.1 entry.2 = .ok first ∧
        findings document schemes rest = .ok more ∧
        (entry.1, entry.2, first) :: more = found := by
  constructor
  · intro h
    obtain ⟨first, hfirst, h⟩ := Except.bind_eq_ok.1 h
    obtain ⟨more, hmore, h⟩ := Except.bind_eq_ok.1 h
    exact ⟨first, more, hfirst, hmore, Except.ok.inj h⟩
  · rintro ⟨first, more, hfirst, hmore, rfl⟩
    rw [findings, hfirst, hmore]
    rfl

theorem findings_perm {paths others : List (String × PathItem)} (h : paths.Perm others)
    {found : List (String × PathItem × Finding)}
    (hfound : findings document schemes paths = .ok found) :
    ∃ more, findings document schemes others = .ok more ∧ found.Perm more := by
  induction h generalizing found with
  | nil => exact ⟨found, hfound, .refl _⟩
  | cons entry _ ih =>
    obtain ⟨first, rest, hfirst, hrest, rfl⟩ := findings_cons_eq_ok.1 hfound
    obtain ⟨more, hmore, hperm⟩ := ih hrest
    exact ⟨_, findings_cons_eq_ok.2 ⟨first, more, hfirst, hmore, rfl⟩, hperm.cons _⟩
  | swap entry next rest =>
    obtain ⟨first, _, hfirst, htail, rfl⟩ := findings_cons_eq_ok.1 hfound
    obtain ⟨second, more, hsecond, hmore, rfl⟩ := findings_cons_eq_ok.1 htail
    have hswapped := findings_cons_eq_ok.2 ⟨first, more, hfirst, hmore, rfl⟩
    exact ⟨_, findings_cons_eq_ok.2 ⟨second, _, hsecond, hswapped, rfl⟩, .swap _ _ _⟩
  | trans _ _ ih ih' =>
    obtain ⟨between, hbetween, hperm⟩ := ih hfound
    obtain ⟨more, hmore, hperm'⟩ := ih' hbetween
    exact ⟨more, hmore, hperm.trans hperm'⟩

end Findings

namespace Finding

def built : Finding → List Resource
  | .resources found => found
  | _ => []

def collected : Finding → List DataSource
  | .dataSource found => found.toList
  | _ => []

def skips (path : String) : Finding → List Skipped
  | .skippedResource e | .skippedDataSource e => [⟨path, e.message⟩]
  | _ => []

end Finding

structure Gains (a b : Analysis) (resources : List Resource) (dataSources : List DataSource)
    (skipped : List Skipped) : Prop where
  resources : b.resources = a.resources ++ resources
  dataSources : b.dataSources = a.dataSources ++ dataSources
  skipped : b.skipped = a.skipped ++ skipped

theorem Gains.refl (a : Analysis) : Gains a a [] [] [] where
  resources := (List.append_nil _).symm
  dataSources := (List.append_nil _).symm
  skipped := (List.append_nil _).symm

theorem Gains.trans {a b c : Analysis} {rs rs' : List Resource} {ds ds' : List DataSource}
    {ss ss' : List Skipped} (h : Gains a b rs ds ss) (h' : Gains b c rs' ds' ss') :
    Gains a c (rs ++ rs') (ds ++ ds') (ss ++ ss') where
  resources := by rw [h'.resources, h.resources, List.append_assoc]
  dataSources := by rw [h'.dataSources, h.dataSources, List.append_assoc]
  skipped := by rw [h'.skipped, h.skipped, List.append_assoc]

section Entering

variable (document : Document) {a : Analysis}

theorem not_any_name {α : Type} {name : α → String} {items rest : List α} {new : α}
    (h : ((items ++ new :: rest).map name).Nodup) :
    ¬(items.any fun other => name other == name new) = true := by
  intro hany
  obtain ⟨other, hother, hname⟩ := List.any_eq_true.1 hany
  rw [List.map_append, List.nodup_append] at h
  exact h.2.2 _ (List.mem_map_of_mem hother) _ (List.mem_map_of_mem List.mem_cons_self)
    (beq_iff_eq.1 hname)

theorem addResource_gains (path : String) {r : Resource} {rest : List Resource}
    (h : ((a.resources ++ r :: rest).map Resource.name).Nodup) :
    Gains a (addResource path a r) [r] [] [] := by
  unfold addResource
  dsimp only
  rw [if_neg (not_any_name h)]
  exact ⟨rfl, (List.append_nil _).symm, (List.append_nil _).symm⟩

theorem addResources_gains (path : String) {found : List Resource}
    (h : ((a.resources ++ found).map Resource.name).Nodup) :
    Gains a (found.foldl (addResource path) a) found [] [] := by
  induction found generalizing a with
  | nil => exact .refl a
  | cons r rest ih =>
    have hfirst := addResource_gains path h
    refine hfirst.trans (ih ?_)
    rwa [hfirst.resources, List.append_assoc]

theorem addDataSource_gains (path : String) {d : DataSource}
    (h : ((a.dataSources ++ [d]).map DataSource.name).Nodup) :
    Gains a (addDataSource path a d) [] [d] [] := by
  unfold addDataSource
  rw [if_neg (not_any_name h)]
  exact ⟨(List.append_nil _).symm, rfl, (List.append_nil _).symm⟩

theorem add_gains {path : String} (item : PathItem) {found : Finding}
    (hresources : ((a.resources ++ found.built).map Resource.name).Nodup)
    (hdataSources : ((a.dataSources ++ found.collected).map DataSource.name).Nodup) :
    Gains a (a.add document path item found) found.built found.collected (found.skips path) := by
  have hsaid : Gains a (a.say (notes document path item)) [] [] [] :=
    ⟨(Gains.refl a).resources, (Gains.refl a).dataSources, (Gains.refl a).skipped⟩
  cases found with
  | resources found =>
    exact hsaid.trans (addResources_gains path hresources)
  | dataSource found =>
    cases found with
    | none => exact hsaid
    | some d => exact hsaid.trans (addDataSource_gains path hdataSources)
  | skippedResource e => exact ⟨hsaid.resources, hsaid.dataSources, rfl⟩
  | skippedDataSource e => exact ⟨hsaid.resources, hsaid.dataSources, rfl⟩

/-- Where all names differ, everything that is found is entered. -/
theorem addAll_gains {found : List (String × PathItem × Finding)}
    (hresources : ((a.resources ++ found.flatMap fun f => f.2.2.built).map Resource.name).Nodup)
    (hdataSources :
      ((a.dataSources ++ found.flatMap fun f => f.2.2.collected).map DataSource.name).Nodup) :
    Gains a (addAll document a found) (found.flatMap fun f => f.2.2.built)
      (found.flatMap fun f => f.2.2.collected) (found.flatMap fun f => f.2.2.skips f.1) := by
  induction found generalizing a with
  | nil => exact .refl a
  | cons f rest ih =>
    rw [List.flatMap_cons, ← List.append_assoc] at hresources hdataSources
    have hfirst : Gains a (a.add document f.1 f.2.1 f.2.2) _ _ _ :=
      add_gains document f.2.1 (hresources.sublist ((List.sublist_append_left _ _).map _))
        (hdataSources.sublist ((List.sublist_append_left _ _).map _))
    refine hfirst.trans (ih ?_ ?_)
    · rwa [hfirst.resources]
    · rwa [hfirst.dataSources]

end Entering

/-- The resources of a path, whether their names are taken or not. -/
def builtAt (document : Document) (path : String) (item : PathItem) : List Resource :=
  if Path.isInstance path then
    (resourcesAt document (Security.Schemes.ofDocument document) path item).toOption.getD []
  else []

def collectedAt (document : Document) (path : String) (item : PathItem) : List DataSource :=
  if Path.isInstance path then []
  else
    (dataSourceAt document (Security.Schemes.ofDocument document) path item).toOption.join.toList

/-- No two of the resources that the paths lead to share a name, and no two of the data sources. -/
structure BuiltApart (document : Document) : Prop where
  resources :
    ((document.paths.flatMap fun e => builtAt document e.1 e.2).map Resource.name).Nodup
  dataSources :
    ((document.paths.flatMap fun e => collectedAt document e.1 e.2).map DataSource.name).Nodup

theorem finding_eq_ok {document : Document} {path : String} {item : PathItem} {found : Finding}
    (h : finding document (Security.Schemes.ofDocument document) path item = .ok found) :
    found.built = builtAt document path item ∧
      found.collected = collectedAt document path item := by
  unfold finding at h
  unfold builtAt collectedAt
  split at h
  · next hpath =>
    rw [if_pos hpath, if_pos hpath]
    split at h
    · next hfound =>
      cases h
      rw [hfound]
      exact ⟨rfl, rfl⟩
    · next herror =>
      split at h
      · cases h
        rw [herror]
        exact ⟨rfl, rfl⟩
      · cases h
  · next hpath =>
    rw [if_neg hpath, if_neg hpath]
    split at h
    · next hfound =>
      cases h
      rw [hfound]
      exact ⟨rfl, rfl⟩
    · next herror =>
      split at h
      · cases h
        rw [herror]
        exact ⟨rfl, rfl⟩
      · cases h

theorem findings_flatMap {document : Document} {found : List (String × PathItem × Finding)}
    (h : findings document (Security.Schemes.ofDocument document) document.paths = .ok found) :
    (found.flatMap fun f => f.2.2.built) =
        document.paths.flatMap (fun e => builtAt document e.1 e.2) ∧
      (found.flatMap fun f => f.2.2.collected) =
        document.paths.flatMap fun e => collectedAt document e.1 e.2 := by
  obtain ⟨hpaths, hfindings⟩ := findings_eq_ok h
  rw [← hpaths, List.flatMap_map, List.flatMap_map]
  exact ⟨List.flatMap_congr fun f hf => (finding_eq_ok (hfindings f hf)).1,
    List.flatMap_congr fun f hf => (finding_eq_ok (hfindings f hf)).2⟩

/-- The same results but for their order; of two headers with one name either may be kept. -/
structure Rearranged (a b : Analysis) : Prop where
  resources : a.resources.Perm b.resources
  dataSources : a.dataSources.Perm b.dataSources
  skipped : a.skipped.Perm b.skipped
  backend : a.backend = b.backend
  security : a.security = b.security
  headerNames : (a.headers.map Header.configName).Perm (b.headers.map Header.configName)

theorem headerNames_perm {d e : Document} (h : d.paths.Perm e.paths) :
    ((Header.ofDocument d).map Header.configName).Perm
      ((Header.ofDocument e).map Header.configName) := by
  have hd : Header.FirstOfEach (Header.everywhere d) _ := Header.firstOfEach_distinct _
  have he : Header.FirstOfEach (Header.everywhere e) _ := Header.firstOfEach_distinct _
  have hall : (Header.everywhere d).Perm (Header.everywhere e) :=
    (h.map Prod.snd).flatMap_right _
  refine (List.perm_ext_iff_of_nodup hd.names he.names).2 fun name => ?_
  rw [hd.mem_names_iff, he.mem_names_iff, (hall.map _).mem_iff]

theorem exists_reordered {d e : Document} {url : String} {a : Analysis} (h : d.Reordered e)
    (ha : analyse d url = .ok a) : ∃ b, analyse e url = .ok b := by
  obtain ⟨backend, found, hbackend, hfound, -⟩ := analyse_eq_ok.1 ha
  obtain ⟨more, hmore, -⟩ := findings_perm h.paths hfound
  refine ⟨_, analyse_eq_ok.2 ⟨backend, more, (h.backend_eq url).trans hbackend, ?_, rfl⟩⟩
  rw [h.schemes_eq, h.findings_eq, hmore]

theorem rearranged_of_reordered {d e : Document} {url : String} {a b : Analysis}
    (h : d.Reordered e) (hapart : BuiltApart d) (ha : analyse d url = .ok a)
    (hb : analyse e url = .ok b) : Rearranged a b := by
  obtain ⟨backend, found, hbackend, hfound, rfl⟩ := analyse_eq_ok.1 ha
  obtain ⟨other, others, hother, hothers, rfl⟩ := analyse_eq_ok.1 hb
  obtain ⟨more, hmore, hperm⟩ := findings_perm h.paths hfound
  rw [h.backend_eq, hbackend] at hother
  rw [h.schemes_eq, h.findings_eq, hmore] at hothers
  obtain rfl := Except.ok.inj hother
  obtain rfl := Except.ok.inj hothers
  obtain ⟨hbuilt, hcollected⟩ := findings_flatMap hfound
  have hresources := hbuilt ▸ hapart.resources
  have hdataSources := hcollected ▸ hapart.dataSources
  have hleft : Gains (start d backend (Security.Schemes.ofDocument d)) _ _ _ _ :=
    addAll_gains d hresources hdataSources
  have hright : Gains (start e backend (Security.Schemes.ofDocument e)) _ _ _ _ :=
    addAll_gains e (((hperm.flatMap_right _).map _).nodup_iff.1 hresources)
      (((hperm.flatMap_right _).map _).nodup_iff.1 hdataSources)
  have hbasis := @sameBasis_addAll d (start d backend (Security.Schemes.ofDocument d)) found
  have hbasis' := @sameBasis_addAll e (start e backend (Security.Schemes.ofDocument e)) more
  constructor
  case resources =>
    rw [hleft.resources, hright.resources]
    exact hperm.flatMap_right _
  case dataSources =>
    rw [hleft.dataSources, hright.dataSources]
    exact hperm.flatMap_right _
  case skipped =>
    rw [hleft.skipped, hright.skipped]
    exact hperm.flatMap_right _
  case backend => rw [hbasis.backend, hbasis'.backend]; rfl
  case security => rw [hbasis.security, hbasis'.security, h.schemes_eq]; rfl
  case headerNames =>
    rw [hbasis.headers, hbasis'.headers]
    exact headerNames_perm h.paths

/-- The order of the paths decides neither whether there is an analysis nor, where the names of all
that is built differ, what is in it. -/
theorem analyse_reordered {d e : Document} (h : d.Reordered e) (url : String) :
    ((∃ a, analyse d url = .ok a) ↔ ∃ b, analyse e url = .ok b) ∧
      (BuiltApart d → ∀ a b, analyse d url = .ok a → analyse e url = .ok b → Rearranged a b) := by
  refine ⟨⟨?_, ?_⟩, fun hapart a b ha hb => rearranged_of_reordered h hapart ha hb⟩
  · rintro ⟨a, ha⟩
    exact exists_reordered h ha
  · rintro ⟨b, hb⟩
    exact exists_reordered h.symm hb

def wallsFirst : Document := { wallDocument with paths := wallDocument.paths.reverse }

theorem analyse_reordered_walls :
    ∃ a b, wallDocument.Reordered wallsFirst ∧ analyse wallDocument "" = .ok a ∧
      analyse wallsFirst "" = .ok b ∧ Rearranged a b ∧
      a.resources.map Resource.name = ["cdns_v1", "cdns_v1_walls"] ∧
      b.resources.map Resource.name = ["cdns_v1_walls", "cdns_v1"] := by
  have hreordered : wallDocument.Reordered wallsFirst :=
    ⟨wallDocument.paths.reverse_perm.symm, by decide, rfl⟩
  have hapart : BuiltApart wallDocument := ⟨by decide +kernel, by decide +kernel⟩
  have hseen : (analyse wallDocument "").toOption.map (fun a => a.resources.map Resource.name) =
      some ["cdns_v1", "cdns_v1_walls"] := by decide +kernel
  have hreversed : (analyse wallsFirst "").toOption.map (fun b => b.resources.map Resource.name) =
      some ["cdns_v1_walls", "cdns_v1"] := by decide +kernel
  obtain ⟨a, ha, hnames⟩ := Except.toOption_map_eq_some.1 hseen
  obtain ⟨b, hb, hnames'⟩ := Except.toOption_map_eq_some.1 hreversed
  exact ⟨a, b, hreordered, ha, hb, (analyse_reordered hreordered "").2 hapart a b ha hb, hnames,
    hnames'⟩

end Analysis

end SwaggerProvider
