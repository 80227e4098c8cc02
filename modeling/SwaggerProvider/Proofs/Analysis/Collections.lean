import Mathlib.Data.List.Nodup
import SwaggerProvider.Proofs.Analysis.Reordering

/-!
What becomes of the collections of a document. One that does not compile is skipped with a reason,
and of those that share a name the first one is kept. The others are only mentioned in the log; no
data source has their path, and they do not count as skipped.
-/

set_option autoImplicit false

namespace SwaggerProvider

open Swagger (Document PathItem)

namespace Analysis

/-- A path shows in an analysis: with a data source, or among the paths that were skipped. -/
def Shows (analysis : Analysis) (path : String) : Prop :=
  (∃ d ∈ analysis.dataSources, d.path = path) ∨ ∃ s ∈ analysis.skipped, s.path = path

/-- The log mentions that the name of a path's data source is taken. -/
def Mentions (analysis : Analysis) (path : String) (d : DataSource) : Prop :=
  warn s!"skipping data source {path}: duplicate name '{d.name}'" ∈ analysis.events

/-- Whatever the one analysis holds, the other one holds, too. -/
structure Keeps (a b : Analysis) : Prop where
  dataSources : a.dataSources ⊆ b.dataSources
  skipped : a.skipped ⊆ b.skipped
  events : a.events ⊆ b.events

namespace Keeps

theorem refl (a : Analysis) : Keeps a a where
  dataSources := List.Subset.refl _
  skipped := List.Subset.refl _
  events := List.Subset.refl _

theorem trans {a b c : Analysis} (h : Keeps a b) (h' : Keeps b c) : Keeps a c where
  dataSources := List.Subset.trans h.dataSources h'.dataSources
  skipped := List.Subset.trans h.skipped h'.skipped
  events := List.Subset.trans h.events h'.events

theorem say (a : Analysis) (events : List Log.Event) : Keeps a (a.say events) where
  dataSources := List.Subset.refl _
  skipped := List.Subset.refl _
  events := List.subset_append_left _ _

theorem skip (a : Analysis) (path reason : String) : Keeps a (a.skip path reason) where
  dataSources := List.Subset.refl _
  skipped := List.subset_append_left _ _
  events := List.Subset.refl _

theorem addResource (path : String) (a : Analysis) (r : Resource) :
    Keeps a (addResource path a r) := by
  unfold Analysis.addResource
  dsimp only
  split
  · exact (skip a path _).trans (say _ _)
  · exact ⟨List.Subset.refl _, List.Subset.refl _, List.subset_append_left _ _⟩

theorem addDataSource (path : String) (a : Analysis) (d : DataSource) :
    Keeps a (addDataSource path a d) := by
  unfold Analysis.addDataSource
  split
  · exact say a _
  · exact ⟨List.subset_append_left _ _, List.Subset.refl _, List.Subset.refl _⟩

variable (document : Document)

theorem add (a : Analysis) (path : String) (item : PathItem) (found : Finding) :
    Keeps a (a.add document path item found) := by
  refine (say a (notes document path item)).trans ?_
  cases found with
  | resources found =>
    change Keeps _ (found.foldl (Analysis.addResource path) _)
    generalize a.say (notes document path item) = said
    induction found generalizing said with
    | nil => exact refl said
    | cons r rest ih => exact (addResource path said r).trans (ih _)
  | skippedResource e => exact (skip _ path e.message).trans (say _ _)
  | skippedDataSource e => exact (skip _ path e.message).trans (say _ _)
  | dataSource d =>
    cases d with
    | none => exact refl _
    | some d => exact addDataSource path _ d

theorem addAll (a : Analysis) (found : List (String × PathItem × Finding)) :
    Keeps a (addAll document a found) := by
  induction found generalizing a with
  | nil => exact refl a
  | cons f rest ih => exact (add document a f.1 f.2.1 f.2.2).trans (ih _)

end Keeps

section Names

variable (document : Document) (a : Analysis) (name : String)

theorem mem_names_add (path : String) (item : PathItem) (found : Finding) :
    name ∈ (a.add document path item found).dataSources.map DataSource.name ↔
      name ∈ a.dataSources.map DataSource.name ∨ name ∈ found.collected.map DataSource.name := by
  cases found with
  | resources found =>
    have hsame := dataSources_addResources path (a.say (notes document path item)) found
    change name ∈ (found.foldl (addResource path) _).dataSources.map DataSource.name ↔ _
    rw [hsame]
    exact (or_iff_left List.not_mem_nil).symm
  | skippedResource e => exact (or_iff_left List.not_mem_nil).symm
  | skippedDataSource e => exact (or_iff_left List.not_mem_nil).symm
  | dataSource d =>
    cases d with
    | none => exact (or_iff_left List.not_mem_nil).symm
    | some d =>
      change name ∈ (addDataSource path (a.say (notes document path item)) d).dataSources.map
        DataSource.name ↔ _ ∨ name ∈ [d.name]
      unfold addDataSource
      split
      · next htaken =>
        obtain ⟨other, hother, hname⟩ := List.any_eq_true.1 htaken
        refine (or_iff_left_of_imp fun h => ?_).symm
        rw [List.mem_singleton.1 h, ← beq_iff_eq.1 hname]
        exact List.mem_map_of_mem hother
      · exact (iff_of_eq (congrArg (name ∈ ·) List.map_append)).trans List.mem_append

theorem mem_names_addAll (found : List (String × PathItem × Finding)) :
    name ∈ (addAll document a found).dataSources.map DataSource.name ↔
      name ∈ a.dataSources.map DataSource.name ∨
        ∃ f ∈ found, name ∈ f.2.2.collected.map DataSource.name := by
  induction found generalizing a with
  | nil => simp [addAll]
  | cons f rest ih =>
    change name ∈ (addAll document (a.add document f.1 f.2.1 f.2.2) rest).dataSources.map
      DataSource.name ↔ _
    rw [ih, mem_names_add, List.exists_mem_cons_iff, or_assoc]

theorem add_dataSource_cases (path : String) (item : PathItem) (d : DataSource) :
    (d.name ∉ a.dataSources.map DataSource.name ∧
      d ∈ (a.add document path item (.dataSource (some d))).dataSources) ∨
    (d.name ∈ a.dataSources.map DataSource.name ∧
      (a.add document path item (.dataSource (some d))).Mentions path d) := by
  have hadd : a.add document path item (.dataSource (some d)) =
      addDataSource path (a.say (notes document path item)) d := rfl
  rw [hadd]
  unfold addDataSource
  split
  · next htaken =>
    obtain ⟨other, hother, hname⟩ := List.any_eq_true.1 htaken
    refine .inr ⟨List.mem_map.2 ⟨other, hother, beq_iff_eq.1 hname⟩, ?_⟩
    exact List.mem_append_right _ List.mem_cons_self
  · next hfree =>
    refine .inl ⟨fun hmem => hfree ?_, List.mem_append_right _ List.mem_cons_self⟩
    obtain ⟨other, hother, hname⟩ := List.mem_map.1 hmem
    exact List.any_eq_true.2 ⟨other, hother, beq_iff_eq.2 hname⟩

end Names

section Run

variable {document : Document} {schemes : Security.Schemes} {path : String} {item : PathItem}

theorem finding_of_dataSourceAt (hp : Path.isInstance path = false) {found : Option DataSource}
    (h : dataSourceAt document schemes path item = .ok found) :
    finding document schemes path item = .ok (.dataSource found) := by
  unfold finding
  rw [if_neg (by rw [hp]; decide), h]

theorem finding_of_dataSourceAt_error (hp : Path.isInstance path = false) {e : Error}
    (h : dataSourceAt document schemes path item = .error e) :
    finding document schemes path item = .ok (.skippedDataSource e) := by
  unfold finding
  rw [if_neg (by rw [hp]; decide), h]
  exact if_pos (dataSourceAt_skippable document schemes path item e h)

/-- The run of an analysis up to a path, at the path and behind it. -/
structure Passes (document : Document) (analysis : Analysis)
    (before : List (String × PathItem)) (path : String) (item : PathItem) (a : Analysis)
    (found : Finding) : Prop where
  here : finding document (Security.Schemes.ofDocument document) path item = .ok found
  kept : Keeps (a.add document path item found) analysis
  earlier : Keeps a analysis
  names : ∀ name, name ∈ a.dataSources.map DataSource.name ↔
    ∃ entry ∈ before, ∃ d ∈ collectedAt document entry.1 entry.2, d.name = name
  sources : ∀ d ∈ a.dataSources, d.path ∈ before.map Prod.fst

theorem exists_passes {url : String} {analysis : Analysis}
    (h : analyse document url = .ok analysis) {before after : List (String × PathItem)}
    (hpaths : document.paths = before ++ (path, item) :: after) :
    ∃ a found, Passes document analysis before path item a found := by
  obtain ⟨backend, all, -, hall, rfl⟩ := analyse_eq_ok.1 h
  obtain ⟨hentries, hfindings⟩ := findings_eq_ok hall
  rw [hpaths] at hentries
  obtain ⟨found, tail, rfl, rfl, htail⟩ := List.map_eq_append_iff.1 hentries
  obtain ⟨f, more, rfl, hf, -⟩ := List.map_eq_cons_iff.1 htail
  cases hf
  have hbefore : ∀ g ∈ found, g.2.2.collected = collectedAt document g.1 g.2.1 := fun g hg =>
    (finding_eq_ok (hfindings g (List.mem_append_left _ hg))).2
  let start := start document backend (Security.Schemes.ofDocument document)
  have hrun : addAll document start (found ++ f :: more) =
      addAll document ((addAll document start found).add document f.1 f.2.1 f.2.2) more := by
    rw [addAll, List.foldl_append, List.foldl_cons]
    rfl
  refine ⟨addAll document start found, f.2.2, ?_, ?_, ?_, fun name => ?_, fun d hd => ?_⟩
  · exact hfindings f (List.mem_append_right _ List.mem_cons_self)
  · rw [hrun]
    exact .addAll document _ more
  · rw [hrun]
    exact (Keeps.add document _ _ _ _).trans (.addAll document _ more)
  · rw [mem_names_addAll]
    constructor
    · rintro (hnone | ⟨g, hg, hname⟩)
      · cases hnone
      · obtain ⟨d, hd, hname⟩ := List.mem_map.1 hname
        rw [hbefore g hg] at hd
        exact ⟨_, List.mem_map_of_mem hg, d, hd, hname⟩
    · rintro ⟨entry, hentry, d, hd, hname⟩
      obtain ⟨g, hg, rfl⟩ := List.mem_map.1 hentry
      refine .inr ⟨g, hg, List.mem_map.2 ⟨d, ?_, hname⟩⟩
      rwa [hbefore g hg]
  · rcases mem_addAll_dataSources hd with hnone | ⟨g, hg, hgd⟩
    · cases hnone
    · have hfinding := hfindings g (List.mem_append_left _ hg)
      rw [hgd] at hfinding
      obtain ⟨hcollected, -⟩ := dataSourceAt_eq_ok (finding_dataSource hfinding)
      rw [hcollected.path]
      exact List.mem_map_of_mem (List.mem_map_of_mem hg)

theorem not_skipped_of_dataSourceAt {url : String} {analysis : Analysis}
    (h : analyse document url = .ok analysis) (hn : document.paths.keys.Nodup)
    (hmem : (path, item) ∈ document.paths) (hp : Path.isInstance path = false) {d : DataSource}
    (hd : dataSourceAt document (Security.Schemes.ofDocument document) path item = .ok (some d)) :
    ∀ s ∈ analysis.skipped, s.path ≠ path := by
  obtain ⟨backend, found, -, hfound, rfl⟩ := analyse_eq_ok.1 h
  obtain ⟨hpaths, hfindings⟩ := findings_eq_ok hfound
  have hlies : ∀ f ∈ found, f.2.2.LiesAt f.1 := by
    intro f hf
    rcases finding_spec document (Security.Schemes.ofDocument document) f.1 f.2.1 with
      ⟨-, fault, herror⟩ | ⟨-, first, hok, hlies, -⟩
    · rw [hfindings f hf] at herror
      cases herror
    · rw [hfindings f hf] at hok
      cases hok
      exact hlies
  have hkeys : (found.map Prod.fst).Nodup := by
    rw [← hpaths, Table.keys, List.map_map] at hn
    exact hn
  rw [← hpaths] at hmem
  obtain ⟨f, hf, hentry⟩ := List.mem_map.1 hmem
  cases hentry
  have hfinding := hfindings f hf
  rw [finding_of_dataSourceAt hp hd] at hfinding
  have hnone := @accounted_addAll_of_mem document
    (start document backend (Security.Schemes.ofDocument document)) found hlies hkeys f hf
  rw [← Except.ok.inj hfinding] at hnone
  have hcount := Nat.eq_zero_of_add_eq_zero_left hnone
  simpa using hcount

/-- Where the name is taken by a data source of an earlier path, the path does not show. -/
theorem not_shows_of_taken {url : String} {analysis : Analysis}
    (h : analyse document url = .ok analysis) (hn : document.paths.keys.Nodup)
    {before after : List (String × PathItem)}
    (hpaths : document.paths = before ++ (path, item) :: after)
    (hp : Path.isInstance path = false) {d other : DataSource}
    (hd : dataSourceAt document (Security.Schemes.ofDocument document) path item = .ok (some d))
    (hother : other ∈ analysis.dataSources) (hname : other.name = d.name)
    (hpath : other.path ∈ before.map Prod.fst) : ¬ analysis.Shows path := by
  have hmem : (path, item) ∈ document.paths := by simp [hpaths]
  rintro (⟨shown, hshown, hsame⟩ | ⟨s, hs, hsame⟩)
  · obtain ⟨place, entry, hentry, hfound⟩ := exists_dataSourceAt h hshown
    obtain ⟨hcollected, -⟩ := dataSourceAt_eq_ok hfound
    obtain rfl : place = path := hcollected.path.symm.trans hsame
    have hitem := (Table.get?_eq_some_iff hn).2 hentry
    rw [(Table.get?_eq_some_iff hn).2 hmem] at hitem
    cases hitem
    rw [hd] at hfound
    cases hfound
    have hunique := List.inj_on_of_nodup_map (namesDiffer_of_analyse h).dataSources hother hshown
      hname
    rw [hunique, hsame] at hpath
    rw [hpaths, Table.keys, List.map_append, List.nodup_append] at hn
    exact hn.2.2 _ hpath _ (List.mem_map_of_mem List.mem_cons_self) rfl
  · exact not_skipped_of_dataSourceAt h hn hmem hp hd s hs hsame

/-- A collection that does not compile is skipped. Another one shows in the analysis exactly when no
earlier path leads to a data source of its name; where it does not show, its name is that of another
data source, and the log mentions it. -/
theorem collection_shown_iff {url : String} {analysis : Analysis}
    (h : analyse document url = .ok analysis) (hn : document.paths.keys.Nodup)
    {before after : List (String × PathItem)}
    (hpaths : document.paths = before ++ (path, item) :: after)
    (hp : Path.isInstance path = false) :
    (∀ e, dataSourceAt document (Security.Schemes.ofDocument document) path item = .error e →
      ⟨path, e.message⟩ ∈ analysis.skipped) ∧
    ∀ d, dataSourceAt document (Security.Schemes.ofDocument document) path item = .ok (some d) →
      (analysis.Shows path ↔
        ∀ entry ∈ before, ∀ other ∈ collectedAt document entry.1 entry.2, other.name ≠ d.name) ∧
      (∃ other ∈ analysis.dataSources, other.name = d.name) ∧
      (analysis.Shows path ∨ analysis.Mentions path d) := by
  obtain ⟨a, found, hpasses⟩ := exists_passes h hpaths
  have hhere := hpasses.here
  constructor
  · intro e he
    rw [finding_of_dataSourceAt_error hp he] at hhere
    cases hhere
    exact hpasses.kept.skipped (List.mem_append_right _ List.mem_cons_self)
  · intro d hd
    obtain ⟨hcollected, -⟩ := dataSourceAt_eq_ok hd
    rw [finding_of_dataSourceAt hp hd] at hhere
    cases hhere
    rcases add_dataSource_cases document a path item d with ⟨hfree, hadded⟩ | ⟨htaken, hmention⟩
    · have hshown := hpasses.kept.dataSources hadded
      have hshows : analysis.Shows path := .inl ⟨d, hshown, hcollected.path⟩
      refine ⟨iff_of_true hshows fun entry hentry other hother hname => ?_, ⟨d, hshown, rfl⟩,
        .inl hshows⟩
      exact hfree ((hpasses.names _).2 ⟨entry, hentry, other, hother, hname⟩)
    · obtain ⟨other, hother, hname⟩ := List.mem_map.1 htaken
      obtain ⟨entry, hentry, earlier, hearlier, hsame⟩ := (hpasses.names _).1 htaken
      have hkept := hpasses.earlier.dataSources hother
      refine ⟨iff_of_false ?_ fun hall => hall entry hentry earlier hearlier hsame,
        ⟨other, hkept, hname⟩, .inr (hpasses.kept.events hmention)⟩
      exact not_shows_of_taken h hn hpaths hp hd hkept hname (hpasses.sources other hother)

end Run

def listItem (items : Swagger.Schema) : PathItem :=
  wallItem none (some { Swagger.Operation.empty with
    responses := [("200", ⟨"", some { Swagger.Schema.empty with
      type := some "array"
      items := some items }, []⟩)] })

def fileSchema : Swagger.Schema := { Swagger.Schema.empty with
  properties := [("body", { Swagger.Schema.empty with type := some "file" })] }

def listDocument : Document := { Document.empty with
  host := some "api.example.com"
  schemes := ["http"]
  paths := [("/cdns", listItem cdnReturned), ("/cdns/", listItem cdnReturned),
    ("/files", listItem fileSchema)] }

def shownPaths (analysis : Analysis) : List String × List String :=
  (analysis.dataSources.map DataSource.path, analysis.skipped.map Skipped.path)

theorem listDocument_analysed : ∃ analysis, analyse listDocument "" = .ok analysis ∧
    shownPaths analysis = (["/cdns"], ["/files"]) :=
  Except.toOption_map_eq_some.1 (by decide +kernel)

theorem listDocument_dataSource (path : String) (h :
    (dataSourceAt listDocument (Security.Schemes.ofDocument listDocument) path
      (listItem cdnReturned)).toOption.map (fun found => found.map DataSource.name) =
        some (some "cdns")) :
    ∃ d, dataSourceAt listDocument (Security.Schemes.ofDocument listDocument) path
      (listItem cdnReturned) = .ok (some d) ∧ d.name = "cdns" := by
  obtain ⟨found, hfound, hname⟩ := Except.toOption_map_eq_some.1 h
  obtain ⟨d, hd, hname⟩ := Option.map_eq_some_iff.1 hname
  exact ⟨d, hd ▸ hfound, hname⟩

theorem listDocument_files : ∃ e, dataSourceAt listDocument
    (Security.Schemes.ofDocument listDocument) "/files" (listItem fileSchema) = .error e := by
  have hnone : (dataSourceAt listDocument (Security.Schemes.ofDocument listDocument) "/files"
      (listItem fileSchema)).toOption.isNone = true := by decide +kernel
  cases h : dataSourceAt listDocument (Security.Schemes.ofDocument listDocument) "/files"
      (listItem fileSchema) with
  | error e => exact ⟨e, rfl⟩
  | ok found =>
    rw [h] at hnone
    cases hnone

/-- The first list of the CDNs shows, the second one is mentioned, and the files are skipped. -/
theorem collection_shown_iff_list :
    ∃ analysis d e, analyse listDocument "" = .ok analysis ∧ analysis.Shows "/cdns" ∧
      ((∃ other ∈ analysis.dataSources, other.name = d.name) ∧
        (analysis.Shows "/cdns/" ∨ analysis.Mentions "/cdns/" d)) ∧
      ⟨"/files", Error.message e⟩ ∈ analysis.skipped := by
  obtain ⟨analysis, hanalysis, -⟩ := listDocument_analysed
  have hkeys : listDocument.paths.keys.Nodup := by decide
  obtain ⟨first, hfirst, -⟩ := listDocument_dataSource "/cdns" (by decide +kernel)
  obtain ⟨second, hsecond, -⟩ := listDocument_dataSource "/cdns/" (by decide +kernel)
  obtain ⟨e, hfiles⟩ := listDocument_files
  have hfirstPaths : listDocument.paths = [] ++ ("/cdns", listItem cdnReturned) :: _ := rfl
  have hsecondPaths : listDocument.paths =
      [("/cdns", listItem cdnReturned)] ++ ("/cdns/", listItem cdnReturned) :: _ := rfl
  have hfilesPaths : listDocument.paths =
      [("/cdns", listItem cdnReturned), ("/cdns/", listItem cdnReturned)] ++
        ("/files", listItem fileSchema) :: [] := rfl
  obtain ⟨-, hshown⟩ := collection_shown_iff hanalysis hkeys hfirstPaths (by decide)
  obtain ⟨-, hmentioned⟩ := collection_shown_iff hanalysis hkeys hsecondPaths (by decide)
  obtain ⟨hskipped, -⟩ := collection_shown_iff hanalysis hkeys hfilesPaths (by decide)
  exact ⟨analysis, second, e, hanalysis, (hshown first hfirst).1.2 (by simp),
    (hmentioned second hsecond).2, hskipped e hfiles⟩

/-- The second list of the CDNs does not show. -/
theorem collection_shown_iff_slash :
    ∃ analysis d, analyse listDocument "" = .ok analysis ∧
      Path.isInstance "/cdns/" = false ∧
      dataSourceAt listDocument (Security.Schemes.ofDocument listDocument) "/cdns/"
        (listItem cdnReturned) = .ok (some d) ∧
      ¬ analysis.Shows "/cdns/" := by
  obtain ⟨analysis, hanalysis, hshown⟩ := listDocument_analysed
  obtain ⟨d, hd, -⟩ := listDocument_dataSource "/cdns/" (by decide +kernel)
  obtain ⟨hsources, hskipped⟩ := Prod.mk.inj hshown
  refine ⟨analysis, d, hanalysis, by decide, hd, ?_⟩
  rintro (⟨other, hother, hpath⟩ | ⟨s, hs, hpath⟩)
  · have hmem := List.mem_map_of_mem (f := DataSource.path) hother
    rw [hsources, hpath] at hmem
    exact absurd hmem (by decide)
  · have hmem := List.mem_map_of_mem (f := Skipped.path) hs
    rw [hskipped, hpath] at hmem
    exact absurd hmem (by decide)

end Analysis

end SwaggerProvider
