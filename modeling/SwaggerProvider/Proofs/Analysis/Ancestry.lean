import SwaggerProvider.Proofs.Analysis.Grounding
import SwaggerProvider.Proofs.Path.Prefix

/-!
The name of a parent is found on the way to the resources inside it, and the name of the parent
itself at its own path. Both ways lead over the same path items, and so to the same name.
-/

set_option autoImplicit false

namespace SwaggerProvider

open Swagger (Document PathItem)

namespace Analysis

theorem joinNames_eq (parents : List String) (own : String) :
    joinNames parents own = "_".intercalate (parents ++ [own]) := by
  cases parents with
  | nil => exact (String.intercalate_singleton).symm
  | cons first rest =>
    rw [String.intercalate_append_of_ne_nil (by simp) (by simp), String.intercalate_singleton]
    rfl

section Parents

variable {document : Document} {path : String} {names : List String} {parents : List Parent}

theorem parentsFrom_append {xs ys : List Path.Parent} {s : List String × List Parent} :
    parentsFrom document path names parents (xs ++ ys) = .ok s ↔
      ∃ given, parentsFrom document path names parents xs = .ok given ∧
        parentsFrom document path given.1 given.2 ys = .ok s := by
  induction xs generalizing names parents with
  | nil => simp [parentsFrom]
  | cons p rest ih =>
    rw [List.cons_append, parentsFrom_cons]
    simp only [ih, parentsFrom_cons]
    constructor
    · rintro ⟨own, hnamed, given, hgiven, h⟩
      exact ⟨given, ⟨own, hnamed, hgiven⟩, h⟩
    · rintro ⟨given, ⟨own, hnamed, hgiven⟩, h⟩
      exact ⟨own, hnamed, given, hgiven, h⟩

theorem parentsFrom_path (other : String) {chain : List Path.Parent}
    {s : List String × List Parent} (h : parentsFrom document path names parents chain = .ok s) :
    parentsFrom document other names parents chain = .ok s := by
  induction chain generalizing names parents with
  | nil => exact h
  | cons p rest ih =>
    obtain ⟨own, hnamed, h⟩ := parentsFrom_cons.1 h
    exact parentsFrom_cons.2 ⟨own, hnamed, ih h⟩

theorem parentsFrom_extends {chain : List Path.Parent} {s : List String × List Parent}
    (h : parentsFrom document path names parents chain = .ok s) :
    ∃ more, s.2 = parents ++ more ∧ more.length = chain.length := by
  induction chain generalizing names parents with
  | nil =>
    cases h
    exact ⟨[], by simp, rfl⟩
  | cons p rest ih =>
    obtain ⟨own, -, h⟩ := parentsFrom_cons.1 h
    obtain ⟨more, hmore, hlength⟩ := ih h
    exact ⟨_ :: more, by rw [hmore, List.append_assoc]; rfl, by simp [hlength]⟩

theorem length_intercalate_lt {names : List String} (own : String) (h : names ≠ []) :
    ("_".intercalate names).length < ("_".intercalate (names ++ [own])).length := by
  rw [String.intercalate_append_of_ne_nil h (by simp), String.length_append, String.length_append]
  have hline : "_".length = 1 := rfl
  omega

theorem parentsFrom_names {chain : List Path.Parent} {s : List String × List Parent}
    (h : parentsFrom document path names parents chain = .ok s) :
    ∃ more, s.2 = parents ++ more ∧
      (more.map Parent.name).Pairwise (fun p q => p.length < q.length) ∧
      (names ≠ [] → ∀ p ∈ more, ("_".intercalate names).length < p.name.length) := by
  induction chain generalizing names parents with
  | nil =>
    cases h
    exact ⟨[], (List.append_nil _).symm, .nil, fun _ p hp => absurd hp List.not_mem_nil⟩
  | cons p rest ih =>
    obtain ⟨own, -, h⟩ := parentsFrom_cons.1 h
    obtain ⟨more, hmore, hpairs, hlonger⟩ := ih h
    have hlonger := hlonger (by simp)
    refine ⟨_ :: more, hmore.trans (List.append_assoc _ _ _), ?_, fun hne q hq => ?_⟩
    · refine List.pairwise_cons.2 ⟨fun name hname => ?_, hpairs⟩
      obtain ⟨q, hq, rfl⟩ := List.mem_map.1 hname
      exact hlonger q hq
    · have hown := length_intercalate_lt own hne
      rcases List.mem_cons.1 hq with rfl | hq
      · exact hown
      · exact Nat.lt_trans hown (hlonger q hq)

theorem parentsOf_attributes_nodup (h : parentsOf document path = .ok (names, parents)) :
    (parents.map Parent.attribute).Nodup := by
  obtain ⟨chain, -, h⟩ := Except.bind_eq_ok.1 h
  obtain ⟨more, hmore, hpairs, -⟩ := parentsFrom_names h
  obtain rfl : parents = more := hmore
  refine List.pairwise_map.2 ((List.pairwise_map.1 hpairs).imp fun {p q} hlt heq => ?_)
  rw [(String.append_left_inj _).1 heq] at hlt
  exact Nat.lt_irrefl _ hlt

/-- What is known of a parent on the way to a path: the parents of its own path stand before it, and
its name is joined of theirs and its own. -/
theorem parentsOf_parent {before after : List Parent} {p : Parent}
    (h : parentsOf document path = .ok (names, before ++ p :: after)) :
    ∃ given own c, parentsOf document p.instancePath = .ok (given, before) ∧
      p.name = joinNames given own ∧ Named document c own ∧ c.Formed ∧ c.root = p.root ∧
      c.instancePath = p.instancePath := by
  obtain ⟨chain, hchain, h⟩ := Except.bind_eq_ok.1 h
  obtain ⟨all, hall, hlength⟩ := parentsFrom_extends h
  rw [List.nil_append] at hall
  have hlt : before.length < chain.parents.length := by
    rw [← hlength, ← hall]
    simp
  obtain ⟨front, c, back, hsplit, hfront⟩ : ∃ front c back,
      chain.parents = front ++ c :: back ∧ front.length = before.length := by
    have hback := List.drop_eq_getElem_cons hlt
    have hwhole := List.take_append_drop before.length chain.parents
    rw [hback] at hwhole
    exact ⟨_, _, _, hwhole.symm, List.length_take_of_le (Nat.le_of_lt hlt)⟩
  rw [hsplit] at h
  obtain ⟨⟨given, passed⟩, hgiven, h⟩ := parentsFrom_append.1 h
  obtain ⟨own, hnamed, h⟩ := parentsFrom_cons.1 h
  obtain ⟨more, hmore, hpassed⟩ := parentsFrom_extends hgiven
  obtain ⟨rest, hrest, -⟩ := parentsFrom_extends h
  dsimp only at hmore hrest
  rw [List.nil_append] at hmore
  rw [List.append_assoc] at hrest
  obtain ⟨rfl, hp⟩ := List.append_inj hrest (by rw [hmore, hpassed, hfront])
  obtain ⟨rfl, -⟩ := List.cons.inj hp
  obtain ⟨d, hd, hparents⟩ := Path.chain_parent hchain hsplit
  have hown : parentsOf document c.instancePath = .ok (given, before) := by
    refine Except.bind_eq_ok.2 ⟨d, hd, ?_⟩
    rw [hparents]
    exact parentsFrom_path _ hgiven
  have hmem : c ∈ chain.parents := by
    rw [hsplit]
    simp
  exact ⟨given, own, c, hown, (joinNames_eq given own).symm, hnamed,
    Path.chain_formed hchain c hmem, rfl, rfl⟩

end Parents

section Items

variable {document : Document} {path root front : String}

theorem declared?_of_findRoot (hfront : Path.root? path = some front)
    (h : Path.findRoot path document.paths.keys = .ok root) :
    declared? document front = document.paths.get? root := by
  unfold Path.findRoot at h
  rw [hfront] at h
  dsimp only at h
  unfold declared?
  split at h
  · next hknown =>
    cases h
    have hmem := Table.mem_keys_iff.1 (List.contains_iff_mem.1 hknown)
    obtain ⟨item, hitem⟩ := Option.isSome_iff_exists.1 hmem
    rw [hitem]
    rfl
  · next hunknown =>
    have hnone : document.paths.get? front = none :=
      Table.get?_eq_none_iff.2 fun hmem => hunknown (List.contains_iff_mem.2 hmem)
    split at h
    · cases h
      rw [hnone]
      rfl
    · cases h

end Items

section Resources

variable {document : Document} {schemes : Security.Schemes} {path : String} {item : PathItem}

theorem hosts_name {name : String} {post : Swagger.Operation} {hosted : List (String × Host)}
    {e : String × Host} (h : hosts document name post = .ok hosted) (he : e ∈ hosted)
    (hregion : ∀ region address, e.2 ≠ .regional region address) : e.1 = name := by
  unfold hosts at h
  split at h
  · cases h
    rw [List.mem_singleton.1 he]
  · split at h
    · cases h
      rw [List.mem_singleton.1 he]
    · dsimp only at h
      split at h
      · cases h
      · cases h
      · cases h
        obtain ⟨region, -, rfl⟩ := List.mem_map.1 he
        exact absurd rfl (hregion _ _)

theorem titled_of_mem {found : List Resource} {r : Resource}
    (h : resourcesAt document schemes path item = .ok found) (hr : r ∈ found)
    (hregion : r.region = none) :
    ∃ c, Drafted document path item r c ∧ Titled document path r c := by
  obtain ⟨base, post, hosted, hdraft, hhosted, rfl⟩ := resourcesAt_eq_ok h
  obtain ⟨c, hc, -, names, own, hparents, hown, hname⟩ := draft_eq_ok hdraft
  obtain ⟨e, he, rfl⟩ := List.mem_map.1 hr
  have hplain : e.1 = base.name := by
    refine hosts_name hhosted he fun region address hhost => ?_
    rw [Resource.region, hhost] at hregion
    cases hregion
  exact ⟨c, ⟨hc.candidate, hc.record, hc.identifier, hc.parents, hc.root, hc.instancePath⟩, names,
    own, hparents, hown, hplain.trans hname⟩

/-- At the path of a parent stands the resource that the parent is named after. -/
theorem Titled.parent {before after : List Parent} {p : Parent} {names : List String}
    {r : Resource} {c : Candidate}
    (hparents : parentsOf document path = .ok (names, before ++ p :: after))
    (hdrafted : Drafted document p.instancePath item r c)
    (htitled : Titled document p.instancePath r c) : r.name = p.name ∧ r.parents = before := by
  obtain ⟨given, own, q, hown, hname, hnamed, hformed, hroot, hinstance⟩ :=
    parentsOf_parent hparents
  obtain ⟨_, title, hgiven, htitle, hr⟩ := htitled
  cases hgiven.symm.trans hown
  obtain ⟨rootItem, title', hitem, -, htitle', rfl⟩ := hnamed.item
  obtain ⟨-, hfind, hrootItem, hpost, -⟩ := candidate_eq_ok hdrafted.candidate
  obtain ⟨parameter, hparameter, hq⟩ := hformed.instancePath
  obtain ⟨-, front, hfront, hends⟩ := Path.findRoot_eq_ok hfind
  obtain rfl : front = q.root := by
    rw [← hinstance, hq, Path.root?_append hparameter.1 hparameter.2] at hfront
    split at hfront
    · cases hfront
    · exact (Option.some.inj hfront).symm
  have hsame := declared?_of_findRoot hfront hfind
  rw [← item?_eq_declared? document hformed.plain.1, hitem, hrootItem] at hsame
  cases hsame
  have hnames : title = title' := by
    rcases hends with hc | hc
    · rw [hc, htitle'] at htitle
      cases htitle
      rfl
    · rw [hc, Path.name_slash, htitle'] at htitle
      cases htitle
      rfl
  rw [hr, hname, hnames, hpost]
  exact ⟨rfl, rfl⟩

end Resources

end Analysis

/-- A parent is named after the resource at its path: where a resource stands inside others, each of
its parents has the name of the resource at that parent's path, and the parents of that resource are
those before it. So the identifier of a parent is asked for under the name of its resource. -/
theorem parent_named_after_resource {document : Document} {url : String} {analysis : Analysis}
    (h : analyse document url = .ok analysis) :
    ∀ s ∈ analysis.resources, ∀ before p after, s.parents = before ++ p :: after →
      ∀ r ∈ analysis.resources, r.region = none → r.instancePath = p.instancePath →
        r.name = p.name ∧ r.parents = before ∧ p.attribute = r.name ++ "_id" := by
  intro s hs before p after hparents r hr hregion hpath
  obtain ⟨_, _, _, hdrafted⟩ := exists_drafted h hs
  obtain ⟨names, hnames⟩ := hdrafted.parents
  rw [hparents] at hnames
  obtain ⟨path, item, found, -, hfound, hmem⟩ := exists_resourcesAt h hr
  obtain ⟨c, hc, htitled⟩ := Analysis.titled_of_mem hfound hmem hregion
  obtain rfl : path = p.instancePath := hc.instancePath.symm.trans hpath
  obtain ⟨hname, hbefore⟩ := Analysis.Titled.parent hnames hc htitled
  exact ⟨hname, hbefore, by rw [Parent.attribute, hname]⟩

namespace Analysis

def fencePost : Swagger.Operation := { wallPost with
  extensions := [(nameKey, .string "fence")] }

def doorDocument : Document := { Document.empty with
  host := some "api.example.com"
  schemes := ["https"]
  paths := [
    ("/v1/cdns/", wallItem (some wallPost) none),
    ("/v1/cdns/{id}", wallItem none (some wallGet)),
    ("/v1/cdns/{id}/v2/walls/", wallItem (some fencePost) none),
    ("/v1/cdns/{id}/v2/walls/{wall}", wallItem none (some wallGet)),
    ("/v1/cdns/{id}/v2/walls/{wall}/doors", wallItem (some wallPost) none),
    ("/v1/cdns/{id}/v2/walls/{wall}/doors/{door}", wallItem none (some wallGet))] }

theorem parent_named_after_resource_doors :
    ∃ analysis s r before p, analyse doorDocument "" = .ok analysis ∧ s ∈ analysis.resources ∧
      r ∈ analysis.resources ∧ s.parents = before ++ p :: [] ∧ before.length = 1 ∧
      r.region = none ∧ r.instancePath = p.instancePath ∧ r.name = "cdns_v1_fence_v2" ∧
      r.name = p.name ∧ r.parents = before ∧ p.attribute = "cdns_v1_fence_v2_id" := by
  have hseen : (analyse doorDocument "").toOption.map (fun a =>
      a.resources.map fun r => (r.name, r.region, r.instancePath, r.parents)) =
      some [("cdns_v1", none, "/v1/cdns/{id}", []),
        ("cdns_v1_fence_v2", none, "/v1/cdns/{id}/v2/walls/{wall}",
          [⟨"cdns_v1", "/v1/cdns", "/v1/cdns/{id}"⟩]),
        ("cdns_v1_fence_v2_doors", none, "/v1/cdns/{id}/v2/walls/{wall}/doors/{door}",
          [⟨"cdns_v1", "/v1/cdns", "/v1/cdns/{id}"⟩,
            ⟨"cdns_v1_fence_v2", "/v1/cdns/{id}/v2/walls",
              "/v1/cdns/{id}/v2/walls/{wall}"⟩])] := by
    decide +kernel
  obtain ⟨analysis, s, hs, h, hdoors⟩ :=
    exists_resource hseen (List.mem_cons_of_mem _ (List.mem_cons_of_mem _ List.mem_cons_self))
  obtain ⟨_, r, hr, h', hwalls⟩ :=
    exists_resource hseen (List.mem_cons_of_mem _ List.mem_cons_self)
  cases h.symm.trans h'
  simp only [Prod.mk.injEq] at hdoors hwalls
  obtain ⟨-, -, -, hparents⟩ := hdoors
  obtain ⟨hname, hregion, hpath, -⟩ := hwalls
  obtain ⟨hsame, hbefore, hattribute⟩ := parent_named_after_resource h s hs
    [⟨"cdns_v1", "/v1/cdns", "/v1/cdns/{id}"⟩] _ [] hparents r hr hregion hpath
  refine ⟨analysis, s, r, _, _, h, hs, hr, hparents, rfl, hregion, hpath, hname, hsame, hbefore, ?_⟩
  rw [hattribute, hname]
  rfl

end Analysis

end SwaggerProvider
