import SwaggerProvider.Proofs.Swagger.Calls

/-!
What a value with references stands for, said without an account of the references that are being
followed. Where no reference leads back to itself the expansion finds that value, nothing in it
refers any more, and so there is nothing left to expand.
-/

set_option autoImplicit false

namespace SwaggerProvider.Swagger.Reference

inductive StandsFor (root : Json) : Json → Json → Prop where
  | null : StandsFor root .null .null
  | bool (b : Bool) : StandsFor root (.bool b) (.bool b)
  | number (n : Number) : StandsFor root (.number n) (.number n)
  | string (s : String) : StandsFor root (.string s) (.string s)
  | array {items out : List Json} (each : List.Forall₂ (StandsFor root) items out) :
    StandsFor root (.array items) (.array out)
  | object {members out : Members} (plain : reference? members = none)
    (names : out.keys = members.keys)
    (each : List.Forall₂ (StandsFor root) members.values out.values) :
    StandsFor root (.object members) (.object out)
  | overlaid {members expanded beside : Members} {reference : String} {target : Json}
    (refers : reference? members = some reference) (leads : resolve root reference = .ok target)
    (stands : StandsFor root target (.object expanded))
    (names : beside.keys = (siblings members).keys)
    (each : List.Forall₂ (StandsFor root) (siblings members).values beside.values) :
    StandsFor root (.object members) (.object (Extensions.union expanded beside))
  | replaced {members : Members} {reference : String} {target expanded : Json}
    (refers : reference? members = some reference) (leads : resolve root reference = .ok target)
    (stands : StandsFor root target expanded) (closed : ∀ m, expanded ≠ .object m) :
    StandsFor root (.object members) expanded

/-- One reference mentions another that stands inside its target. -/
def Mentions (root : Json) (r s : String) : Prop :=
  ∃ target, resolve root r = .ok target ∧ (refKey, .string s) ∈ membersWithin target

def Acyclic (root : Json) : Prop := ∀ r, ¬ Relation.TransGen (Mentions root) r r

def ReferenceFree (value : Json) : Prop := ∀ r, (refKey, .string r) ∉ membersWithin value

section Members

variable {α β : Type} {R S : α → β → Prop}

theorem forall₂_congr_left {l : List α} {l' : List β} (h : ∀ a ∈ l, ∀ b, R a b ↔ S a b) :
    List.Forall₂ R l l' ↔ List.Forall₂ S l l' := by
  induction l generalizing l' with
  | nil => rw [List.forall₂_nil_left_iff, List.forall₂_nil_left_iff]
  | cons a rest ih =>
    have hrest (tail : List β) : List.Forall₂ R rest tail ↔ List.Forall₂ S rest tail :=
      ih fun b hb => h b (List.mem_cons_of_mem _ hb)
    simp only [List.forall₂_cons_left_iff, h a List.mem_cons_self, hrest]

theorem mapM_named_eq_ok {f : Json → Except LoadFault Json} {members out : Members} :
    members.mapM (named f) = .ok out ↔ out.keys = members.keys ∧
      List.Forall₂ (fun value b => f value = .ok b) members.values out.values := by
  rw [Except.mapM_eq_ok]
  induction members generalizing out with
  | nil => cases out <;> simp [Table.keys, Table.values]
  | cons e rest ih =>
    rw [List.forall₂_cons_left_iff]
    cases out with
    | nil => simp [Table.keys]
    | cons b more =>
      have hnamed : named f e = .ok b ↔ b.1 = e.1 ∧ f e.2 = .ok b.2 := by
        rw [named, Except.map_eq_ok]
        constructor
        · rintro ⟨value, hvalue, rfl⟩
          exact ⟨rfl, hvalue⟩
        · rintro ⟨hname, hvalue⟩
          exact ⟨b.2, hvalue, by rw [← hname]⟩
      have hmore := @ih more
      simp only [Table.keys, Table.values] at hmore
      simp only [Table.keys, Table.values, List.map_cons, List.cons.injEq, List.forall₂_cons,
        exists_and_left]
      constructor
      · rintro ⟨b', h, more', hrest, rfl, rfl⟩
        exact ⟨⟨(hnamed.1 h).1, (hmore.1 hrest).1⟩, (hnamed.1 h).2, (hmore.1 hrest).2⟩
      · rintro ⟨⟨hname, hkeys⟩, hvalue, hrest⟩
        exact ⟨b, hnamed.2 ⟨hname, hvalue⟩, more, hmore.2 ⟨hkeys, hrest⟩, rfl, rfl⟩

theorem mem_membersOfItems_iff {items : List Json} {e : String × Json} :
    e ∈ membersOfItems items ↔ ∃ item ∈ items, e ∈ membersWithin item := by
  induction items with
  | nil => simp [membersOfItems]
  | cons item rest ih => simp [membersOfItems, ih]

theorem mem_membersBelow_iff {members : List (String × Json)} {e : String × Json} :
    e ∈ membersBelow members ↔ ∃ value ∈ Table.values members, e ∈ membersWithin value := by
  induction members with
  | nil => simp [membersBelow, Table.values]
  | cons first rest ih =>
    rw [Table.values] at ih ⊢
    simp [membersBelow, ih]

theorem mem_insert {t : Members} {name : String} {value : Json} {e : String × Json}
    (h : e ∈ t.insert name value) : e ∈ t ∨ e = (name, value) := by
  induction t with
  | nil => exact .inr (List.mem_singleton.1 h)
  | cons first rest ih =>
    obtain ⟨key, held⟩ := first
    rw [Table.insert] at h
    by_cases hkey : key = name
    · rw [if_pos hkey] at h
      rcases List.mem_cons.1 h with rfl | h
      · exact .inr (by rw [hkey])
      · exact .inl (List.mem_cons_of_mem _ h)
    · rw [if_neg hkey] at h
      rcases List.mem_cons.1 h with rfl | h
      · exact .inl List.mem_cons_self
      · exact (ih h).imp_left (List.mem_cons_of_mem _)

theorem mem_union {a b : Members} {e : String × Json} (h : e ∈ Extensions.union a b) :
    e ∈ a ∨ e ∈ b := by
  unfold Extensions.union at h
  induction b generalizing a with
  | nil => exact .inl h
  | cons first rest ih =>
    rw [List.foldl_cons] at h
    rcases ih h with h | h
    · exact (mem_insert h).imp_right fun he => by rw [he]; exact List.mem_cons_self
    · exact .inr (List.mem_cons_of_mem _ h)

theorem mem_keys_of_mem {t : Members} {name : String} {value : Json} (h : (name, value) ∈ t) :
    name ∈ t.keys :=
  List.mem_map_of_mem h

theorem exists_of_mem_values {t : Members} {value : Json} (h : value ∈ t.values) :
    ∃ name, (name, value) ∈ t := by
  obtain ⟨⟨name, _⟩, he, rfl⟩ := List.mem_map.1 h
  exact ⟨name, he⟩

end Members

section Acyclic

variable {root : Json} {v w : Visit}

structure Ahead (root : Json) (v : Visit) : Prop extends Within root v where
  mentioned : ∀ r ∈ v.stack, ∀ s, (refKey, .string s) ∈ membersWithin v.value →
    Relation.TransGen (Mentions root) r s

theorem ahead_start (root : Json) : Ahead root ⟨[], root⟩ :=
  ⟨within_start root, fun r hr => by simp at hr⟩

theorem Ahead.call (hv : Ahead root v) (h : Calls root v w) : Ahead root w := by
  refine ⟨hv.toWithin.call h, ?_⟩
  rcases h.inner_or_target with ⟨hstack, hinner⟩ | ⟨members, r, hvalue, hr, hnew, hstack, hw⟩
  · intro s hs t ht
    exact hv.mentioned s (hstack ▸ hs) t (hinner.members _ ht)
  · intro s hs t ht
    have hmentions : Mentions root r t := ⟨w.value, hw, ht⟩
    rw [hstack] at hs
    rcases List.mem_cons.1 hs with rfl | hs
    · exact .single hmentions
    · have hbefore : (refKey, .string r) ∈ membersWithin v.value := by
        rw [hvalue]
        exact List.mem_append_left _ (reference?_mem hr)
      exact (hv.mentioned s hs r hbefore).tail hmentions

theorem Ahead.fresh (hac : Acyclic root) {stack : List String} {members : Members}
    (hv : Ahead root ⟨stack, .object members⟩) {r : String} (hr : reference? members = some r) :
    r ∉ stack := by
  intro hs
  exact hac r (hv.mentioned r hs r (List.mem_append_left _ (reference?_mem hr)))

section Object

variable {expand : Visit → Except LoadFault Json} {stack : List String} {members : Members}
  {value : Json}

theorem level_plain_eq_ok (hr : reference? members = none)
    (hcalls : ∀ w, Calls root ⟨stack, .object members⟩ w →
      ∀ b, expand w = .ok b ↔ StandsFor root w.value b) :
    level root expand ⟨stack, .object members⟩ = .ok value ↔
      StandsFor root (.object members) value := by
  have hvalues (out : List Json) : List.Forall₂ (fun held b => expand ⟨stack, held⟩ = .ok b)
      members.values out ↔ List.Forall₂ (StandsFor root) members.values out := by
    refine forall₂_congr_left fun held hheld => ?_
    obtain ⟨name, hmem⟩ := exists_of_mem_values hheld
    exact hcalls _ (.member hr hmem)
  dsimp only [level]
  rw [hr]
  dsimp only
  rw [Except.map_eq_ok]
  constructor
  · rintro ⟨out, hout, rfl⟩
    obtain ⟨hkeys, heach⟩ := mapM_named_eq_ok.1 hout
    exact .object hr hkeys ((hvalues _).1 heach)
  · intro h
    cases h with
    | object _ hkeys heach => exact ⟨_, mapM_named_eq_ok.2 ⟨hkeys, (hvalues _).2 heach⟩, rfl⟩
    | overlaid refers => exact absurd (hr.symm.trans refers) (by simp)
    | replaced refers => exact absurd (hr.symm.trans refers) (by simp)

theorem level_fresh_eq_ok {r : String} (hr : reference? members = some r) (hs : r ∉ stack)
    (hcalls : ∀ w, Calls root ⟨stack, .object members⟩ w →
      ∀ b, expand w = .ok b ↔ StandsFor root w.value b) :
    level root expand ⟨stack, .object members⟩ = .ok value ↔
      StandsFor root (.object members) value := by
  have hvalues (out : List Json) : List.Forall₂ (fun held b => expand ⟨stack, held⟩ = .ok b)
      (siblings members).values out ↔
        List.Forall₂ (StandsFor root) (siblings members).values out := by
    refine forall₂_congr_left fun held hheld => ?_
    obtain ⟨name, hmem⟩ := exists_of_mem_values hheld
    exact hcalls _ (.sibling hr hs hmem)
  dsimp only [level]
  rw [hr]
  dsimp only
  rw [if_neg hs, Except.bind_eq_ok]
  constructor
  · rintro ⟨target, ht, h⟩
    obtain ⟨expanded, hexpanded, h⟩ := Except.bind_eq_ok.1 h
    have hstands := (hcalls _ (.target hr hs ht) _).1 hexpanded
    cases expanded with
    | object expanded =>
      obtain ⟨beside, hbeside, rfl⟩ := Except.map_eq_ok.1 h
      obtain ⟨hkeys, heach⟩ := mapM_named_eq_ok.1 hbeside
      exact .overlaid hr ht hstands hkeys ((hvalues _).1 heach)
    | null | bool | number | string | array =>
      cases h
      exact .replaced hr ht hstands (by simp)
  · intro h
    cases h with
    | object plain => exact absurd (plain.symm.trans hr) (by simp)
    | overlaid refers leads stands hkeys heach =>
      cases hr.symm.trans refers
      have htarget := (hcalls _ (.target hr hs leads) _).2 stands
      have hbeside := mapM_named_eq_ok.2 ⟨hkeys, (hvalues _).2 heach⟩
      refine ⟨_, leads, ?_⟩
      rw [htarget]
      dsimp only [Except.bind]
      rw [hbeside]
      rfl
    | replaced refers leads stands closed =>
      cases hr.symm.trans refers
      have htarget := (hcalls _ (.target hr hs leads) _).2 stands
      refine ⟨_, leads, ?_⟩
      rw [htarget]
      cases value with
      | object members => exact absurd rfl (closed members)
      | null | bool | number | string | array => rfl

end Object

/-- The references that are being followed play no part in the result. -/
theorem Ahead.expand_eq_ok (hac : Acyclic root) (hv : Ahead root v) :
    ∀ b, v.expand root = .ok b ↔ StandsFor root v.value b := by
  induction v using (calls_wellFounded root).induction with
  | _ v ih =>
    have hcalls : ∀ w, Calls root v w →
        ∀ b, w.expand root = .ok b ↔ StandsFor root w.value b :=
      fun w hw => ih w hw (hv.call hw)
    intro b
    rw [expand_eq_level]
    obtain ⟨stack, value⟩ := v
    cases value with
    | object members =>
      cases hr : reference? members with
      | none => exact level_plain_eq_ok hr hcalls
      | some r => exact level_fresh_eq_ok hr (hv.fresh hac hr) hcalls
    | array items =>
      dsimp only [level]
      rw [Except.map_eq_ok]
      have heach (out : List Json) : items.mapM (fun item => Visit.expand root ⟨stack, item⟩) =
          .ok out ↔ List.Forall₂ (StandsFor root) items out := by
        rw [Except.mapM_eq_ok]
        exact forall₂_congr_left fun item hitem => hcalls _ (.item hitem)
      constructor
      · rintro ⟨out, hout, rfl⟩
        exact .array ((heach out).1 hout)
      · intro h
        cases h with
        | array each => exact ⟨_, (heach _).2 each, rfl⟩
    | null | bool | number | string =>
      constructor
      · intro h
        cases h
        constructor
      · intro h
        cases h
        rfl

def Textual (value : Json) : Prop :=
  ∀ held, (refKey, held) ∈ membersWithin value → ∃ r, held = .string r

theorem not_mem_keys_of_plain {members : Members} (ht : Textual (.object members))
    (h : reference? members = none) : refKey ∉ members.keys := by
  intro hkey
  obtain ⟨held, hheld⟩ := Option.isSome_iff_exists.1 (Table.get?_isSome_of_mem_keys hkey)
  obtain ⟨r, rfl⟩ := ht held (List.mem_append_left _ (Table.mem_of_get? hheld))
  have hsome : reference? members = some r := by
    unfold reference?
    rw [hheld]
    rfl
  exact absurd (hsome.symm.trans h) (by simp)

theorem not_mem_keys_siblings (members : Members) : refKey ∉ (siblings members).keys := by
  intro hkey
  obtain ⟨e, he, hname⟩ := List.mem_map.1 hkey
  have hne := (List.mem_filter.1 he).2
  simp [hname] at hne

theorem referenceFree_items {items : List Json} (h : ∀ item ∈ items, ReferenceFree item) :
    ReferenceFree (.array items) := by
  intro r hr
  obtain ⟨item, hitem, hr⟩ := mem_membersOfItems_iff.1 hr
  exact h item hitem r hr

theorem referenceFree_members {members : Members} (hkey : refKey ∉ members.keys)
    (h : ∀ value ∈ members.values, ReferenceFree value) : ReferenceFree (.object members) := by
  intro r hr
  rcases List.mem_append.1 hr with hr | hr
  · exact hkey (mem_keys_of_mem hr)
  · obtain ⟨value, hvalue, hr⟩ := mem_membersBelow_iff.1 hr
    exact h value hvalue r hr

theorem referenceFree_union {a b : Members} (ha : ReferenceFree (.object a))
    (hb : ReferenceFree (.object b)) : ReferenceFree (.object (Extensions.union a b)) := by
  intro r hr
  rcases List.mem_append.1 hr with hr | hr
  · rcases mem_union hr with hr | hr
    · exact ha r (List.mem_append_left _ hr)
    · exact hb r (List.mem_append_left _ hr)
  · obtain ⟨value, hvalue, hr⟩ := mem_membersBelow_iff.1 hr
    obtain ⟨name, hmem⟩ := exists_of_mem_values hvalue
    rcases mem_union hmem with hmem | hmem
    · exact ha r (mem_membersWithin _ (mem_membersBelow hmem _ hr))
    · exact hb r (mem_membersWithin _ (mem_membersBelow hmem _ hr))

theorem Ahead.referenceFree (hac : Acyclic root) (ht : Textual root) (hv : Ahead root v) :
    ∀ b, StandsFor root v.value b → ReferenceFree b := by
  induction v using (calls_wellFounded root).induction with
  | _ v ih =>
    have hcalls : ∀ w, Calls root v w → ∀ b, StandsFor root w.value b → ReferenceFree b :=
      fun w hw => ih w hw (hv.call hw)
    obtain ⟨stack, value⟩ := v
    have htext : Textual value := fun held hheld => ht held (hv.members _ hheld)
    intro b h
    dsimp only at h
    cases h with
    | null | bool | number | string =>
      intro r hr
      cases hr
    | array each =>
      refine referenceFree_items fun b hb => ?_
      obtain ⟨item, hitem, hstands⟩ := List.exists_of_mem_forall₂ each hb
      exact hcalls _ (.item hitem) b hstands
    | object plain names each =>
      refine referenceFree_members (names ▸ not_mem_keys_of_plain htext plain) fun b hb => ?_
      obtain ⟨held, hheld, hstands⟩ := List.exists_of_mem_forall₂ each hb
      obtain ⟨name, hmem⟩ := exists_of_mem_values hheld
      exact hcalls _ (.member plain hmem) b hstands
    | overlaid refers leads stands names each =>
      have hfresh := hv.fresh hac refers
      have htarget := hcalls _ (.target refers hfresh leads) _ stands
      refine referenceFree_union htarget ?_
      refine referenceFree_members (names ▸ not_mem_keys_siblings _) fun b hb => ?_
      obtain ⟨held, hheld, hstands⟩ := List.exists_of_mem_forall₂ each hb
      obtain ⟨name, hmem⟩ := exists_of_mem_values hheld
      exact hcalls _ (.sibling refers hfresh hmem) b hstands
    | replaced refers leads stands closed =>
      exact hcalls _ (.target refers (hv.fresh hac refers) leads) b stands

theorem expand_referenceFree (h : ReferenceFree v.value) : v.expand root = .ok v.value := by
  induction v using (calls_wellFounded root).induction with
  | _ v ih =>
    have hcalls : ∀ w, Calls root v w →
        (∀ e ∈ membersWithin w.value, e ∈ membersWithin v.value) → w.expand root = .ok w.value :=
      fun w hw hin => ih w hw fun r hr => h r (hin _ hr)
    rw [expand_eq_level]
    obtain ⟨stack, value⟩ := v
    dsimp only [level]
    cases value with
    | object members =>
      have hplain : reference? members = none := by
        cases hr : reference? members with
        | none => rfl
        | some r => exact absurd (List.mem_append_left _ (reference?_mem hr)) (h r)
      have hsame : List.Forall₂ (fun value b => Visit.expand root ⟨stack, value⟩ = .ok b)
          (Table.values members) (Table.values members) := by
        refine List.forall₂_same.2 fun value hvalue => ?_
        obtain ⟨name, hmem⟩ := exists_of_mem_values hvalue
        exact hcalls _ (.member hplain hmem) (inner_member hmem).members
      dsimp only
      rw [hplain]
      dsimp only
      rw [mapM_named_eq_ok.2 ⟨rfl, hsame⟩]
      rfl
    | array items =>
      have hsame : items.mapM (fun item => Visit.expand root ⟨stack, item⟩) = .ok items :=
        Except.mapM_eq_ok.2 <| List.forall₂_same.2 fun item hitem =>
          hcalls _ (.item hitem) (inner_item hitem).members
      dsimp only
      rw [hsame]
      rfl
    | null | bool | number | string => rfl

end Acyclic

theorem acyclic_of_height {root : Json} (height : String → Nat)
    (h : ∀ r ∈ references root, ∀ target, resolve root r = .ok target →
      ∀ s ∈ references target, height s < height r) : Acyclic root := by
  have hstep : ∀ r ∈ references root, ∀ s, Mentions root r s →
      s ∈ references root ∧ height s < height r := by
    rintro r hr s ⟨target, ht, hs⟩
    exact ⟨mem_references.2 (membersWithin_resolve ht _ hs),
      h r hr target ht s (mem_references.2 hs)⟩
  have hpath : ∀ r s, Relation.TransGen (Mentions root) r s → r ∈ references root →
      s ∈ references root ∧ height s < height r := by
    intro r s hrs hr
    induction hrs with
    | single hmentions => exact hstep r hr _ hmentions
    | tail _ hmentions ih =>
      have hnext := hstep _ ih.1 _ hmentions
      exact ⟨hnext.1, Nat.lt_trans hnext.2 ih.2⟩
  intro r hr
  obtain ⟨q, -, target, ht, hs⟩ := Relation.TransGen.tail'_iff.1 hr
  have hself := hpath r r hr (mem_references.2 (membersWithin_resolve ht _ hs))
  exact absurd hself.2 (Nat.lt_irrefl _)

/-- In a document whose references are texts that lead somewhere, and never back to themselves,
expansion gives what the document stands for. Nothing refers in that value, which is its own
expansion. -/
theorem acyclic_expansion_meaning {root : Json}
    (hrefs : ∀ held, (refKey, held) ∈ membersWithin root → ∃ r pointer target,
      held = .string r ∧ r.toList = '#' :: pointer ∧ pointer? root pointer = some target)
    (hac : Acyclic root) :
    ∃ expanded, expand root = .ok expanded ∧
      (∀ value, StandsFor root root value ↔ value = expanded) ∧
      (∀ r, (refKey, .string r) ∉ membersWithin expanded) ∧ expand expanded = .ok expanded := by
  have hleads : ∀ r, (refKey, .string r) ∈ membersWithin root → ∃ t, resolve root r = .ok t := by
    intro r hr
    obtain ⟨s, pointer, target, hs, hpointer⟩ := hrefs _ hr
    cases hs
    exact ⟨target, resolve_eq_ok.2 ⟨pointer, hpointer⟩⟩
  have htext : Textual root := by
    intro held hheld
    obtain ⟨r, -, -, hr, -⟩ := hrefs held hheld
    exact ⟨r, hr⟩
  obtain ⟨expanded, hexpanded⟩ := Within.expands hleads (within_start root)
  have hmeaning := (ahead_start root).expand_eq_ok hac
  have hstands := (hmeaning expanded).1 hexpanded
  have hfree := (ahead_start root).referenceFree hac htext expanded hstands
  refine ⟨expanded, hexpanded, fun value => ?_, hfree, expand_referenceFree (v := ⟨[], _⟩) hfree⟩
  rw [← hmeaning value, hexpanded]
  simp only [Except.ok.injEq]
  exact eq_comm

def sharedDocument : Json := .object [
  ("id", .object [("type", .string "string")]),
  ("names", .array [.object [("$ref", .string "#/id")], .string "name"]),
  ("brick", .object [("$ref", .string "#/id"), ("x-id", .object [("$ref", .string "#/names/0")])]),
  ("wall", .object [
    ("brick", .object [("type", .bool true), ("$ref", .string "#/brick")]),
    ("names", .object [("$ref", .string "#/names"), ("x", .object [("$ref", .string "#/id")])])])]

def sharedHeight (r : String) : Nat :=
  if r = "#/id" then 0 else if r = "#/names/0" then 1 else 2

theorem acyclic_expansion_meaning_shared :
    Acyclic sharedDocument ∧ ∃ expanded, expand sharedDocument = .ok expanded ∧
      StandsFor sharedDocument sharedDocument expanded ∧ expand expanded = .ok expanded := by
  have hac : Acyclic sharedDocument := by
    refine acyclic_of_height sharedHeight fun r hr target ht s hs => ?_
    have hall : ∀ r ∈ references sharedDocument,
        ((resolve sharedDocument r).toOption.elim [] references).all
          (fun s => sharedHeight s < sharedHeight r) = true := by decide +kernel
    have hdown := hall r hr
    rw [ht] at hdown
    exact of_decide_eq_true (List.all_eq_true.1 hdown s hs)
  have hrefs : ∀ held, (refKey, held) ∈ membersWithin sharedDocument → ∃ r pointer target,
      held = .string r ∧ r.toList = '#' :: pointer ∧
        pointer? sharedDocument pointer = some target := by
    intro held hheld
    have hall : ∀ e ∈ membersWithin sharedDocument, e.1 = refKey → (e.2.string?.any fun r =>
        (resolve sharedDocument r).toOption.isSome) = true := by decide +kernel
    obtain ⟨r, hr, hsome⟩ := (Option.any_eq_true _ _).1 (hall _ hheld rfl)
    obtain ⟨pointer, target, hpointer, htarget⟩ := exists_pointer_of_isSome hsome
    cases held with
    | string s =>
      cases hr
      exact ⟨r, pointer, target, rfl, hpointer, htarget⟩
    | null | bool | number | array | object => cases hr
  obtain ⟨expanded, hexpanded, hmeaning, -, hagain⟩ := acyclic_expansion_meaning hrefs hac
  exact ⟨hac, expanded, hexpanded, (hmeaning expanded).2 rfl, hagain⟩

end SwaggerProvider.Swagger.Reference
