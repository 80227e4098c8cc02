import SwaggerProvider.Proofs.Lifecycle.Refresh
import SwaggerProvider.Proofs.Lifecycle.Runs
import SwaggerProvider.Proofs.Payload.Status

/-!
How a data source selects one item of a collection. The filters of the host and the items of the API
are compared as texts, and nothing else of them counts: neither the order of the filters nor that of
the items.
-/

set_option autoImplicit false

namespace SwaggerProvider

namespace Json

variable {value : Json}

theorem items?_eq_some {items : List Json} : value.items? = some items ↔ value = .array items := by
  cases value <;> simp [items?]

theorem string?_eq_some {text : String} : value.string? = some text ↔ value = .string text := by
  cases value <;> simp [string?]

end Json

namespace Filter

inductive Given (config : Members) : List Json → Prop where
  | missing (filter : config.get? Publish.filterName = none) : Given config []
  | null (filter : config.get? Publish.filterName = some .null) : Given config []
  | list {blocks : List Json} (filter : config.get? Publish.filterName = some (.array blocks)) :
    Given config blocks
  | one {block : Members} (filter : config.get? Publish.filterName = some (.object block)) :
    Given config [.object block]

/-- A block names a field by its host name, and the field is a scalar. -/
structure Names (r : Record) (block : Json) (f : Field) : Prop where
  named : ∃ name, block.member? nameKey = some (.string name) ∧
    r.find? (fun f => f.hostName == name) = some f
  scalar : f.kind.isScalar = true

structure Valid (r : Record) (config : Members) (blocks : List Json) : Prop where
  given : Given config blocks
  names : ∀ block ∈ blocks, ∃ f, Names r block f

def Lists (block : Json) (text : String) : Prop :=
  ∃ values value, block.member? valuesKey = some (.array values) ∧ value ∈ values ∧
    value.HasText text

/-- The item has, under the wire name of the field, a value with a text that the block lists. -/
def Satisfies (r : Record) (block : Json) (item : Members) : Prop :=
  ∃ f value text, Names r block f ∧ item.get? f.name = some value ∧ value.HasText text ∧
    Lists block text

variable {r : Record} {config item : Members} {block : Json}
  {blocks blocks' items items' : List Json}

theorem field_eq_ok {name : String} {f : Field} : field r name = .ok f ↔
    r.find? (fun f => f.hostName == name) = some f ∧ f.kind.isScalar = true := by
  unfold field
  cases hfind : r.find? fun f => f.hostName == name with
  | none => simp
  | some g =>
    cases hscalar : g.kind.isScalar with
    | false =>
      simp only [hscalar, Bool.false_eq_true, if_false, reduceCtorEq, Option.some.injEq, false_iff,
        not_and]
      rintro rfl
      simp [hscalar]
    | true =>
      simp only [hscalar, if_true, Except.ok.injEq, Option.some.injEq, iff_self_and]
      rintro rfl
      exact hscalar

def texts (block : Json) : List String :=
  (((block.member? valuesKey).bind Json.items?).getD []).filterMap Json.scalarText?

theorem mem_texts {text : String} : text ∈ texts block ↔ Lists block text := by
  rw [texts, List.mem_filterMap]
  constructor
  · rintro ⟨value, hvalue, htext⟩
    cases hlisted : (block.member? valuesKey).bind Json.items? with
    | none =>
      rw [hlisted] at hvalue
      cases hvalue
    | some values =>
      rw [hlisted] at hvalue
      obtain ⟨_, hmember, hitems⟩ := Option.bind_eq_some_iff.1 hlisted
      obtain rfl := Json.items?_eq_some.1 hitems
      exact ⟨values, value, hmember, hvalue, Json.scalarText?_eq_some.1 htext⟩
  · rintro ⟨values, value, hmember, hvalue, htext⟩
    rw [hmember]
    exact ⟨value, hvalue, Json.scalarText?_eq_some.2 htext⟩

theorem ofBlock_eq_ok {filter : Filter} : ofBlock r block = .ok filter ↔
    ∃ f, Names r block f ∧ filter = ⟨f.name, texts block⟩ := by
  unfold ofBlock
  constructor
  · intro h
    split at h
    · cases h
    · next name hname =>
      obtain ⟨f, hf, rfl⟩ := Except.map_eq_ok.1 h
      obtain ⟨value, hmember, hvalue⟩ := Option.bind_eq_some_iff.1 hname
      obtain rfl := Json.string?_eq_some.1 hvalue
      obtain ⟨hfind, hscalar⟩ := field_eq_ok.1 hf
      exact ⟨f, ⟨⟨name, hmember, hfind⟩, hscalar⟩, rfl⟩
  · rintro ⟨f, ⟨⟨name, hmember, hfind⟩, hscalar⟩, rfl⟩
    rw [hmember]
    exact Except.map_eq_ok.2 ⟨f, field_eq_ok.2 ⟨hfind, hscalar⟩, rfl⟩

theorem accepts_iff {filter : Filter} : filter.accepts item = true ↔
    ∃ value text, item.get? filter.name = some value ∧ value.HasText text ∧
      text ∈ filter.values := by
  rw [accepts, Option.any_eq_true]
  constructor
  · rintro ⟨text, htext, hlisted⟩
    obtain ⟨value, hvalue, htext⟩ := Option.bind_eq_some_iff.1 htext
    exact ⟨value, text, hvalue, Json.scalarText?_eq_some.1 htext, List.contains_iff_mem.1 hlisted⟩
  · rintro ⟨value, text, hvalue, htext, hlisted⟩
    exact ⟨text, Option.bind_eq_some_iff.2 ⟨value, hvalue, Json.scalarText?_eq_some.2 htext⟩,
      List.contains_iff_mem.2 hlisted⟩

theorem satisfies_iff : Satisfies r block item ↔
    ∃ filter, ofBlock r block = .ok filter ∧ filter.accepts item = true := by
  constructor
  · rintro ⟨f, value, text, hnames, hvalue, htext, hlisted⟩
    exact ⟨⟨f.name, texts block⟩, ofBlock_eq_ok.2 ⟨f, hnames, rfl⟩,
      accepts_iff.2 ⟨value, text, hvalue, htext, mem_texts.2 hlisted⟩⟩
  · rintro ⟨filter, hfilter, haccepts⟩
    obtain ⟨f, hnames, rfl⟩ := ofBlock_eq_ok.1 hfilter
    obtain ⟨value, text, hvalue, htext, hlisted⟩ := accepts_iff.1 haccepts
    exact ⟨f, value, text, hnames, hvalue, htext, mem_texts.1 hlisted⟩

theorem satisfies_of_ofBlock {filter : Filter} (h : ofBlock r block = .ok filter) :
    Satisfies r block item ↔ filter.accepts item = true := by
  rw [satisfies_iff, h]
  exact ⟨fun ⟨_, hsame, haccepts⟩ => Except.ok.inj hsame ▸ haccepts, fun h => ⟨filter, rfl, h⟩⟩

instance (r : Record) (block : Json) (item : Members) : Decidable (Satisfies r block item) :=
  match h : ofBlock r block with
  | .ok _ => decidable_of_iff' _ (satisfies_of_ofBlock h)
  | .error _ => .isFalse fun hsatisfies => by
    obtain ⟨filter, hfilter, -⟩ := satisfies_iff.1 hsatisfies
    rw [h] at hfilter
    cases hfilter

/-- The items that satisfy all blocks; what is not an object is passed over. -/
def matching (r : Record) (blocks items : List Json) : List Members :=
  (items.filterMap Json.members?).filter fun item => ∀ block ∈ blocks, Satisfies r block item

theorem matching_perm (hblocks : blocks.Perm blocks') (hitems : items.Perm items') :
    (matching r blocks items).Perm (matching r blocks' items') := by
  have hsame (item : Members) : (∀ block ∈ blocks, Satisfies r block item) ↔
      ∀ block ∈ blocks', Satisfies r block item :=
    forall_congr' fun block => by rw [hblocks.mem_iff]
  simp only [matching, hsame]
  exact (hitems.filterMap _).filter _

theorem Given.blocks_eq_ok (h : Given config blocks) : Filter.blocks config = .ok blocks := by
  unfold Filter.blocks
  cases h with
  | missing hfilter | null hfilter | list hfilter | one hfilter => rw [hfilter]

theorem Valid.perm (h : Valid r config blocks) {config' : Members} (hgiven : Given config' blocks')
    (hblocks : blocks.Perm blocks') : Valid r config' blocks' :=
  ⟨hgiven, fun block hblock => h.names block (hblocks.mem_iff.2 hblock)⟩

theorem Valid.filters (h : Valid r config blocks) : ∃ filters, ofConfig r config = .ok filters ∧
    List.Forall₂ (fun block filter => ofBlock r block = .ok filter) blocks filters := by
  have heach (block : Json) (hblock : block ∈ blocks) : ∃ filter, ofBlock r block = .ok filter := by
    obtain ⟨f, hnames⟩ := h.names block hblock
    exact ⟨_, ofBlock_eq_ok.2 ⟨f, hnames, rfl⟩⟩
  obtain ⟨filters, hfilters⟩ := Except.exists_mapM_eq_ok heach
  exact ⟨filters, Except.bind_eq_ok.2 ⟨blocks, h.given.blocks_eq_ok, hfilters⟩,
    Except.mapM_eq_ok.1 hfilters⟩

theorem all_accepts_iff {filters : List Filter}
    (h : List.Forall₂ (fun block filter => ofBlock r block = .ok filter) blocks filters) :
    filters.all (fun f => f.accepts item) = true ↔ ∀ block ∈ blocks, Satisfies r block item := by
  induction h with
  | nil => simp
  | cons hfilter _ ih =>
    rw [List.all_cons, Bool.and_eq_true, List.forall_mem_cons, ih, satisfies_of_ofBlock hfilter]

theorem select_eq_matching {filters : List Filter}
    (h : List.Forall₂ (fun block filter => ofBlock r block = .ok filter) blocks filters) :
    select filters items = matching r blocks items :=
  List.filter_congr fun item _ => by
    rw [Bool.eq_iff_iff, all_accepts_iff h, decide_eq_true_iff]

end Filter

def Payload.Identifies (r : Record) (item : Members) (id : String) : Prop :=
  ∃ f value, r.identifier? = some f ∧ item.get? f.name = some value ∧ value.HasText id

theorem Payload.identifier?_eq_some {r : Record} {item : Members} {id : String} :
    identifier? r item = some id ↔ Identifies r item id := by
  constructor
  · intro h
    obtain ⟨f, hf, h⟩ := Option.bind_eq_some_iff.1 h
    obtain ⟨value, hvalue, htext⟩ := Option.bind_eq_some_iff.1 h
    exact ⟨f, value, hf, hvalue, Json.scalarText?_eq_some.1 htext⟩
  · rintro ⟨f, value, hf, hvalue, htext⟩
    exact Option.bind_eq_some_iff.2 ⟨f, hf, Option.bind_eq_some_iff.2
      ⟨value, hvalue, Json.scalarText?_eq_some.2 htext⟩⟩

namespace Lifecycle

open SwaggerProvider.Filter (Given Valid matching matching_perm)
open Http (Method Run Timeline)
open Payload (Identifies)

/-- The configuration has the identifiers of all parents, and the API answers with a list. -/
inductive Listed (d : DataSource) (c : Client) (config : Members) (items : List Json)
    (t : Timeline) : Prop where
  | intro {ids : List String} {url : String} {answer : Answer} {done : Timeline}
    (parents : List.Forall₂ (fun p id => ∃ value, config.get? (Parent.attribute p) = some value ∧
      value.HasText id) d.parents ids)
    (place : c.url d.name d.host d.path ids = .ok url)
    (sent : (c.send ⟨d.name, .get, url, d.get, d.record, none⟩).run t = (.ok answer, done))
    (accepted : answer.status = 200 ∨ answer.status = 201 ∨ answer.status = 202)
    (body : answer.body = some (.array items))

/-- The attribute that is read back: the filters and the identifiers of the parents as they were
given, and all else as the item has it. -/
def readBack (d : DataSource) (config item : Members) (key : String) : Option Json :=
  let own := (Payload.toState d.record item []).get? key
  if key = Publish.filterName ∨ key ∈ d.parents.map Parent.attribute then
    (config.get? key).or own
  else own

structure Selects (d : DataSource) (config : Members) (found : List Members)
    (result : Except Error ResourceState) : Prop where
  ok : (∃ s, result = .ok s) ↔ ∃ item id, found = [item] ∧ Identifies d.record item id
  state : ∀ s, result = .ok s → ∃ item, found = [item] ∧ Identifies d.record item s.id ∧
    ∀ key, s.attributes.get? key = readBack d config item key
  count : found.length ≠ 1 → ∃ e, result = .error e ∧
    e = .runtimeConfig (.matchCount d.name found.length) ∧
    e.message = "Invalid provider configuration: data source '" ++ d.name ++
      "' expects exactly one result, the filters matched " ++ toString found.length

/-- Results that differ in the echo of the filters at most, as far as states and counts go. -/
structure SelectsAlike (result other : Except Error ResourceState) : Prop where
  ok : (∃ s, result = .ok s) ↔ ∃ s, other = .ok s
  state : ∀ s s', result = .ok s → other = .ok s' → s.id = s'.id ∧
    ∀ key, key ≠ Publish.filterName → s.attributes.get? key = s'.attributes.get? key
  count : ∀ name n, result = .error (.runtimeConfig (.matchCount name n)) ↔
    other = .error (.runtimeConfig (.matchCount name n))

variable {d : DataSource} {c c' : Client} {config config' item : Members}
  {blocks blocks' items items' : List Json} {t t' : Timeline}

theorem parentIds_eq_ok {parents : List Parent} {ids : List String}
    (h : List.Forall₂ (fun p id => ∃ value, config.get? (Parent.attribute p) = some value ∧
      value.HasText id) parents ids) : parentIds config parents = .ok ids := by
  induction h with
  | nil => rfl
  | cons hfirst _ ih =>
    obtain ⟨value, hvalue, htext⟩ := hfirst
    rw [parentIds, hvalue, Option.bind_some, Json.scalarText?_eq_some.2 htext, ih]
    rfl

def selected (d : DataSource) (config item : Members) : Members :=
  let attributes := keepParents d.parents config (Payload.toState d.record item [])
  match config.get? Publish.filterName with
  | some filter => attributes.insert Publish.filterName filter
  | none => attributes

theorem get?_selected (d : DataSource) (config item : Members) (key : String) :
    (selected d config item).get? key = readBack d config item key := by
  have hkept := get?_keepParents d.parents config (Payload.toState d.record item []) key
  unfold selected readBack
  cases hfilter : config.get? Publish.filterName with
  | some filter =>
    by_cases hkey : key = Publish.filterName
    · subst hkey
      simp [hfilter]
    · simpa [Table.get?_insert_of_ne _ _ hkey, hkey] using hkept
  | none =>
    by_cases hkey : key = Publish.filterName
    · subst hkey
      simpa [hfilter] using hkept
    · simpa [hkey] using hkept

def outcome (d : DataSource) (config : Members) (url : String) (status : Nat) :
    List Members → Except Error ResourceState
  | [item] =>
    match Payload.identifier? d.record item with
    | none => .error (.apiResponse Method.get.text url status "matched item has no identifier")
    | some id => .ok ⟨id, selected d config item⟩
  | found => .error (.runtimeConfig (.matchCount d.name found.length))

theorem outcome_of_many {url : String} {status : Nat} {found : List Members}
    (h : found.length ≠ 1) : outcome d config url status found =
      .error (.runtimeConfig (.matchCount d.name found.length)) := by
  unfold outcome
  split
  · exact absurd rfl h
  · rfl

theorem run_select (valid : Valid d.record config blocks) (listed : Listed d c config items t) :
    ∃ url status, ((select d c config).run t).1 =
      outcome d config url status (matching d.record blocks items) := by
  obtain @⟨ids, url, answer, done, hparents, hplace, hsent, haccepted, hbody⟩ := listed
  obtain ⟨filters, hfilters, heach⟩ := valid.filters
  have hchecked : answer.check Method.get.text url = .ok answer := by
    unfold Answer.check
    rcases haccepted with h | h | h <;> rw [h] <;> rfl
  refine ⟨url, answer.status, ?_⟩
  unfold select
  rw [Run.run_lift_ok hfilters, Run.run_lift_ok (parentIds_eq_ok hparents),
    Run.run_lift_ok hplace, Run.run_bind_ok hsent, Run.run_lift_ok hchecked]
  simp only [hbody, Option.bind_some, Json.items?]
  have hselect : Filter.select filters items = matching d.record blocks items :=
    Filter.select_eq_matching heach
  by_cases hone : (matching d.record blocks items).length = 1
  · obtain ⟨item, hfound⟩ := List.length_eq_one_iff.1 hone
    have hsingle : Filter.single d.name filters items = .ok item := by
      rw [Filter.single, hselect, hfound]
    rw [Run.run_lift_ok hsingle, hfound, outcome]
    cases Payload.identifier? d.record item with
    | none => rfl
    | some id =>
      unfold selected
      cases config.get? Publish.filterName <;> rfl
  · have hsingle : Filter.single d.name filters items =
        .error (.runtimeConfig (.matchCount d.name (matching d.record blocks items).length)) := by
      rw [Filter.single, hselect]
      split
      · next item hfound => exact absurd (by rw [hfound]; rfl) hone
      · rfl
    rw [Run.run_lift_error hsingle, outcome_of_many hone]

section Outcome

variable {url url' : String} {status status' : Nat} {found found' : List Members}

theorem message_matchCount (name : String) (n : Nat) :
    (Error.runtimeConfig (.matchCount name n)).message =
      "Invalid provider configuration: data source '" ++ name ++
        "' expects exactly one result, the filters matched " ++ toString n := by
  have hstart : "Invalid provider configuration: data source '" =
      "Invalid provider configuration: " ++ "data source '" := by decide
  rw [hstart]
  change "Invalid provider configuration: " ++
    s!"data source '{name}' expects exactly one result, the filters matched {n}" = _
  simp only [toString, String.append_assoc]

theorem Selects.failed {e : Error}
    (none : ∀ item, found = [item] → ∀ id, ¬ Identifies d.record item id)
    (count : found.length ≠ 1 → e = .runtimeConfig (.matchCount d.name found.length)) :
    Selects d config found (.error e) := by
  constructor
  case ok =>
    constructor
    · rintro ⟨s, h⟩
      cases h
    · rintro ⟨item, id, hfound, hidentifies⟩
      exact absurd hidentifies (none item hfound id)
  case state =>
    intro s h
    cases h
  case count =>
    intro h
    exact ⟨e, rfl, count h, count h ▸ message_matchCount d.name found.length⟩

theorem SelectsAlike.failed {e e' : Error}
    (count : ∀ name n, e = .runtimeConfig (.matchCount name n) ↔
      e' = .runtimeConfig (.matchCount name n)) : SelectsAlike (.error e) (.error e') := by
  constructor
  case ok =>
    constructor
    · rintro ⟨s, h⟩
      cases h
    · rintro ⟨s, h⟩
      cases h
  case state =>
    intro s s' h
    cases h
  case count =>
    intro name n
    rw [Except.error.injEq, Except.error.injEq]
    exact count name n

theorem outcome_selects : Selects d config found (outcome d config url status found) := by
  by_cases hone : found.length = 1
  · obtain ⟨item, rfl⟩ := List.length_eq_one_iff.1 hone
    rw [outcome]
    cases hid : Payload.identifier? d.record item with
    | none =>
      refine .failed (fun other hother id hidentifies => ?_) fun h => absurd rfl h
      cases hother
      rw [Payload.identifier?_eq_some.2 hidentifies] at hid
      cases hid
    | some id =>
      have hidentifies := Payload.identifier?_eq_some.1 hid
      constructor
      case ok => exact ⟨fun _ => ⟨item, id, rfl, hidentifies⟩, fun _ => ⟨_, rfl⟩⟩
      case state =>
        intro s h
        cases h
        exact ⟨item, rfl, hidentifies, get?_selected d config item⟩
      case count => exact fun h => absurd rfl h
  · rw [outcome_of_many hone]
    refine .failed (fun item hitem => ?_) fun _ => rfl
    exact absurd (by rw [hitem]; rfl) hone

theorem outcome_alike (hfound : found.Perm found')
    (hconfig : ∀ key, key ≠ Publish.filterName → config.get? key = config'.get? key) :
    SelectsAlike (outcome d config url status found) (outcome d config' url' status' found') := by
  by_cases hone : found.length = 1
  · obtain ⟨item, rfl⟩ := List.length_eq_one_iff.1 hone
    obtain rfl := List.singleton_perm.1 hfound
    rw [outcome, outcome]
    cases Payload.identifier? d.record item with
    | none => exact .failed (by simp)
    | some id =>
      constructor
      case ok => exact ⟨fun _ => ⟨_, rfl⟩, fun _ => ⟨_, rfl⟩⟩
      case state =>
        intro s s' h h'
        cases h
        cases h'
        refine ⟨rfl, fun key hkey => ?_⟩
        rw [get?_selected, get?_selected, readBack, readBack, hconfig key hkey]
      case count => simp
  · rw [outcome_of_many hone, outcome_of_many (hfound.length_eq ▸ hone), hfound.length_eq]
    exact .failed fun name n => Iff.rfl

end Outcome

/-- A data source finds the item that satisfies all filters, if there is exactly one and it has an
identifier, and else tells how many there are. The order of the filters and that of the items do
not count. -/
theorem filter_selection (valid : Valid d.record config blocks)
    (listed : Listed d c config items t) :
    Selects d config (matching d.record blocks items) ((select d c config).run t).1 ∧
    ∀ (c' : Client) (config' : Members) (blocks' items' : List Json) (t' : Timeline),
      Given config' blocks' → blocks.Perm blocks' →
      (∀ key, key ≠ Publish.filterName → config.get? key = config'.get? key) →
      Listed d c' config' items' t' → items.Perm items' →
      SelectsAlike ((select d c config).run t).1 ((select d c' config').run t').1 := by
  obtain ⟨url, status, hrun⟩ := run_select valid listed
  rw [hrun]
  refine ⟨outcome_selects, ?_⟩
  intro c' config' blocks' items' t' hgiven hblocks hconfig hlisted hitems
  obtain ⟨url', status', hrun'⟩ := run_select (valid.perm hgiven hblocks) hlisted
  rw [hrun']
  exact outcome_alike (matching_perm hblocks hitems) hconfig

def firewalls : DataSource where
  name := "cdns_firewalls"
  path := firewall.root
  record := firewall.record
  get := .empty
  host := .global
  parents := firewall.parents

def filterBy (name : String) (values : List Json) : Json :=
  .object [("name", .string name), ("values", .array values)]

def firewallBlocks : List Json :=
  [filterBy "name" [.string "a"], filterBy "id" [.ofInt 8, .ofInt 7]]

def firewallItems : List Json :=
  [.object [("id", .string "7"), ("Name", .string "a")], .ofInt 3,
    .object [("id", .string "8"), ("Name", .string "b")]]

def firewallConfig (blocks : List Json) : Members :=
  [("cdns_id", .string "1"), ("filter", .array blocks)]

def listTimeline (items : List Json) : Timeline :=
  .ofReplies [⟨.response ⟨200, [],
    some ((Json.array items).text.toList.map fun c => c.toNat.toUInt8)⟩, ⟨0⟩⟩]

def firewallsCall : Call :=
  ⟨"cdns_firewalls", .get, "http://api.example.com/cdns/1/firewalls", .empty, firewall.record, none⟩

theorem listed_firewalls {blocks items : List Json}
    (hbody : ((firewallClient.send firewallsCall).run (listTimeline items)).1.toOption.map
      (fun a => (a.status, a.body)) = some (200, some (.array items))) :
    Listed firewalls firewallClient (firewallConfig blocks) items (listTimeline items) := by
  have hurl : firewallClient.url firewalls.name firewalls.host firewalls.path ["1"] =
      .ok firewallsCall.url := by decide +kernel
  have hid : (Json.string "1").HasText "1" := .string (by decide)
  cases hrun : (firewallClient.send firewallsCall).run (listTimeline items) with
  | mk result done =>
    rw [hrun] at hbody
    cases result with
    | error e => cases hbody
    | ok answer =>
      obtain ⟨hstatus, hitems⟩ := Prod.mk.inj (Option.some.inj hbody)
      exact .intro (.cons ⟨.string "1", rfl, hid⟩ .nil) hurl hrun (.inl hstatus) hitems

theorem valid_firewalls :
    Valid firewalls.record (firewallConfig firewallBlocks) firewallBlocks := by
  have heach : ∀ block ∈ firewallBlocks,
      (Filter.ofBlock firewalls.record block).toOption.isSome = true := by decide +kernel
  refine ⟨.list rfl, fun block hblock => ?_⟩
  cases hfilter : Filter.ofBlock firewalls.record block with
  | ok filter =>
    obtain ⟨f, hf, -⟩ := Filter.ofBlock_eq_ok.1 hfilter
    exact ⟨f, hf⟩
  | error e =>
    have hsome := heach block hblock
    rw [hfilter] at hsome
    cases hsome

/-- The firewall `a` is found, whatever the order of the filters and of the items. -/
theorem filter_selection_firewalls :
    ∃ s s', ((select firewalls firewallClient (firewallConfig firewallBlocks)).run
        (listTimeline firewallItems)).1 = .ok s ∧
      ((select firewalls firewallClient (firewallConfig firewallBlocks.reverse)).run
        (listTimeline firewallItems.reverse)).1 = .ok s' ∧
      s.id = "7" ∧ s.attributes.get? "cdns_id" = some (.string "1") ∧ s'.id = s.id := by
  have hfound : matching firewalls.record firewallBlocks firewallItems =
      [[("id", .string "7"), ("Name", .string "a")]] := by decide +kernel
  have hid : Payload.identifier? firewalls.record [("id", .string "7"), ("Name", .string "a")] =
      some "7" := by decide +kernel
  have hconfig (key : String) (hkey : key ≠ Publish.filterName) :
      (firewallConfig firewallBlocks).get? key =
        (firewallConfig firewallBlocks.reverse).get? key := by
    have hfilter : "filter" ≠ key := hkey.symm
    simp [firewallConfig, Table.get?, hfilter]
  obtain ⟨hselects, hother⟩ := filter_selection valid_firewalls
    (listed_firewalls (by decide +kernel) : Listed _ _ _ firewallItems _)
  have halike := hother firewallClient (firewallConfig firewallBlocks.reverse)
    firewallBlocks.reverse firewallItems.reverse (listTimeline firewallItems.reverse) (.list rfl)
    (List.reverse_perm _).symm hconfig (listed_firewalls (by decide +kernel))
    (List.reverse_perm _).symm
  obtain ⟨s, hs⟩ := hselects.ok.2 ⟨_, "7", hfound, Payload.identifier?_eq_some.1 hid⟩
  obtain ⟨s', hs'⟩ := halike.ok.1 ⟨s, hs⟩
  obtain ⟨item, hitem, hidentifies, hattributes⟩ := hselects.state s hs
  obtain rfl := List.singleton_inj.1 (hfound.symm.trans hitem)
  have hsame := (Payload.identifier?_eq_some.2 hidentifies).symm.trans hid
  refine ⟨s, s', hs, hs', Option.some.inj hsame, ?_, ((halike.state s s' hs hs').1).symm⟩
  rw [hattributes]
  decide +kernel

end Lifecycle

end SwaggerProvider
