import SwaggerProvider.Proofs.Lifecycle.Failures
import SwaggerProvider.Proofs.Lifecycle.Immutable
import SwaggerProvider.Proofs.Lifecycle.Sending
import SwaggerProvider.Proofs.Lifecycle.Wire

/-!
The first call of an operation, and what may come after it. A change is asked for at most once and
before anything else, and all that follows is looking at the resource. Whatever is not in place for
the first call keeps everything from being sent.
-/

set_option autoImplicit false

namespace SwaggerProvider.Lifecycle

open Http (Method Run Timeline Transport)
open Http.Run (Speaks quiet_say)

theorem mem_of_parentIds {attributes : Members} {parents : List Parent} {ids : List String}
    (h : parentIds attributes parents = .ok ids) :
    ∀ p ∈ parents, ((attributes.get? p.attribute).bind Json.scalarText?).isSome = true := by
  induction parents generalizing ids with
  | nil => simp
  | cons p rest ih =>
    unfold parentIds at h
    split at h
    · next id hid =>
      obtain ⟨more, hmore, -⟩ := Except.map_eq_ok.1 h
      exact List.forall_mem_cons.2 ⟨by rw [hid]; rfl, ih hmore⟩
    · cases h

theorem count_of_url {c : Client} {name : String} {host : Host} {template url : String}
    {ids : List String} (h : c.url name host template ids = .ok url) :
    Path.parameterCount template = ids.length := by
  obtain ⟨address, -, h⟩ := Except.bind_eq_ok.1 h
  obtain ⟨path, hpath, -⟩ := Except.bind_eq_ok.1 h
  unfold Path.fill at hpath
  dsimp only at hpath
  split at hpath
  · assumption
  · cases hpath

/-- The first call of an operation. Its path takes the identifiers of the parents, which attributes
name, and perhaps an own one behind them. -/
structure Opening where
  name : String
  host : Host
  template : String
  parents : List Parent
  attributes : Members
  own : Option String
  permitted : Bool
  method : Method
  operation : Operation
  record : Record
  body : Option Members

namespace Opening

def atResource (r : Resource) (method : Method) (operation : Option Operation)
    (attributes : Members) (own : Option String) (body : Option Members) : Opening where
  name := r.name
  host := r.host
  template := r.instancePath
  parents := r.parents
  attributes := attributes
  own := own
  permitted := operation.isSome
  method := method
  operation := operation.getD .empty
  record := r.record
  body := body

def create (r : Resource) (planned : Members) : Opening where
  name := r.name
  host := r.host
  template := r.root
  parents := r.parents
  attributes := planned
  own := none
  permitted := true
  method := .post
  operation := r.post
  record := r.record
  body := some (Payload.ofState r.record planned)

def read (r : Resource) (current : ResourceState) : Opening :=
  atResource r .get (some r.get) current.attributes (some current.id) none

def update (r : Resource) (prior : ResourceState) (planned : Members) : Opening :=
  let body := Payload.ofState r.record planned
  let o := atResource r .put r.put prior.attributes (some prior.id) (some body)
  { o with permitted := o.permitted && unchanged r.record prior.attributes planned }

def delete (r : Resource) (current : ResourceState) : Opening :=
  atResource r .delete r.delete current.attributes (some current.id) none

def readById (r : Resource) (config : Members) : Opening :=
  let id := (config.get? Record.idName).bind Json.scalarText?
  let o := atResource r .get (some r.get) config id none
  { o with permitted := id.isSome }

def select (d : DataSource) (config : Members) : Opening where
  name := d.name
  host := d.host
  template := d.path
  parents := d.parents
  attributes := config
  own := none
  permitted := true
  method := .get
  operation := d.get
  record := d.record
  body := none

def call (o : Opening) (url : String) : Call :=
  ⟨o.name, o.method, url, o.operation, o.record, o.body.map .object⟩

/-- The URL of the call, and the identifiers of the parents in it. -/
structure Starts (c : Client) (o : Opening) (ids : List String) (url : String) : Prop where
  permitted : o.permitted = true
  parents : parentIds o.attributes o.parents = .ok ids
  url : c.url o.name o.host o.template (ids ++ o.own.toList) = .ok url

inductive Blocked (c : Client) (o : Opening) : Prop where
  | forbidden (permitted : o.permitted = false)
  | parent (p : Parent) (mem : p ∈ o.parents)
    (missing : (o.attributes.get? p.attribute).bind Json.scalarText? = none)
  | identifiers (count : Path.parameterCount o.template ≠ o.parents.length + o.own.toList.length)
  | credentials (needed : o.operation.security ≠ [])
    (unsatisfied : ∀ requirement ∈ o.operation.security, ∃ s ∈ requirement,
      Security.choose? c.schemes c.config.security s = none)
  | header (h : Header) (mem : h ∈ o.operation.headers) (required : h.required = true)
    (missing : c.config.headers.get? h.configName = none)

theorem Starts.not_blocked {c : Client} {o : Opening} {ids : List String} {url : String}
    (h : o.Starts c ids url) (ready : Ready c o.operation) : ¬ o.Blocked c := by
  intro hblocked
  cases hblocked with
  | forbidden hforbidden => simp [h.permitted] at hforbidden
  | parent p hp hmissing => simpa [hmissing] using mem_of_parentIds h.parents p hp
  | identifiers hcount =>
    apply hcount
    rw [count_of_url h.url, List.length_append, parentIds_length h.parents]
  | credentials hneeded hunsatisfied =>
    obtain ⟨choices, hchoices⟩ := ready.security
    rcases Security.select_eq_ok hchoices with ⟨hnone, -⟩ | ⟨requirement, hmem, hsatisfied⟩
    · exact hneeded hnone
    · obtain ⟨s, hs, hunchosen⟩ := hunsatisfied requirement hmem
      obtain ⟨choice, -, hchosen⟩ := (Security.mem_of_satisfy? hsatisfied).1 s hs
      rw [hunchosen] at hchosen
      cases hchosen
  | header header hmem hrequired hmissing =>
    have hconfigured := ready.headers header hmem hrequired
    rw [hmissing] at hconfigured
    cases hconfigured

end Opening

/-- Which calls may come after the first one: the turns of the whole operation, the identifiers of
the parents and the URL of the first call, and the later call. -/
abbrev Follows := List Turn → List String → String → Call → Prop

inductive Opens (c : Client) (o : Opening) (follows : Follows) {α : Type}
    (answered : α → List Turn → Prop) : Except Error α → List Turn → Prop where
  | unsent {e : Error} {turns : List Turn} (none : calls turns = []) :
    Opens c o follows answered (.error e) turns
  | sent {result : Except Error α} {turns : List Turn} {ids : List String} {url : String}
    {more : List Call} (starts : o.Starts c ids url) (ready : Ready c o.operation)
    (first : calls turns = o.call url :: more) (rest : ∀ other ∈ more, follows turns ids url other)
    (answer : ∀ a, result = .ok a → answered a turns) : Opens c o follows answered result turns

namespace Opens

variable {c : Client} {o : Opening} {follows : Follows} {α β : Type} {P : α → List Turn → Prop}
  {Q : β → List Turn → Prop} {ids : List String} {url : String} {turns more : List Turn}

theorem error {e : Error} (h : Opens c o follows P (.error e) turns) :
    Opens c o follows Q (.error e) turns := by
  cases h with
  | unsent none => exact .unsent none
  | sent starts ready first rest _ => exact .sent starts ready first rest (by simp)

theorem ok {a : α} (h : Opens c o follows P (.ok a) turns) {result : Except Error β}
    (hresult : ∀ b, result = .ok b → P a turns → Q b turns) :
    Opens c o follows Q result (turns ++ []) := by
  cases h with
  | sent starts ready first rest answer =>
    rw [List.append_nil]
    exact .sent starts ready first rest fun b hb => hresult b hb (answer a rfl)

theorem of_error {e : Error} (starts : o.Starts c ids url)
    (h : CallsOnce c (o.call url) P (.error e) turns) : Opens c o follows Q (.error e) turns := by
  cases h with
  | unsent none => exact .unsent none
  | sent ready once _ => exact .sent starts ready once (by simp) (by simp)

theorem of_ok {a : α} (starts : o.Starts c ids url)
    (h : CallsOnce c (o.call url) P (.ok a) turns) {result : Except Error β}
    (hmore : ∀ other ∈ calls more, P a turns → follows (turns ++ more) ids url other)
    (hanswer : ∀ b, result = .ok b → P a turns → Q b (turns ++ more)) :
    Opens c o follows Q result (turns ++ more) := by
  cases h with
  | sent ready once answer =>
    have hfirst : calls (turns ++ more) = o.call url :: calls more := by
      simp [once]
    exact .sent starts ready hfirst (fun other hother => hmore other hother (answer a rfl))
      fun b hb => hanswer b hb (answer a rfl)

theorem alone {a : α} (starts : o.Starts c ids url) (h : CallsOnce c (o.call url) P (.ok a) turns)
    {result : Except Error β} (hanswer : ∀ b, result = .ok b → P a turns → Q b turns) :
    Opens c o follows Q result (turns ++ []) := by
  refine of_ok starts h (by simp) ?_
  rwa [List.append_nil]

end Opens

/-- What an operation says to the API, and what the API gets of it. However the transport works, the
API gets the request of the operation first; as long as it follows no response, it makes no request
of its own. -/
structure Converses (T : Transport) (c : Client) (o : Opening) (follows : Follows) {α : Type}
    (result : Except Error α) (turns : List Turn) : Prop where
  once : calls turns = [] ∨ ∃ ids url more, o.Starts c ids url ∧
    calls turns = o.call url :: more ∧ ∀ other ∈ more, follows turns ids url other
  first : ∀ wire, T.Wired turns wire → asked wire = [] ∨ ∃ ids url request more,
    o.Starts c ids url ∧ asked wire = request :: more ∧ request.Asks (o.call url)
  wire : ∀ wire, T.Wired turns wire → T.Direct wire →
    asked wire = [] ∨ ∃ ids url first more, o.Starts c ids url ∧
      asked wire = first :: more ∧ first.Asks (o.call url) ∧
      ∀ request ∈ more, ∃ other, request.Asks other ∧ follows turns ids url other
  blocked : o.Blocked c → (calls turns = [] ∧ ∃ e, result = .error e) ∧
    ∀ wire, T.Wired turns wire → asked wire = []

section Converse

variable {c : Client} {o : Opening} {follows : Follows} {α : Type} {P : α → List Turn → Prop}
  {result : Except Error α} {turns : List Turn}

theorem Opens.once (h : Opens c o follows P result turns) :
    calls turns = [] ∨ ∃ ids url more, o.Starts c ids url ∧
      calls turns = o.call url :: more ∧ ∀ other ∈ more, follows turns ids url other := by
  cases h with
  | unsent none => exact .inl none
  | sent starts ready first rest _ => exact .inr ⟨_, _, _, starts, first, rest⟩

theorem Opens.blocked (h : Opens c o follows P result turns) (hblocked : o.Blocked c) :
    calls turns = [] ∧ ∃ e, result = .error e := by
  cases h with
  | unsent none => exact ⟨none, _, rfl⟩
  | sent starts ready _ _ _ => exact absurd hblocked (starts.not_blocked ready)

theorem Opens.asks (h : Opens c o follows P result turns) (hfits : ∀ turn ∈ turns, turn.Fits c) :
    asked turns = [] ∨ ∃ ids url request more, o.Starts c ids url ∧
      asked turns = request :: more ∧ request.Asks (o.call url) ∧
      ∀ later ∈ more, ∃ other, later.Asks other ∧ follows turns ids url other := by
  have hasks := asked_asks hfits
  rcases h.once with hnone | ⟨ids, url, more, starts, first, rest⟩
  · exact .inl (asked_eq_nil.2 hnone)
  · rw [first] at hasks
    obtain ⟨request, more, hfirst, hmore, hasked⟩ := List.forall₂_cons_right_iff.1 hasks
    refine .inr ⟨ids, url, request, more, starts, hasked, hfirst, fun later hlater => ?_⟩
    obtain ⟨other, hother, hlater⟩ := List.exists_of_mem_forall₂ hmore.flip hlater
    exact ⟨other, hlater, rest other hother⟩

theorem Opens.converses {T : Transport} (h : Opens c o follows P result turns)
    (hfits : ∀ turn ∈ turns, turn.Fits c) : Converses T c o follows result turns where
  once := h.once
  first wire hwire := by
    rcases h.asks hfits with hnone | ⟨ids, url, request, more, starts, hasked, hasks, -⟩
    · exact .inl (hwire.asked_eq_nil hnone)
    · have hhead := hwire.head?_asked
      rw [hasked, List.head?_cons] at hhead
      obtain ⟨later, hlater⟩ := List.head?_eq_some_iff.1 hhead
      exact .inr ⟨ids, url, request, later, starts, hlater, hasks⟩
  wire wire hwire hdirect := by
    obtain rfl := hwire.eq_of_direct hdirect
    exact h.asks hfits
  blocked hblocked :=
    ⟨h.blocked hblocked, fun _ hwire => hwire.asked_eq_nil (asked_eq_nil.2 (h.blocked hblocked).1)⟩

theorem converses_of_opens {T : Transport} {x : Run α} (h : Speaks c x (Opens c o follows P)) :
    Speaks c x (Converses T c o follows) :=
  h.fits.weaken fun _ _ h => h.1.converses h.2

end Converse

namespace Follows

def nothing : Follows := fun _ _ _ _ => False

/-- The resource is looked at under the URL of the first call. -/
def looks (r : Resource) : Follows :=
  fun _ _ url other => other = Lifecycle.call r .get url r.get none

/-- The resource is looked at under the identifier that the answer to the first call has. -/
def looksAtCreated (r : Resource) (c : Client) (planned : Members) : Follows :=
  fun turns ids url other => ∃ turn ∈ turns, ∃ a object id place,
    turn.call? = some ((Opening.create r planned).call url) ∧ turn.answer? = some a ∧
    a.object? = some object ∧ Payload.identifier? r.record object = some id ∧
    instanceUrl r c ids id = .ok place ∧ other = Lifecycle.call r .get place r.get none

end Follows

section Operations

variable {c : Client}

/-- An operation fails before its first call, or has the URL for it. -/
theorem Opening.opens (o : Opening) {follows : Follows} {α : Type} {P : α → List Turn → Prop}
    {url : List String → Except Error String} {f : List String → String → Run α}
    (permitted : o.permitted = true)
    (hurl : ∀ ids place, url ids = .ok place →
      c.url o.name o.host o.template (ids ++ o.own.toList) = .ok place)
    (hf : ∀ ids place, o.Starts c ids place → Speaks c (f ids place) (Opens c o follows P)) :
    Speaks c (do
      let ids ← parentIds o.attributes o.parents
      let place ← url ids
      f ids place) (Opens c o follows P) := by
  refine .lift_bind (fun ids hids => ?_) fun e _ => .unsent rfl
  refine .lift_bind (fun place hplace => ?_) fun e _ => .unsent rfl
  exact hf ids place ⟨permitted, hids, hurl ids place hplace⟩

def Reported (remote : Option Members) (turns : List Turn) : Prop :=
  ∃ call, Reports call turns remote

theorem created_opens (r : Resource) (planned : Members) :
    Speaks c (created r c planned)
      (Opens c (.create r planned) (.looksAtCreated r c planned) fun made turns =>
        Reported made.2 turns) := by
  have hurl (ids : List String) (place : String) (h : rootUrl r c ids = .ok place) :
      c.url r.name r.host r.root (ids ++ []) = .ok place := by rwa [List.append_nil]
  refine (Opening.create r planned).opens rfl hurl fun ids url hstarts => ?_
  refine .bind (request_speaks _ _ _ _) (fun answer turns h => ?_) fun e turns h =>
    .of_error hstarts h
  split
  · exact .throw (.alone hstarts h (by simp))
  · next id hid =>
    obtain ⟨object, hobject, hid⟩ := Option.bind_eq_some_iff.1 hid
    refine .quiet_bind (quiet_say _ _) fun _ => ?_
    split
    · refine .pure (.alone hstarts h fun made hmade hanswer => ?_)
      cases hmade
      rw [hobject]
      exact ⟨_, .found hanswer.1 hanswer.2 hobject⟩
    · refine .lift_bind (fun place hplace => ?_) fun e _ => .alone hstarts h (by simp)
      have hlooks (more : List Turn)
          (hmore : ∀ other ∈ calls more, other = call r .get place r.get none) :
          ∀ other ∈ calls more,
            EndsWith ((Opening.create r planned).call url) answer turns ∧
              Answer.isAccepted answer.status = true →
            Follows.looksAtCreated r c planned (turns ++ more) ids url other := by
        intro other hother hanswer
        obtain ⟨turn, hturn, hcall, hanswered⟩ := hanswer.1.mem
        exact ⟨turn, List.mem_append_left _ hturn, answer, object, id, place, hcall, hanswered,
          hobject, hid, hplace, hmore other hother⟩
      refine .bind (settle_speaks _ _ _) (fun remote more hmore => .pure ?_) fun e more hmore => ?_
      · rw [List.append_nil]
        refine .of_ok hstarts h (hlooks more hmore.1) fun made hmade _ => ?_
        cases hmade
        exact ⟨_, (hmore.2 _ rfl).append turns⟩
      · exact .of_ok hstarts h (hlooks more hmore.1) (by simp)

theorem create_opens (r : Resource) (planned : Members) :
    Speaks c (create r c planned)
      (Opens c (.create r planned) (.looksAtCreated r c planned) fun s turns =>
        ∃ remote, s = toState r s.id remote planned ∧ Reported remote turns) := by
  refine .bind (created_opens r planned) (fun made turns h => .pure (h.ok fun s hs hmade => ?_))
    fun e turns h => h.error
  cases hs
  exact ⟨made.2, rfl, hmade⟩

theorem read_opens (r : Resource) (current : ResourceState) :
    Speaks c (read r c current) (Opens c (.read r current) .nothing fun _ _ => True) := by
  have hcurrent : Speaks c (current? r c current)
      (Opens c (.read r current) .nothing fun _ _ => True) := by
    refine (Opening.read r current).opens rfl (fun _ _ h => h) fun ids url hstarts => ?_
    refine (fetch_speaks url).weaken fun result turns h => ?_
    cases result with
    | ok remote =>
      rw [← List.append_nil turns]
      exact .alone hstarts h (by simp)
    | error e => exact .of_error hstarts h
  refine .bind hcurrent (fun found turns h => ?_) fun e turns h => h.error
  split
  · exact .pure (h.ok (by simp))
  · exact .quiet_bind (quiet_say _ _) fun _ => .pure (h.ok (by simp))

theorem updated_opens (r : Resource) (prior : ResourceState) (planned : Members) :
    Speaks c (updated r c prior planned)
      (Opens c (.update r prior planned) (.looks r) Reported) := by
  unfold updated
  split
  · exact .throw (.unsent rfl)
  · next put hput =>
    refine .lift_bind (fun _ himmutable => ?_) fun e _ => .unsent rfl
    have hpermitted : (Opening.update r prior planned).permitted = true := by
      obtain ⟨-, hall⟩ | ⟨-, f, -, -, herror⟩ :=
        checkImmutable_cases r.record prior.attributes planned
      · simp [Opening.update, Opening.atResource, hput, hall]
      · rw [herror] at himmutable
        cases himmutable
    refine (Opening.update r prior planned).opens hpermitted (fun _ _ h => h)
      fun ids url hstarts => ?_
    have hcall : (Opening.update r prior planned).call url =
        call r .put url put (some (Payload.ofState r.record planned)) := by
      simp [Opening.update, Opening.atResource, Opening.call, hput, call]
    refine .bind (request_speaks _ _ _ _) (fun answer turns h => ?_) fun e turns h =>
      .of_error hstarts (hcall ▸ h)
    rw [← hcall] at h
    split
    · refine (settle_speaks _ _ _).weaken fun result more hmore => ?_
      exact .of_ok hstarts h (fun other hother _ => hmore.1 other hother) fun remote hremote _ =>
        ⟨_, (hmore.2 remote hremote).append turns⟩
    · next object _ hobject =>
      refine .pure (.alone hstarts h fun remote hremote hanswer => ?_)
      cases hremote
      exact ⟨_, .found hanswer.1 hanswer.2 hobject⟩
    · refine (fetch_speaks url).weaken fun result more hmore => ?_
      refine .of_ok hstarts h (fun other hother _ => hmore.calls_eq other hother) ?_
      rintro remote rfl _
      cases hmore with
      | sent _ _ answer => exact ⟨_, (answer remote rfl).append turns⟩

theorem update_opens (r : Resource) (prior : ResourceState) (planned : Members) :
    Speaks c (update r c prior planned)
      (Opens c (.update r prior planned) (.looks r) fun s turns =>
        ∃ remote, s = toState r prior.id remote planned ∧ Reported remote turns) := by
  refine .bind (updated_opens r prior planned)
    (fun remote turns h => .pure (h.ok fun s hs hremote => ?_)) fun e turns h => h.error
  cases hs
  exact ⟨remote, rfl, hremote⟩

theorem delete_opens (r : Resource) (current : ResourceState) :
    Speaks c (delete r c current)
      (Opens c (.delete r current) (.looks r) fun _ _ => True) := by
  unfold Lifecycle.delete
  split
  · exact .throw (.unsent rfl)
  · next operation hdelete =>
    have hpermitted : (Opening.delete r current).permitted = true := by
      simp [Opening.delete, Opening.atResource, hdelete]
    refine (Opening.delete r current).opens hpermitted (fun _ _ h => h) fun ids url hstarts => ?_
    have hcall : (Opening.delete r current).call url = call r .delete url operation none := by
      simp [Opening.delete, Opening.atResource, Opening.call, hdelete, call]
    refine .bind (send_speaks _) (fun answer turns h => ?_) fun e turns h =>
      .of_error hstarts (hcall ▸ h)
    rw [← hcall] at h
    split
    · exact .quiet_bind (quiet_say _ _) fun _ => .pure (.alone hstarts h (by simp))
    · refine .lift_bind (fun answer _ => ?_) fun e _ => .alone hstarts h (by simp)
      dsimp only
      split
      · exact .quiet_bind (quiet_say _ _) fun _ => .pure (.alone hstarts h (by simp))
      · refine .bind (poll_speaks _ _ _) (fun _ more hmore => ?_) fun e more hmore => ?_
        · refine .quiet_bind (quiet_say _ _) fun _ => .pure ?_
          rw [List.append_nil]
          exact .of_ok hstarts h (fun other hother _ => hmore other hother) (by simp)
        · exact .of_ok hstarts h (fun other hother _ => hmore other hother) (by simp)

theorem readById_opens (r : Resource) (config : Members) :
    Speaks c (readById r c config) (Opens c (.readById r config) .nothing fun _ _ => True) := by
  unfold Lifecycle.readById
  split
  · exact .throw (.unsent rfl)
  · next id hid =>
    have hpermitted : (Opening.readById r config).permitted = true := by
      simp [Opening.readById, hid]
    have hown : (Opening.readById r config).own = some id := hid
    have hurl (ids : List String) (place : String) (h : instanceUrl r c ids id = .ok place) :
        c.url r.name r.host r.instancePath
          (ids ++ (Opening.readById r config).own.toList) = .ok place := by rwa [hown]
    refine (Opening.readById r config).opens hpermitted hurl fun ids url hstarts => ?_
    refine .bind (fetch_speaks url) (fun found turns h => ?_) fun e turns h => .of_error hstarts h
    split
    · exact .throw (.alone hstarts h (by simp))
    · exact .pure (.alone hstarts h (by simp))

theorem select_opens (d : DataSource) (config : Members) :
    Speaks c (select d c config) (Opens c (.select d config) .nothing fun _ _ => True) := by
  refine .lift_bind (fun filters _ => ?_) fun e _ => .unsent rfl
  have hurl (ids : List String) (place : String) (h : c.url d.name d.host d.path ids = .ok place) :
      c.url d.name d.host d.path (ids ++ []) = .ok place := by rwa [List.append_nil]
  refine (Opening.select d config).opens rfl hurl fun ids url hstarts => ?_
  refine .bind (send_speaks _) (fun answer turns h => ?_) fun e turns h => .of_error hstarts h
  have hdone {result : Except Error ResourceState} :
      Opens c (.select d config) .nothing (fun _ _ => True) result (turns ++ []) :=
    .alone hstarts h (by simp)
  refine .lift_bind (fun answer _ => ?_) fun e _ => hdone
  split
  · exact .throw hdone
  · refine .lift_bind (fun item _ => .quiet_bind (quiet_say _ _) fun _ => ?_) fun e _ => hdone
    split
    · exact .throw hdone
    · exact .pure hdone

end Operations

/-- A change is sent at most once and first, and after it only GETs of the resource; a read sends
one GET at most. Where a parent is missing, an immutable field changes, the path asks for another
number of identifiers, or the first call lacks credentials or a header, the operation fails without
a call. Over every transport the API gets the change first, and it gets just that, as long as no
response is a redirect that the transport follows. -/
theorem changes_sent_once_and_first (T : Transport) (r : Resource) (c : Client) :
    (∀ planned, Speaks c (create r c planned)
      (Converses T c (.create r planned) (.looksAtCreated r c planned))) ∧
    (∀ prior planned, Speaks c (update r c prior planned)
      (Converses T c (.update r prior planned) (.looks r))) ∧
    (∀ current, Speaks c (delete r c current) (Converses T c (.delete r current) (.looks r))) ∧
    (∀ current, Speaks c (read r c current) (Converses T c (.read r current) .nothing)) ∧
    (∀ config, Speaks c (readById r c config) (Converses T c (.readById r config) .nothing)) ∧
    (∀ d config, Speaks c (select d c config) (Converses T c (.select d config) .nothing)) :=
  ⟨fun planned => converses_of_opens (create_opens r planned),
    fun prior planned => converses_of_opens (update_opens r prior planned),
    fun current => converses_of_opens (delete_opens r current),
    fun current => converses_of_opens (read_opens r current),
    fun config => converses_of_opens (readById_opens r config),
    fun d config => converses_of_opens (select_opens d config)⟩

def bareReply (status : Nat) : Http.Reply := ⟨.response ⟨status, [], some []⟩, ⟨0⟩⟩

theorem length_calls {c : Client} {t done : Timeline} {turns : List Turn}
    (h : Heard c t turns done) (hnone : c.schemes.definitions = []) :
    (calls turns).length = turns.length := by
  refine List.filterMap_length_eq_length.2 fun turn hturn => ?_
  have hfits := h.fits turn hturn
  unfold Turn.Fits at hfits
  cases hcall : turn.call? with
  | some call => rfl
  | none =>
    rw [hcall] at hfits
    obtain ⟨choice, header, url, hchoice, -⟩ := hfits
    obtain ⟨name, hknown⟩ := hchoice.known
    rw [hnone] at hknown
    cases hknown

/-- A firewall is updated, and looked at because the answer has no body; over a transport that
follows redirects the API gets a PUT and then GETs. Without its CDN it is not even tried to create
one. -/
theorem changes_sent_once_and_first_firewall :
    (∃ turns url, Heard firewallClient (.ofReplies [bareReply 204, firewallReply]) turns
        ((update firewall firewallClient firewallState firewallPlan).run
          (.ofReplies [bareReply 204, firewallReply])).2 ∧
      calls turns = [(Opening.update firewall firewallState firewallPlan).call url,
        call firewall .get url firewall.get none] ∧
      Transport.following.Wired turns turns ∧
      ∃ first more, asked turns = first :: more ∧ first.method = .put ∧
        ∀ request ∈ more, request.method = .get) ∧
    ∃ turns e, Heard firewallClient firewallTimeline turns
        ((create firewall firewallClient []).run firewallTimeline).2 ∧
      calls turns = [] ∧
      ((create firewall firewallClient []).run firewallTimeline).1 = .error e := by
  obtain ⟨hcreate, hupdate, -⟩ :=
    changes_sent_once_and_first .following firewall firewallClient
  constructor
  · have hsent : ((update firewall firewallClient firewallState firewallPlan).run
        (.ofReplies [bareReply 204, firewallReply])).2.sent.length = 2 := by decide +kernel
    obtain ⟨turns, hheard, hconverses⟩ := hupdate firewallState firewallPlan
      (.ofReplies [bareReply 204, firewallReply])
    have hlength : (calls turns).length = 2 := by
      rw [hheard.sent, List.length_append, List.length_map] at hsent
      rw [length_calls hheard rfl]
      exact (Nat.zero_add _).symm.trans hsent
    have hdirect : Transport.following.Direct turns := by
      refine Transport.direct_of_heard hheard (List.forall_mem_cons.2 ⟨fun r hr => ?_,
        List.forall_mem_singleton.2 fun r hr => ?_⟩)
      · cases hr
        rfl
      · cases hr
        rfl
    have hwired := Transport.Wired.of_direct hdirect
    obtain hnone | ⟨ids, url, more, -, hfirst, hmore⟩ := hconverses.once
    · simp [hnone] at hlength
    rcases hconverses.wire turns hwired hdirect with
      hnone | ⟨_, _, first, later, -, hasked, hput, hget⟩
    · simp [asked_eq_nil.1 hnone] at hlength
    · rw [hfirst, List.length_cons] at hlength
      obtain ⟨other, rfl⟩ := List.length_eq_one_iff.1 (Nat.succ.inj hlength)
      rw [hmore other List.mem_cons_self] at hfirst
      refine ⟨turns, url, hheard, hfirst, hwired, first, later, hasked, hput.method, ?_⟩
      intro request hrequest
      obtain ⟨other, hasks, rfl⟩ := hget request hrequest
      exact hasks.method
  · obtain ⟨turns, hheard, hconverses⟩ := hcreate [] firewallTimeline
    obtain ⟨⟨hnone, e, herror⟩, -⟩ := hconverses.blocked
      (.parent ⟨"cdns", "/cdns", "/cdns/{id}"⟩ List.mem_cons_self rfl)
    exact ⟨turns, e, hheard, hnone, herror⟩

end SwaggerProvider.Lifecycle
