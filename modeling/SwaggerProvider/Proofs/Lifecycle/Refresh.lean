import Mathlib.Control.Monad.Basic
import SwaggerProvider.Lifecycle
import SwaggerProvider.Proofs.Payload.Refresh

/-!
Refreshing a resource. A state that an answer of the API has made is not changed by any number of
reads that get the same answer, be it the state after a create, an update or a read.
-/

set_option autoImplicit false

namespace SwaggerProvider

/-- The same identifier, and attributes that agree at every depth. -/
def ResourceState.Agrees (a b : ResourceState) : Prop :=
  a.id = b.id ∧ (Json.object a.attributes).Agrees (.object b.attributes)

theorem ResourceState.Agrees.refl (a : ResourceState) : a.Agrees a := ⟨rfl, .refl _⟩

theorem ResourceState.Agrees.trans {a b c : ResourceState} (hab : a.Agrees b) (hbc : b.Agrees c) :
    a.Agrees c :=
  ⟨hab.1.trans hbc.1, hab.2.trans hbc.2⟩

namespace Lifecycle

open Http (Timeline)
open Json (MayAgree)
open Payload (shown? shown?_stable)

theorem get?_keepParents (parents : List Parent) (source attributes : Members) (key : String) :
    (keepParents parents source attributes).get? key =
      if key ∈ parents.map Parent.attribute then (source.get? key).or (attributes.get? key)
      else attributes.get? key := by
  induction parents generalizing attributes with
  | nil => rfl
  | cons p rest ih =>
    have hfirst : keepParents (p :: rest) source attributes =
        keepParents rest source (keepParents [p] source attributes) := rfl
    rw [hfirst, ih]
    by_cases hk : p.attribute = key
    · subst hk
      cases hs : source.get? p.attribute with
      | none => simp [keepParents, hs]
      | some value => simp [keepParents, hs]
    · have hmem : key ∈ (p :: rest).map Parent.attribute ↔ key ∈ rest.map Parent.attribute := by
        simp [Ne.symm hk]
      simp only [hmem]
      have hkept : (keepParents [p] source attributes).get? key = attributes.get? key := by
        cases hs : source.get? p.attribute with
        | none => simp [keepParents, hs]
        | some value => simp [keepParents, hs, Table.get?_insert_of_ne _ _ (Ne.symm hk)]
      rw [hkept]

def shownFields (r : Resource) : List Field := r.record.filter fun f => f.hostName != Record.idName

theorem get?_toState (r : Resource) (id : String) (remote : Option Members) (prior : Members)
    (key : String) :
    (toState r id remote prior).attributes.get? key =
      if key ∈ r.parents.map Parent.attribute then
        (prior.get? key).or (shown? (remote.getD []) key (shownFields r) (prior.get? key))
      else shown? (remote.getD []) key (shownFields r) (prior.get? key) := by
  rw [← Payload.get?_stateOf]
  exact get?_keepParents r.parents prior _ key

theorem toState_agrees (r : Resource) (id : String) (remote : Option Members) (prior : Members) :
    (toState r id remote (toState r id remote prior).attributes).Agrees
      (toState r id remote prior) := by
  refine ⟨rfl, Json.agrees_object fun key => ?_⟩
  have hstable : MayAgree
      (shown? (remote.getD []) key (shownFields r)
        (shown? (remote.getD []) key (shownFields r) (prior.get? key)))
      (shown? (remote.getD []) key (shownFields r) (prior.get? key)) :=
    shown?_stable (fun f _ => Payload.stable f) (prior.get? key)
  rw [get?_toState, get?_toState]
  by_cases hk : key ∈ r.parents.map Parent.attribute
  · simp only [if_pos hk]
    cases hp : prior.get? key with
    | some value => exact .refl _
    | none =>
      rw [hp] at hstable
      rw [Option.none_or]
      cases hs : shown? (remote.getD []) key (shownFields r) none with
      | some value => exact .refl _
      | none => rwa [hs] at hstable
  · simp only [if_neg hk]
    exact hstable

/-- What reads make of a state, each of which finds the resource at the API to be `remote`. Between
two of them any time may pass, and the client may be another one. -/
inductive Reads (r : Resource) (remote : Members) (s : ResourceState) : ResourceState → Prop where
  | none : Reads r remote s s
  | next {before after : ResourceState} {c : Client} {t found done : Timeline}
      (more : Reads r remote s before)
      (same : (current? r c before).run t = (.ok (some remote), found))
      (read : (read r c before).run t = (.ok (some after), done)) : Reads r remote s after

theorem read_of_current? {r : Resource} {c : Client} {s : ResourceState} {t found : Timeline}
    {remote : Members} (h : (current? r c s).run t = (.ok (some remote), found)) :
    (read r c s).run t = (.ok (some (toState r s.id (some remote) s.attributes)), found) := by
  change (current? r c s >>= _).run t = _
  rw [Http.Run.run_bind, h]
  rfl

/-- A run of reads that get one answer stays with what that answer made. -/
theorem Reads.agrees {r : Resource} {id : String} {remote prior : Members} {s : ResourceState}
    (h : Reads r remote (toState r id (some remote) prior) s) :
    s.Agrees (toState r id (some remote) prior) := by
  suffices hs : (∃ before, s = toState r id (some remote) before) ∧
      s.Agrees (toState r id (some remote) prior) from hs.2
  induction h with
  | none => exact ⟨⟨prior, rfl⟩, .refl _⟩
  | next _ same read ih =>
    obtain ⟨⟨before, rfl⟩, hagrees⟩ := ih
    rw [read_of_current? same] at read
    cases read
    exact ⟨⟨_, rfl⟩, (toState_agrees r id (some remote) before).trans hagrees⟩

/-- Refreshing is idempotent: the answer that made a state makes the same attributes of it again, at
every depth, and so a create or an update followed by any number of reads that get the same answer
leaves the state as it was. -/
theorem refresh_idempotent (r : Resource) :
    (∀ (id : String) (remote : Option Members) (prior : Members),
      (toState r id remote (toState r id remote prior).attributes).Agrees
        (toState r id remote prior)) ∧
    (∀ (c : Client) (planned : Members) (t done : Timeline) (id : String) (remote : Members),
      (created r c planned).run t = (.ok (id, some remote), done) →
      ∃ s, (create r c planned).run t = (.ok s, done) ∧
        ∀ after, Reads r remote s after → after.Agrees s) ∧
    (∀ (c : Client) (prior : ResourceState) (planned : Members) (t done : Timeline)
      (remote : Members), (updated r c prior planned).run t = (.ok (some remote), done) →
      ∃ s, (update r c prior planned).run t = (.ok s, done) ∧
        ∀ after, Reads r remote s after → after.Agrees s) := by
  refine ⟨toState_agrees r, ?_, ?_⟩
  · intro c planned t done id remote h
    refine ⟨toState r id (some remote) planned, ?_, fun after hreads => hreads.agrees⟩
    change (created r c planned >>= _).run t = _
    rw [Http.Run.run_bind, h]
    rfl
  · intro c prior planned t done remote h
    refine ⟨toState r prior.id (some remote) planned, ?_, fun after hreads => hreads.agrees⟩
    change (updated r c prior planned >>= _).run t = _
    rw [Http.Run.run_bind, h]
    rfl

def firewallField (name : String) (anyOrder : Bool) (kind : Kind Field) : Field where
  name := name
  preferred := none
  required := false
  readOnly := false
  computed := false
  forceNew := false
  immutable := false
  sensitive := false
  identifier := false
  status := false
  anyOrder := anyOrder
  default := none
  description := none
  kind := kind

def firewall : Resource where
  name := "cdns_firewalls"
  root := "/cdns/{id}/firewalls"
  instancePath := "/cdns/{id}/firewalls/{firewall}"
  record := [
    firewallField "id" false (.scalar .string), firewallField "Name" false (.scalar .string),
    firewallField "name" false (.scalar .string), firewallField "ports" true (.scalars .integer)]
  post := .empty
  get := .empty
  put := some .empty
  delete := none
  host := .global
  parents := [⟨"cdns", "/cdns", "/cdns/{id}"⟩]
  excluded := false

def firewallClient : Client where
  backend := ⟨"api.example.com", "", ["http"], none⟩
  schemes := .empty
  config := .empty
  settings := .standard

def firewallText : String := "\x7b\"id\":\"7\",\"Name\":\"a\",\"ports\":[80,443]\x7d"

def firewallReply : Http.Reply :=
  ⟨.response ⟨200, [], some (firewallText.toList.map fun c => c.toNat.toUInt8)⟩, ⟨0⟩⟩

def firewallTimeline : Timeline := .ofReplies [firewallReply, firewallReply]

def firewallPlan : Members :=
  [("cdns_id", .string "1"), ("ports", .array [.ofInt 443, .ofInt 80])]

def firewallRemote : Members :=
  [("id", .string "7"), ("Name", .string "a"), ("ports", .array [.ofInt 80, .ofInt 443])]

def firewallState : ResourceState where
  id := "7"
  attributes := [("name", .string "a"), ("ports", .array [.ofInt 443, .ofInt 80]),
    ("cdns_id", .string "1")]

/-- The firewall is created and read once, with the same answer. -/
theorem refresh_idempotent_firewall :
    ∃ after done found,
      (create firewall firewallClient firewallPlan).run firewallTimeline =
        (.ok firewallState, done) ∧
      (read firewall firewallClient firewallState).run done = (.ok (some after), found) ∧
      after.Agrees firewallState := by
  have hcreated : ((created firewall firewallClient firewallPlan).run firewallTimeline).1 =
      .ok ("7", some firewallRemote) := by decide +kernel
  have hstate : ((create firewall firewallClient firewallPlan).run firewallTimeline).1 =
      .ok firewallState := by decide +kernel
  have hsame : ((current? firewall firewallClient firewallState).run
      ((created firewall firewallClient firewallPlan).run firewallTimeline).2).1 =
      .ok (some firewallRemote) := by decide +kernel
  obtain ⟨s, hs, hreads⟩ := (refresh_idempotent firewall).2.1 firewallClient firewallPlan
    firewallTimeline _ "7" firewallRemote (Http.Run.run_eq hcreated)
  rw [hs] at hstate
  cases hstate
  have hread := read_of_current? (Http.Run.run_eq hsame)
  exact ⟨_, _, _, hs, hread, hreads _ (.next .none (Http.Run.run_eq hsame) hread)⟩

end Lifecycle

end SwaggerProvider
