import SwaggerProvider.Proofs.Json.Same
import SwaggerProvider.Proofs.Lifecycle.Refresh
import SwaggerProvider.Proofs.Lifecycle.Runs

/-!
Which changes an update refuses. An immutable field of the resource itself may not change, nor may
anything inside it; the marks of fields further down do not count.
-/

set_option autoImplicit false

namespace SwaggerProvider.Lifecycle

open Http (Timeline)
open Json (MaySame)

def changes (prior planned : Members) (f : Traits) : Bool :=
  f.immutable && !sameGiven (given prior f.hostName) (given planned f.hostName)

/-- No immutable field of a record itself changes. -/
def unchanged (record : Record) (prior planned : Members) : Bool :=
  record.all fun f => !changes prior planned f.toTraits

section Check

variable (record : Record) (prior planned : Members)

theorem checkImmutable_eq :
    checkImmutable record prior planned =
      ((record.map Field.toTraits).find? (changes prior planned)).elim (.ok ()) fun f =>
        .error (.runtimeConfig (.immutableProperty f.hostName)) := by
  have hfind : (record.find? fun f => f.immutable &&
        !sameGiven (given prior f.hostName) (given planned f.hostName)) =
      record.find? (changes prior planned ∘ Field.toTraits) := rfl
  rw [checkImmutable, hfind, List.find?_map]
  cases record.find? (changes prior planned ∘ Field.toTraits) <;> rfl

theorem checkImmutable_cases :
    (checkImmutable record prior planned = .ok () ∧ unchanged record prior planned = true) ∨
      (unchanged record prior planned = false ∧ ∃ f ∈ record, f.immutable = true ∧
        checkImmutable record prior planned =
          .error (.runtimeConfig (.immutableProperty f.hostName))) := by
  rw [checkImmutable_eq, List.find?_map]
  cases hfind : record.find? (changes prior planned ∘ Field.toTraits) with
  | none =>
    have hnone := List.find?_eq_none.1 hfind
    exact .inl ⟨rfl, List.all_eq_true.2 fun f hf => by simpa using hnone f hf⟩
  | some f =>
    have hf := List.mem_of_find?_eq_some hfind
    have hchanges := List.find?_some (p := changes prior planned ∘ Field.toTraits) hfind
    have hmark : f.immutable = true := (Bool.and_eq_true_iff.1 hchanges).1
    refine .inr ⟨?_, f, hf, hmark, rfl⟩
    exact List.all_eq_false.2 ⟨f, hf, by simpa using hchanges⟩

end Check

/-- What is given inside a value, at the end of the host names of the records that lead to it. -/
def givenBelow : Option Json → List String → Option Json
  | value, [] => value
  | value, name :: rest => givenBelow (value.bind fun v => v.members?.bind (given · name)) rest

theorem sameGiven_iff {a b : Option Json} : sameGiven a b = true ↔ MaySame a b := by
  cases a <;> cases b <;> simp [sameGiven]

theorem given_of_same {a b : Members} (hdistinct : a.keys.Nodup)
    (h : Json.same (.object a) (.object b) = true) (name : String) :
    MaySame (given a name) (given b name) := by
  have hget := Json.get?_of_same hdistinct h name
  unfold given
  cases ha : a.get? name <;> cases hb : b.get? name <;> rw [ha, hb] at hget <;> cases hget
  · exact .none
  · next x y hsame =>
    simp only [Option.filter_some, Json.isNull_of_same hsame]
    split
    · exact .some hsame
    · exact .none

theorem givenIn_of_same {a b : Json} (hdistinct : a.distinct = true) (h : a.same b = true)
    (name : String) :
    MaySame (a.members?.bind (given · name)) (b.members?.bind (given · name)) := by
  cases a with
  | object members =>
    cases b with
    | object others => exact given_of_same (Json.distinct_object hdistinct).1 h name
    | _ => cases h
  | _ =>
    cases b with
    | object others => cases h
    | _ => exact .none

theorem distinct_givenIn {a value : Json} (hdistinct : a.distinct = true) {name : String}
    (h : a.members?.bind (given · name) = some value) : value.distinct = true := by
  cases a with
  | object members =>
    exact (Json.distinct_object hdistinct).2 name value (Option.filter_eq_some_iff.1 h).1
  | _ => cases h

theorem givenBelow_of_same {a b : Option Json} (names : List String)
    (hdistinct : ∀ value, a = some value → value.distinct = true) (h : MaySame a b) :
    MaySame (givenBelow a names) (givenBelow b names) := by
  induction names generalizing a b with
  | nil => exact h
  | cons name rest ih =>
    unfold givenBelow
    cases h with
    | none => exact ih (by simp) .none
    | some hsame =>
      have hinside := hdistinct _ rfl
      exact ih (fun value hvalue => distinct_givenIn hinside hvalue)
        (givenIn_of_same hinside hsame name)

/-- An update that gives an immutable field of the resource another value, or another value
somewhere inside such a field, is refused before anything is sent or said. -/
theorem immutable_change_refused {r : Resource} {prior : ResourceState} {planned : Members}
    (hput : r.isUpdatable = true) (hdistinct : (Json.object prior.attributes).distinct = true)
    {f : Field} (hf : f ∈ r.record) (himmutable : f.immutable = true) (names : List String)
    (hchanged : sameGiven (givenBelow (given prior.attributes f.hostName) names)
      (givenBelow (given planned f.hostName) names) = false) (c : Client) (t : Timeline) :
    ∃ g ∈ r.record, g.immutable = true ∧ (update r c prior planned).run t =
      (.error (.runtimeConfig (.immutableProperty g.hostName)), t) := by
  have hvalue : ∀ value, given prior.attributes f.hostName = some value →
      value.distinct = true :=
    fun value h => (Json.distinct_object hdistinct).2 _ value (Option.filter_eq_some_iff.1 h).1
  have htop : sameGiven (given prior.attributes f.hostName) (given planned f.hostName) = false := by
    rw [← Bool.not_eq_true]
    intro hsame
    have hbelow := sameGiven_iff.2 (givenBelow_of_same names hvalue (sameGiven_iff.1 hsame))
    rw [hchanged] at hbelow
    cases hbelow
  have hchanges : changes prior.attributes planned f.toTraits = true :=
    Bool.and_eq_true_iff.2 ⟨himmutable, congrArg not htop⟩
  have hrefused : ¬ unchanged r.record prior.attributes planned = true := by
    intro hall
    simpa [hchanges] using List.all_eq_true.1 hall f hf
  obtain ⟨-, hall⟩ | ⟨-, g, hg, hmark, herror⟩ :=
    checkImmutable_cases r.record prior.attributes planned
  · exact absurd hall hrefused
  refine ⟨g, hg, hmark, ?_⟩
  obtain ⟨put, hput⟩ := Option.isSome_iff_exists.1 hput
  have hupdated : (updated r c prior planned).run t =
      (.error (.runtimeConfig (.immutableProperty g.hostName)), t) := by
    unfold updated
    rw [hput]
    exact Http.Run.run_lift_error herror
  change (updated r c prior planned >>= _).run t = _
  rw [Http.Run.run_bind, hupdated]

def zoneField : Field := { firewallField "zone" false (.scalar .string) with immutable := true }

def settingsField : Field := firewallField "settings" false (.record [zoneField])

def zonedFirewall (settings : Field) : Resource :=
  { firewall with record := [firewallField "id" false (.scalar .string), settings] }

def zoneState (zone : String) : ResourceState where
  id := "7"
  attributes := [("settings", .object [("zone", .string zone)]), ("cdns_id", .string "1")]

/-- The settings are immutable as a whole. -/
theorem immutable_change_refused_zone :
    (update (zonedFirewall { settingsField with immutable := true }) firewallClient (zoneState "a")
        (zoneState "b").attributes).run firewallTimeline =
      (.error (.runtimeConfig (.immutableProperty "settings")), firewallTimeline) := by
  have hsettings : { settingsField with immutable := true } ∈
      (zonedFirewall { settingsField with immutable := true }).record :=
    List.mem_cons_of_mem _ List.mem_cons_self
  have hdistinct : (Json.object (zoneState "a").attributes).distinct = true := by decide +kernel
  have hchanged : sameGiven
      (givenBelow (given (zoneState "a").attributes
        { settingsField with immutable := true }.hostName) ["zone"])
      (givenBelow (given (zoneState "b").attributes
        { settingsField with immutable := true }.hostName) ["zone"]) = false := by decide +kernel
  obtain ⟨g, hg, hmark, hrun⟩ := immutable_change_refused rfl hdistinct hsettings rfl ["zone"]
    hchanged firewallClient firewallTimeline
  obtain rfl : g = { settingsField with immutable := true } := by
    rcases List.mem_cons.1 hg with rfl | hg
    · cases hmark
    · exact List.mem_singleton.1 hg
  exact hrun

/-- The settings are not immutable themselves, so the firewall goes to another zone. -/
theorem immutable_change_refused_nested :
    (zonedFirewall settingsField).isUpdatable = true ∧
      settingsField ∈ (zonedFirewall settingsField).record ∧
      settingsField.kind = .record [zoneField] ∧ zoneField.immutable = true ∧
      sameGiven (givenBelow (given (zoneState "a").attributes settingsField.hostName) ["zone"])
        (givenBelow (given (zoneState "b").attributes settingsField.hostName) ["zone"]) = false ∧
      ∃ done, (update (zonedFirewall settingsField) firewallClient (zoneState "a")
          (zoneState "b").attributes).run firewallTimeline = (.ok (zoneState "b"), done) ∧
        done.sent.map (fun request => request.method) = [.put] := by
  refine ⟨rfl, List.mem_cons_of_mem _ List.mem_cons_self, rfl, rfl, by decide +kernel, _,
    Http.Run.run_eq ?_, ?_⟩
  · decide +kernel
  · decide +kernel

end SwaggerProvider.Lifecycle
