import Mathlib.Data.List.Induction
import SwaggerProvider.Proofs.Json.Distinct
import SwaggerProvider.Proofs.Json.Reordered
import SwaggerProvider.Proofs.Payload.RoundTrip

/-!
Lists whose items may come in any order. Such a list stays as it was when the payload has the same
items as often, and else is the list of the payload. No object in it has a name twice when none in
the payload has, as is so of every payload that was read.
-/

set_option autoImplicit false

namespace SwaggerProvider.Payload

open Swagger (Schema)
open Json (Reordered Takes consumes occurrences)

theorem takes_takeItem? : Takes takeItem? where
  some {item items left} h := by
    induction items generalizing left with
    | nil => cases h
    | cons other rest ih =>
      rw [takeItem?] at h
      split at h
      · next hsame =>
        cases h
        exact ⟨other, hsame, .refl _⟩
      · obtain ⟨before, hbefore, rfl⟩ := Option.map_eq_some_iff.1 h
        obtain ⟨found, hsame, hperm⟩ := ih hbefore
        exact ⟨found, hsame, (hperm.cons other).trans (.swap ..)⟩
  none {item items} h := by
    induction items with
    | nil => exact List.forall_mem_nil _
    | cons other rest ih =>
      rw [takeItem?] at h
      split at h
      · cases h
      · next hother =>
        exact List.forall_mem_cons.2
          ⟨Bool.eq_false_iff.2 hother, ih (Option.map_eq_none_iff.1 h)⟩

theorem sameItems_eq_consumes (as bs : List Json) : sameItems as bs = consumes takeItem? as bs := by
  induction as generalizing bs with
  | nil => cases bs <;> rfl
  | cons item rest ih =>
    rw [sameItems, consumes]
    cases takeItem? item bs with
    | some left => exact ih left
    | none => rfl

theorem sameItems_iff_reordered {as bs : List Json} (ha : ∀ a ∈ as, a.distinct = true)
    (hb : ∀ b ∈ bs, b.distinct = true) : sameItems as bs = true ↔ Reordered as bs := by
  rw [sameItems_eq_consumes]
  exact takes_takeItem?.consumes_iff ha hb

/-- The items without the one at a place, to which the last one moves. -/
def swapRemove (items : List Json) (place : Nat) : List Json :=
  match items.getLast? with
  | some last => (items.set place last).dropLast
  | none => []

theorem swapRemove_perm {items : List Json} {place : Nat} (h : place < items.length) :
    items.Perm (items[place] :: swapRemove items place) := by
  induction items using List.reverseRecOn with
  | nil => exact absurd h (Nat.not_lt_zero _)
  | append_singleton front last _ =>
    have hsplit : (front ++ [last]).Perm (last :: front) := List.perm_append_singleton last front
    rw [List.length_append, List.length_singleton, Nat.lt_succ_iff] at h
    rw [swapRemove, List.getLast?_concat]
    dsimp only
    rcases Nat.lt_or_eq_of_le h with h | rfl
    · have hfront : (front[place] :: front.eraseIdx place).Perm front :=
        List.getElem_cons_eraseIdx_perm h
      have hset : (front.set place last).Perm (last :: front.eraseIdx place) :=
        List.set_perm_cons_eraseIdx h last
      rw [List.getElem_append_left h, List.set_append_left _ _ h, List.dropLast_concat]
      refine hsplit.trans ((hfront.symm.cons last).trans ?_)
      exact (List.Perm.swap _ _ _).trans (hset.symm.cons _)
    · rw [List.getElem_concat_length rfl, List.set_append_right _ _ (Nat.le_refl _), Nat.sub_self,
        List.set_cons_zero, List.dropLast_concat]
      exact hsplit

/-- Takes the first item that is the same out of a list that is kept in one piece. -/
def takeSwapping (item : Json) (items : List Json) : Option (List Json) :=
  (items.findIdx? fun other => item.same other).map (swapRemove items)

theorem takes_takeSwapping : Takes takeSwapping where
  some {item items left} h := by
    obtain ⟨place, hplace, rfl⟩ := Option.map_eq_some_iff.1 h
    obtain ⟨hlt, hsame, -⟩ := List.findIdx?_eq_some_iff_getElem.1 hplace
    exact ⟨items[place], hsame, swapRemove_perm hlt⟩
  none {item items} h := List.findIdx?_eq_none_iff.1 (Option.map_eq_none_iff.1 h)

/-- Every item is found among the others, less those that were found before. -/
def findsAll : List Json → List Json → Bool
  | [], _ => true
  | item :: rest, others =>
    match takeSwapping item others with
    | some left => findsAll rest left
    | none => false

theorem findsAll_eq_consumes {as bs : List Json} (h : as.length = bs.length) :
    findsAll as bs = consumes takeSwapping as bs := by
  induction as generalizing bs with
  | nil => rw [findsAll, consumes, List.eq_nil_of_length_eq_zero h.symm, List.isEmpty_nil]
  | cons item rest ih =>
    rw [findsAll, consumes]
    cases hleft : takeSwapping item bs with
    | some left =>
      obtain ⟨found, -, hperm⟩ := takes_takeSwapping.some hleft
      have hlength := h.trans hperm.length_eq
      exact ih (Nat.succ.inj hlength)
    | none => rfl

theorem sameItems_eq_findsAll {as bs : List Json} (ha : ∀ a ∈ as, a.distinct = true)
    (hb : ∀ b ∈ bs, b.distinct = true) :
    sameItems as bs = (as.length == bs.length && findsAll as bs) := by
  rw [Bool.eq_iff_iff, Bool.and_eq_true, beq_iff_eq, sameItems_iff_reordered ha hb]
  constructor
  · intro h
    have hlength := h.length_eq
    rw [findsAll_eq_consumes hlength, takes_takeSwapping.consumes_iff ha hb]
    exact ⟨hlength, h⟩
  · rintro ⟨hlength, h⟩
    rw [findsAll_eq_consumes hlength] at h
    exact takes_takeSwapping.reordered h

/-- The items of a list as the state shows them, each made anew from the payload. -/
def converted (f : Field) (items : List Json) : List Json :=
  match f.kind.fields? with
  | some fields => items.map (onObject fun payload => stateOf fields payload [])
  | none => items

theorem valueOfPayload_list {f : Field} (h : f.kind.isList = true) (items : List Json)
    (prior : Option Json) :
    valueOfPayload f (.array items) prior = keepOrder f.anyOrder prior (converted f items) := by
  obtain ⟨traits, kind⟩ := f
  cases kind with
  | scalar _ | record _ => cases h
  | scalars _ | records _ => rfl

def KeepsDistinct (f : Field) : Prop :=
  ∀ value prior, value.distinct = true → (∀ before, prior = some before → before.distinct = true) →
    (valueOfPayload f value prior).distinct = true

theorem distinct_stateOf {fields : List Field} (hfields : ∀ f ∈ fields, KeepsDistinct f)
    {payload prior : Members} (hpayload : (Json.object payload).distinct = true)
    (hprior : ∀ name value, prior.get? name = some value → value.distinct = true) :
    (Json.object (stateOf fields payload prior)).distinct = true := by
  refine Json.distinct_object_of (Table.nodup_keys_ofEntries _) fun name value hvalue => ?_
  rw [stateOf_eq_gather] at hvalue
  obtain ⟨f, hf, -, harrived⟩ := Table.exists_of_get?_gather hvalue
  unfold arrived? at harrived
  cases hsent : payload.get? f.name with
  | none =>
    rw [hsent] at harrived
    exact hprior _ _ harrived
  | some sent =>
    simp only [hsent] at harrived
    split at harrived
    · exact hprior _ _ harrived
    · cases harrived
      exact hfields f hf _ _ ((Json.distinct_object hpayload).2 _ _ hsent) (hprior _)

theorem distinct_converted {f : Field} {items : List Json}
    (hfields : ∀ fields, f.kind.fields? = some fields → ∀ g ∈ fields, KeepsDistinct g)
    (hitems : ∀ item ∈ items, item.distinct = true) :
    ∀ item ∈ converted f items, item.distinct = true := by
  unfold converted
  split
  · next fields hfound =>
    refine List.forall_mem_map.2 fun item hitem => ?_
    have hdistinct := hitems item hitem
    cases item with
    | object payload =>
      exact distinct_stateOf (hfields fields hfound) hdistinct fun _ _ h => nomatch h
    | _ => exact hdistinct
  · exact hitems

section

variable {prior : Option Json} (hprior : ∀ before, prior = some before → before.distinct = true)

include hprior

theorem distinct_keepOrder {anyOrder : Bool} {items : List Json}
    (hitems : ∀ item ∈ items, item.distinct = true) :
    (keepOrder anyOrder prior items).distinct = true := by
  unfold keepOrder
  split
  · split
    · exact hprior _ rfl
    · exact Json.distinct_array_of hitems
  · exact Json.distinct_array_of hitems

theorem distinct_list {f : Field} (hlist : f.kind.isList = true)
    (hfields : ∀ fields, f.kind.fields? = some fields → ∀ g ∈ fields, KeepsDistinct g)
    {items : List Json} (hitems : (Json.array items).distinct = true) :
    (valueOfPayload f (.array items) prior).distinct = true := by
  rw [valueOfPayload_list hlist]
  exact distinct_keepOrder hprior (distinct_converted hfields (Json.distinct_array hitems))

theorem distinct_member {name : String} {value : Json}
    (h : Table.get? ((prior.bind Json.members?).getD []) name = some value) :
    value.distinct = true := by
  cases prior with
  | none => cases h
  | some before =>
    cases before with
    | object members => exact (Json.distinct_object (hprior _ rfl)).2 name value h
    | _ => cases h

end

theorem keepsDistinct (f : Field) : KeepsDistinct f := by
  induction f using Field.induction with
  | scalar traits type =>
    intro value prior hvalue _
    cases value <;> exact hvalue
  | scalars traits type =>
    intro value prior hvalue hprior
    cases value with
    | array items =>
      refine distinct_list hprior rfl (fun below hbelow => ?_) hvalue
      cases hbelow
    | _ => exact hvalue
  | record traits fields ih =>
    intro value prior hvalue hprior
    cases value with
    | object payload => exact distinct_stateOf ih hvalue fun _ _ => distinct_member hprior
    | _ => exact hvalue
  | records traits fields ih =>
    intro value prior hvalue hprior
    cases value with
    | array items =>
      refine distinct_list hprior rfl (fun below hbelow => ?_) hvalue
      cases hbelow
      exact ih
    | _ => exact hvalue

theorem keepOrder_cases (prior : Option Json) (items : List Json) :
    (∃ before, prior = some (.array before) ∧ sameItems before items = true ∧
      keepOrder true prior items = .array before) ∨
    ((∀ before, prior = some (.array before) → sameItems before items ≠ true) ∧
      keepOrder true prior items = .array items) := by
  unfold keepOrder
  split
  · next before =>
    rw [Bool.true_and]
    split
    · next hsame => exact .inl ⟨before, rfl, hsame, rfl⟩
    · next hsame =>
      refine .inr ⟨fun other hother => ?_, rfl⟩
      cases hother
      exact hsame
  · next hprior => exact .inr ⟨fun before hbefore => absurd hbefore (hprior before), rfl⟩

/-- A list whose items may come in any order keeps what it had when that is what came in another
order, and takes what came else, so its items are always those that came, as often. -/
theorem list_kept_when_reordered :
    (∀ as bs : List Json, (∀ a ∈ as, a.distinct = true) → (∀ b ∈ bs, b.distinct = true) →
      (sameItems as bs = true ↔ Reordered as bs) ∧
      (Reordered as bs ↔ ∀ x : Json, x.distinct = true → occurrences x as = occurrences x bs) ∧
      sameItems as bs = (as.length == bs.length && findsAll as bs)) ∧
    ∀ (f : Field) (items : List Json) (prior : Option Json), f.kind.isList = true →
      f.anyOrder = true → (∀ item ∈ items, item.distinct = true) →
      (∀ before, prior = some before → before.distinct = true) →
      ∃ stored, valueOfPayload f (.array items) prior = .array stored ∧
        (∀ before, prior = some (.array before) → Reordered before (converted f items) →
          stored = before) ∧
        ((∀ before, prior = some (.array before) → ¬ Reordered before (converted f items)) →
          stored = converted f items) ∧
        Reordered stored (converted f items) := by
  constructor
  · intro as bs ha hb
    exact ⟨sameItems_iff_reordered ha hb, takes_takeItem?.reordered_iff_occurrences ha hb,
      sameItems_eq_findsAll ha hb⟩
  · intro f items prior hlist hany hitems hprior
    have hnew := distinct_converted (f := f) (fun _ _ g _ => keepsDistinct g) hitems
    have hold (before : List Json) (h : prior = some (.array before)) :
        ∀ b ∈ before, b.distinct = true :=
      Json.distinct_array (hprior _ h)
    rw [valueOfPayload_list hlist, hany]
    rcases keepOrder_cases prior (converted f items) with
      ⟨before, hbefore, hsame, hkept⟩ | ⟨hother, htaken⟩
    · have hreordered := (sameItems_iff_reordered (hold before hbefore) hnew).1 hsame
      refine ⟨before, hkept, fun other h _ => ?_, fun h => ?_, hreordered⟩
      · rw [hbefore] at h
        cases h
        rfl
      · exact absurd hreordered (h before hbefore)
    · refine ⟨converted f items, htaken, fun before h hreordered => ?_, fun _ => rfl, .refl hnew⟩
      have hsame := (sameItems_iff_reordered (hold before h) hnew).2 hreordered
      exact absurd hsame (hother before h)

def bag : Schema := { Schema.empty with
  properties := [("rules", { Schema.empty with
    type := some "array"
    items := some listenerRule
    extensions := [(Record.ignoreOrderKey, .bool true)] })] }

def bagRules : Field := ((Record.compile [] bag).toOption.getD []).head (by decide)

def rulesText : String := "[\x7b\"portNumber\":80,\"hitCount\":1\x7d,\x7b\"portNumber\":443\x7d," ++
  "\x7b\"hitCount\":1,\"portNumber\":80\x7d]"

def arrivedRules : List Json := [
  .object [("portNumber", .ofInt 80), ("hitCount", .ofInt 1)],
  .object [("portNumber", .ofInt 443)],
  .object [("hitCount", .ofInt 1), ("portNumber", .ofInt 80)]]

def storedRules : List Json := [
  .object [("hit_count", .ofInt 1), ("port_number", .ofInt 80)],
  .object [("hit_count", .ofInt 1), ("port_number", .ofInt 80)],
  .object [("port_number", .ofInt 443)]]

/-- A rule that is there twice and came twice; and the list that comes when it came once. -/
theorem list_kept_when_reordered_rules :
    Json.read rulesText = some (.array arrivedRules) ∧
    valueOfPayload bagRules (.array arrivedRules) (some (.array storedRules)) =
      .array storedRules ∧
    valueOfPayload bagRules (.array arrivedRules.tail) (some (.array storedRules)) =
      .array (converted bagRules arrivedRules.tail) := by
  obtain ⟨hsame, hvalue⟩ := list_kept_when_reordered
  have hread : Json.read rulesText = some (.array arrivedRules) := by decide +kernel
  have harrived : ∀ item ∈ arrivedRules, item.distinct = true :=
    Json.distinct_array (Json.distinct_of_read hread)
  have hstored : ∀ item ∈ storedRules, item.distinct = true := by decide
  have hprior (before : Json) (h : some (Json.array storedRules) = some before) :
      before.distinct = true := by
    cases h
    exact Json.distinct_array_of hstored
  have hrules (items : List Json) (hitems : ∀ item ∈ items, item.distinct = true) :=
    hvalue bagRules items (some (.array storedRules)) (by decide) (by decide) hitems hprior
  refine ⟨hread, ?_, ?_⟩
  · obtain ⟨stored, hstoredEq, hkept, -⟩ := hrules arrivedRules harrived
    rw [hstoredEq, hkept storedRules rfl]
    exact (hsame _ _ hstored (by decide +kernel)).1.1 (by decide +kernel)
  · obtain ⟨stored, hstoredEq, -, htaken, -⟩ :=
      hrules arrivedRules.tail fun item h => harrived item (List.mem_of_mem_tail h)
    rw [hstoredEq, htaken]
    intro before h hreordered
    cases h
    exact absurd hreordered.length_eq (by decide)

end SwaggerProvider.Payload
