import SwaggerProvider.Proofs.Lifecycle.FirstCall

/-!
What a create or an update reports when it succeeds. The state comes from the last answer of all; a
resource that this answer no longer finds is reported as it was planned.
-/

set_option autoImplicit false

namespace SwaggerProvider.Lifecycle

open Http.Run (Speaks)

/-- A state is what the last answer of all makes of a plan: an accepted one gives an object, and
when a GET finds nothing the plan stands for itself. -/
inductive Shows (r : Resource) (planned : Members) (turns : List Turn) (s : ResourceState) :
    Prop where
  | object {call : Call} {a : Answer} {object : Members} (last : EndsWith call a turns)
    (accepted : Answer.isAccepted a.status = true) (body : a.object? = some object)
    (attributes : s.attributes =
      keepParents r.parents planned (Payload.toState r.record object planned))
  | planned {call : Call} {a : Answer} (last : EndsWith call a turns) (get : call.method = .get)
    (status : a.status = 404)
    (attributes : s.attributes =
      keepParents r.parents planned (Payload.toState r.record [] planned))

theorem Reported.shows {r : Resource} {planned : Members} {turns : List Turn}
    {remote : Option Members} (h : Reported remote turns) (id : String) :
    Shows r planned turns (toState r id remote planned) := by
  obtain ⟨call, hreports⟩ := h
  cases hreports with
  | found last accepted body => exact .object last accepted body rfl
  | gone last get status => exact .planned last get status rfl

/-- A create or an update that succeeds has been answered, and the last answer of all shows the
resource, unless it is that of a GET that does not find it. -/
theorem success_shows_last_answer (r : Resource) (c : Client) :
    (∀ planned, Speaks c (create r c planned) fun result turns =>
      ∀ s, result = .ok s → Shows r planned turns s) ∧
    (∀ prior planned, Speaks c (update r c prior planned) fun result turns =>
      ∀ s, result = .ok s → Shows r planned turns s) := by
  constructor
  · refine fun planned => (create_opens r planned).weaken ?_
    rintro _ turns h s rfl
    cases h with
    | sent _ _ _ _ answer =>
      obtain ⟨remote, hs, hremote⟩ := answer s rfl
      rw [hs]
      exact hremote.shows _
  · refine fun prior planned => (update_opens r prior planned).weaken ?_
    rintro _ turns h s rfl
    cases h with
    | sent _ _ _ _ answer =>
      obtain ⟨remote, rfl, hremote⟩ := answer s rfl
      exact hremote.shows _

/-- The object that answers the GET after an update shows in the state. -/
theorem success_shows_last_answer_firewall :
    ∃ turns, ((update firewall firewallClient firewallState firewallPlan).run
        (.ofReplies [bareReply 204, firewallReply])).1 = .ok firewallState ∧
      Heard firewallClient (.ofReplies [bareReply 204, firewallReply]) turns
        ((update firewall firewallClient firewallState firewallPlan).run
          (.ofReplies [bareReply 204, firewallReply])).2 ∧
      Shows firewall firewallPlan turns firewallState := by
  have hupdate : ((update firewall firewallClient firewallState firewallPlan).run
      (.ofReplies [bareReply 204, firewallReply])).1 = .ok firewallState := by decide +kernel
  obtain ⟨turns, hheard, hshows⟩ := (success_shows_last_answer firewall firewallClient).2
    firewallState firewallPlan (.ofReplies [bareReply 204, firewallReply])
  exact ⟨turns, hupdate, hheard, hshows firewallState hupdate⟩

def slowFirewall : Resource := { firewall with
  record := firewall.record ++ [firewallField "status" false (.scalar .string)]
  post := { Operation.empty with responses := [(202, ⟨true, ["deployed"], ["deploying"]⟩)] } }

def slowReply (status : Nat) (text : String) : Http.Reply :=
  ⟨.response ⟨status, [], some (text.toList.map fun c => c.toNat.toUInt8)⟩, ⟨0⟩⟩

def vanishing : List Http.Reply := [
  slowReply 202 "\x7b\"id\":\"7\",\"status\":\"deploying\"\x7d",
  slowReply 200 "\x7b\"id\":\"7\",\"status\":\"deployed\"\x7d",
  bareReply 404]

def unseenFirewall : ResourceState where
  id := "7"
  attributes := [("ports", .array [.ofInt 443, .ofInt 80]), ("cdns_id", .string "1")]

/-- The last answer is 404 in both cases, and yet the plan is reported as a state. -/
theorem success_shows_last_answer_gone :
    (∃ done, (create slowFirewall firewallClient firewallPlan).run (.ofReplies vanishing) =
        (.ok unseenFirewall, done) ∧ done.replies = []) ∧
    ∃ done, (update firewall firewallClient firewallState firewallPlan).run
        (.ofReplies [bareReply 204, bareReply 404]) = (.ok unseenFirewall, done) ∧
      done.replies = [] := by
  have hcreated : ((create slowFirewall firewallClient firewallPlan).run (.ofReplies vanishing)).1 =
        .ok unseenFirewall ∧
      ((create slowFirewall firewallClient firewallPlan).run (.ofReplies vanishing)).2.replies =
        [] := by decide +kernel
  have hupdated : ((update firewall firewallClient firewallState firewallPlan).run
        (.ofReplies [bareReply 204, bareReply 404])).1 = .ok unseenFirewall ∧
      ((update firewall firewallClient firewallState firewallPlan).run
        (.ofReplies [bareReply 204, bareReply 404])).2.replies = [] := by decide +kernel
  exact ⟨⟨_, Http.Run.run_eq hcreated.1, hcreated.2⟩, ⟨_, Http.Run.run_eq hupdated.1, hupdated.2⟩⟩

end SwaggerProvider.Lifecycle
