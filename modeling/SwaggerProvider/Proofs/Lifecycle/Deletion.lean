import SwaggerProvider.Proofs.Lifecycle.LastAnswer
import SwaggerProvider.Proofs.Lifecycle.Unsaid
import SwaggerProvider.Proofs.Poll.Reaching

/-!
When a resource counts as deleted. The DELETE finds nothing, or it is accepted and nothing is to be
polled, or the polling sees pending statuses in time and then a target or that the resource is gone.
-/

set_option autoImplicit false

namespace SwaggerProvider

open Http (Outcome Reply Run Timeline)

theorem le_length_of_outcomes {replies : List Reply} {count : Nat} {before : List Outcome}
    {response : Http.Response} (h : outcomes replies count = before ++ [.response response]) :
    count ≤ replies.length := by
  induction count generalizing replies before with
  | zero => simp
  | succ count ih =>
    cases replies with
    | nil =>
      have hlast : Outcome.response response ∈ outcomes [] (count + 1) := by simp [h]
      simpa using mem_outcomes hlast
    | cons reply rest =>
      cases before with
      | nil =>
        have hnone : outcomes rest count = [] := (List.cons.inj h).2
        cases count with
        | zero => simp
        | succ count => cases rest <;> cases hnone
      | cons _ before =>
        have hle := ih (List.cons.inj h).2
        simp only [List.length_cons]
        omega

theorem heard_of_send {c : Client} {call : Call} {t u : Timeline} {a : Answer}
    (h : (c.send call).run t = (.ok a, u)) :
    ∃ turns, Heard c t turns u ∧ EndsWith call a turns := by
  obtain ⟨turns, hheard, honce⟩ := send_speaks (c := c) call t
  rw [h] at hheard honce
  cases honce with
  | sent _ _ answer => exact ⟨turns, hheard, answer a rfl⟩

theorem length_replies_of_send {c : Client} {call : Call} {t u : Timeline} {a : Answer}
    (h : (c.send call).run t = (.ok a, u)) : u.replies.length < t.replies.length := by
  obtain ⟨turns, hheard, hlast⟩ := heard_of_send h
  obtain ⟨before, turn, rfl, -, hanswer⟩ := hlast.last
  obtain ⟨_, request, outcome⟩ := turn
  cases outcome with
  | noResponse => cases hanswer
  | stopped => cases hanswer
  | late response => cases hanswer
  | response response =>
    have houtcomes := hheard.outcomes
    rw [List.map_append] at houtcomes
    have hle := le_length_of_outcomes houtcomes.symm
    rw [hheard.replies, List.length_drop]
    simp only [List.length_append, List.length_singleton] at hle ⊢
    omega

theorem running_of_send {c : Client} {call : Call} {t u : Timeline} {a : Answer}
    (h : (c.send call).run t = (.ok a, u)) : t.stopped = false := by
  cases hstopped : t.stopped with
  | false => rfl
  | true =>
    rw [send_of_stopped hstopped] at h
    cases h

namespace Lifecycle

variable {r : Resource} {c : Client} {url : String} {t u : Timeline}

/-- The status that an answer shows of a resource that is being deleted. -/
inductive Shown (r : Resource) (a : Answer) : String → Prop where
  | gone (status : a.status = 404) : Shown r a destroyed
  | status {object : Members} {status : String} (accepted : Answer.isAccepted a.status = true)
    (body : a.object? = some object) (shown : Payload.status? r.record object = some status) :
    Shown r a status

def seen (r : Resource) (c : Client) (url : String) : Sight Timeline where
  now t := t.now
  shows t status u :=
    ∃ a, (c.send (call r .get url r.get none)).run t = (.ok a, u) ∧ Shown r a status
  sleep d t := t.wait d

inductive Told (a : Answer) : Option Members → Prop where
  | gone (status : a.status = 404) : Told a none
  | found {object : Members} (accepted : Answer.isAccepted a.status = true)
    (body : a.object? = some object) : Told a (some object)

theorem check_of_accepted {a : Answer} (h : Answer.isAccepted a.status = true)
    (method url : String) : a.check method url = .ok a := by
  unfold Answer.check
  rw [if_pos h]

theorem status_ne_of_accepted {a : Answer} (h : Answer.isAccepted a.status = true) :
    a.status ≠ 404 := by
  intro hgone
  rw [hgone] at h
  cases h

theorem told_of_fetch {remote : Option Members}
    (h : (fetch r c url).run t = (.ok remote, u)) :
    ∃ a, (c.send (call r .get url r.get none)).run t = (.ok a, u) ∧ Told a remote := by
  obtain ⟨a, v, hsent, hrest⟩ := Run.run_bind_eq_ok.1 h
  by_cases hgone : a.status = 404
  · rw [if_pos hgone] at hrest
    cases hrest
    exact ⟨a, hsent, .gone hgone⟩
  · rw [if_neg hgone] at hrest
    obtain ⟨b, w, hchecked, hbody⟩ := Run.run_bind_eq_ok.1 hrest
    obtain ⟨hcheck, rfl⟩ := Prod.mk.inj hchecked
    obtain ⟨rfl, haccepted⟩ := check_eq_ok hcheck
    split at hbody
    · next object hobject =>
      cases hbody
      exact ⟨b, hsent, .found haccepted hobject⟩
    · cases hbody

theorem fetch_of_told {a : Answer} {remote : Option Members}
    (hsent : (c.send (call r .get url r.get none)).run t = (.ok a, u)) (h : Told a remote) :
    (fetch r c url).run t = (.ok remote, u) := by
  refine (Run.run_bind_ok hsent).trans ?_
  cases h with
  | gone status =>
    rw [if_pos status]
    rfl
  | found accepted body =>
    rw [if_neg (status_ne_of_accepted accepted)]
    refine (Run.run_lift_ok (check_of_accepted accepted _ _)).trans ?_
    rw [body]
    rfl

theorem shown_of_look {status : String}
    (h : (look r c url true).run t = (.ok status, u)) :
    ∃ v, (seen r c url).shows t status v ∧ v.Like u := by
  obtain ⟨remote, v, hfetched, hrest⟩ := Run.run_bind_eq_ok.1 h
  obtain ⟨a, hsent, htold⟩ := told_of_fetch hfetched
  dsimp only at hrest
  cases htold with
  | gone gone =>
    cases hrest
    exact ⟨v, ⟨a, hsent, .gone gone⟩, .say _ _⟩
  | @found object accepted body =>
    dsimp only at hrest
    split at hrest
    · next reported hreported =>
      cases hrest
      exact ⟨v, ⟨a, hsent, .status accepted body hreported⟩, .say _ _⟩
    · cases hrest

theorem look_of_shown {status : String} (h : (seen r c url).shows t status u) :
    ∃ v, (look r c url true).run t = (.ok status, v) ∧ u.Like v := by
  obtain ⟨a, hsent, hshown⟩ := h
  cases hshown with
  | gone gone =>
    exact ⟨_, Run.run_bind_ok (fetch_of_told hsent (.gone gone)), .say _ _⟩
  | status accepted body shown =>
    have hrun : (look r c url true).run t = _ :=
      Run.run_bind_ok (fetch_of_told hsent (.found accepted body))
    dsimp only at hrun
    rw [shown] at hrun
    exact ⟨_, hrun, .say _ _⟩

theorem seen_congr {s v : Timeline} {status : String} (hlike : s.Like t)
    (h : (seen r c url).shows s status v) :
    ∃ u, (seen r c url).shows t status u ∧ v.Like u := by
  obtain ⟨a, hsent, hshown⟩ := h
  obtain ⟨hresult, hafter⟩ := send_heedless c (call r .get url r.get none) s t hlike
  rw [hsent] at hresult hafter
  exact ⟨_, ⟨a, Run.run_eq hresult.symm, hshown⟩, hafter⟩

theorem length_replies_of_look {status : String}
    (h : (look r c url true).run t = (.ok status, u)) : u.replies.length < t.replies.length := by
  obtain ⟨v, ⟨a, hsent, -⟩, hlike⟩ := shown_of_look h
  rw [← hlike.replies_eq]
  exact length_replies_of_send hsent

variable {p : Poll} {deadline : Option Duration} {status : String}

theorem seen_of_watch {s v : Timeline} (hlike : s.Like t)
    (h : p.Reaches (Http.watch (look r c url true)).sight deadline s status v) :
    ∃ u, p.Reaches (seen r c url) deadline t status u ∧ v.Like u := by
  refine h.transfer (fun _ _ hlike => hlike.now_eq) ?_ (fun d _ _ hlike => hlike.wait d) hlike
  rintro s t status u hlike ⟨-, hlook⟩
  obtain ⟨v, hseen, hv⟩ := shown_of_look hlook
  obtain ⟨w, hshown, hw⟩ := seen_congr hlike hseen
  exact ⟨w, hshown, hv.symm.trans hw⟩

theorem watch_of_seen {s v : Timeline} (hlike : s.Like t)
    (h : p.Reaches (seen r c url) deadline s status v) :
    ∃ u, p.Reaches (Http.watch (look r c url true)).sight deadline t status u ∧ v.Like u := by
  refine h.transfer (fun _ _ hlike => hlike.now_eq) ?_ (fun d _ _ hlike => hlike.wait d) hlike
  intro s t status u hlike hseen
  obtain ⟨v, hshown, hv⟩ := seen_congr hlike hseen
  obtain ⟨w, hlook, hw⟩ := look_of_shown hshown
  obtain ⟨a, hsent, -⟩ := hshown
  exact ⟨w, ⟨running_of_send hsent, hlook⟩, hv.trans hw⟩

theorem poll_run (r : Resource) (c : Client) (url : String) (p : Poll) (t : Timeline) :
    ∃ said, t.Like said ∧ (poll r c url true p).run t =
      (Run.poll p (look r c url true) >>= fun _ => pure ()).run said :=
  ⟨_, .say _ _, rfl⟩

theorem reaches_of_poll (h : (poll r c url true p).run t = (.ok (), u)) :
    ∃ status v, p.Reaches (seen r c url) (Poll.later? t.now p.timeout) t status v ∧ v.Like u := by
  obtain ⟨said, hsaid, hrun⟩ := poll_run r c url p t
  rw [hrun] at h
  obtain ⟨status, v, hpolled, hdone⟩ := Run.run_bind_eq_ok.1 h
  cases hdone
  unfold Run.poll ExceptT.mk ExceptT.run at hpolled
  dsimp only at hpolled
  split at hpolled
  · next result w hwait =>
    cases hpolled
    obtain ⟨u, hreaches, hlike⟩ := seen_of_watch hsaid.symm (Poll.reaches_of_waitUntil hwait)
    change p.Reaches _ (Poll.later? said.now p.timeout) t status u at hreaches
    rw [← hsaid.now_eq] at hreaches
    exact ⟨status, u, hreaches, hlike.symm⟩
  · cases hpolled

theorem poll_of_reaches {v : Timeline}
    (h : p.Reaches (seen r c url) (Poll.later? t.now p.timeout) t status v) :
    ∃ u, (poll r c url true p).run t = (.ok (), u) ∧ v.Like u := by
  obtain ⟨said, hsaid, hrun⟩ := poll_run r c url p t
  obtain ⟨u, hreaches, hlike⟩ := watch_of_seen hsaid h
  have hwait : p.wait (Http.watch (look r c url true)) (said.replies.length + 1) said =
      (some (.ok status), u) := by
    rw [hsaid.now_eq] at hreaches
    exact hreaches.waitUntil_eq (fun _ _ _ hlook => length_replies_of_look hlook)
      (fun _ _ => rfl) (Nat.lt_succ_self _)
  have hpolled : (Run.poll p (look r c url true)).run said = (.ok status, u) := by
    unfold Run.poll ExceptT.mk ExceptT.run
    dsimp only
    rw [hwait]
  exact ⟨u, hrun.trans (Run.run_bind_ok hpolled), hlike⟩

/-- What is heard until a status is reached ends with the answer that shows it. -/
theorem heard_of_reaches {v : Timeline} (h : p.Reaches (seen r c url) deadline t status v) :
    ∃ turns a, Heard c t turns v ∧ EndsWith (call r .get url r.get none) a turns ∧
      Shown r a status ∧ status ∈ p.targets := by
  induction h with
  | now shown target =>
    obtain ⟨a, hsent, hshown⟩ := shown
    obtain ⟨turns, hheard, hlast⟩ := heard_of_send hsent
    exact ⟨turns, a, hheard, hlast, hshown, target⟩
  | @later t u v _ last shown _ _ _ _ ih =>
    obtain ⟨_, hsent, -⟩ := shown
    obtain ⟨turns, hheard, -⟩ := heard_of_send hsent
    obtain ⟨more, a, hmore, hlast, hshown, htarget⟩ := ih
    have hslept : Heard c u [] ((seen r c url).sleep p.interval u) := .quiet rfl rfl
    exact ⟨turns ++ ([] ++ more), a, hheard.trans (hslept.trans hmore),
      (hlast.append []).append turns, hshown, htarget⟩

/-- The poll after a DELETE awaits the declared targets and that the resource is gone. -/
def leaving (r : Resource) (c : Client) (operation : Operation) (polling : Polling) : Poll :=
  pollOf r c (polling.targets ++ [destroyed]) polling operation.timeout

/-- The DELETE finds nothing, or it is accepted and not polled, or the polling reaches a target. -/
inductive Deleted (r : Resource) (c : Client) (operation : Operation) (url : String)
    (t : Timeline) : Timeline → Prop where
  | absent {a : Answer} {u : Timeline}
    (sent : (c.send (call r .delete url operation none)).run t = (.ok a, u))
    (gone : a.status = 404) : Deleted r c operation url t u
  | unpolled {a : Answer} {u : Timeline}
    (sent : (c.send (call r .delete url operation none)).run t = (.ok a, u))
    (accepted : Answer.isAccepted a.status = true)
    (unpolled : operation.pollingFor a.status = none) : Deleted r c operation url t u
  | polled {a : Answer} {u v : Timeline} {polling : Polling} {status : String}
    (sent : (c.send (call r .delete url operation none)).run t = (.ok a, u))
    (accepted : Answer.isAccepted a.status = true)
    (polled : operation.pollingFor a.status = some polling)
    (reached : (leaving r c operation polling).Reaches (seen r c url)
      (Poll.later? u.now (operation.timeout.getD c.settings.operationTimeout)) u status v) :
    Deleted r c operation url t v

section Delete

variable {current : ResourceState} {operation : Operation} {ids : List String}

theorem deleted_of_run (hdelete : r.delete = some operation)
    (hids : parentIds current.attributes r.parents = .ok ids)
    (hurl : instanceUrl r c ids current.id = .ok url)
    (h : (Lifecycle.delete r c current).run t = (.ok (), u)) :
    ∃ v, Deleted r c operation url t v ∧ v.Like u := by
  unfold Lifecycle.delete at h
  rw [hdelete] at h
  dsimp only at h
  rw [Run.run_lift_ok hids, Run.run_lift_ok hurl] at h
  obtain ⟨a, v, hsent, hrest⟩ := Run.run_bind_eq_ok.1 h
  by_cases hgone : a.status = 404
  · rw [if_pos hgone] at hrest
    cases hrest
    exact ⟨v, .absent hsent hgone, .say _ _⟩
  · rw [if_neg hgone] at hrest
    obtain ⟨b, w, hchecked, hpolled⟩ := Run.run_bind_eq_ok.1 hrest
    obtain ⟨hcheck, rfl⟩ := Prod.mk.inj hchecked
    obtain ⟨rfl, haccepted⟩ := check_eq_ok hcheck
    split at hpolled
    · next hnone =>
      cases hpolled
      exact ⟨v, .unpolled hsent haccepted hnone, .say _ _⟩
    · next polling hpolling =>
      obtain ⟨_, w, hpoll, hsaid⟩ := Run.run_bind_eq_ok.1 hpolled
      cases hsaid
      obtain ⟨status, x, hreached, hlike⟩ := reaches_of_poll hpoll
      exact ⟨x, .polled hsent haccepted hpolling hreached, hlike.trans (.say _ _)⟩

theorem run_of_deleted (hdelete : r.delete = some operation)
    (hids : parentIds current.attributes r.parents = .ok ids)
    (hurl : instanceUrl r c ids current.id = .ok url) (h : Deleted r c operation url t u) :
    ∃ done, (Lifecycle.delete r c current).run t = (.ok (), done) := by
  unfold Lifecycle.delete
  rw [hdelete]
  dsimp only
  rw [Run.run_lift_ok hids, Run.run_lift_ok hurl]
  cases h with
  | absent sent gone =>
    rw [Run.run_bind_ok sent, if_pos gone]
    exact ⟨_, rfl⟩
  | unpolled sent accepted unpolled =>
    rw [Run.run_bind_ok sent, if_neg (status_ne_of_accepted accepted),
      Run.run_lift_ok (check_of_accepted accepted _ _), unpolled]
    exact ⟨_, rfl⟩
  | polled sent accepted polled reached =>
    obtain ⟨done, hpoll, -⟩ := poll_of_reaches reached
    rw [Run.run_bind_ok sent, if_neg (status_ne_of_accepted accepted),
      Run.run_lift_ok (check_of_accepted accepted _ _), polled]
    exact ⟨_, Run.run_bind_ok hpoll⟩

/-- A delete succeeds exactly when the resource is gone or was let go, and after a poll the last
answer of all has shown that. -/
theorem delete_ok_when_gone (hdelete : r.delete = some operation)
    (hids : parentIds current.attributes r.parents = .ok ids)
    (hurl : instanceUrl r c ids current.id = .ok url) (t : Timeline) :
    ((∃ u, Deleted r c operation url t u) →
      ((Lifecycle.delete r c current).run t).1 = .ok ()) ∧
    ((¬ ∃ u, Deleted r c operation url t u) →
      ∃ e, ((Lifecycle.delete r c current).run t).1 = .error e) ∧
    ∀ a u polling done,
      (c.send (call r .delete url operation none)).run t = (.ok a, u) → a.status ≠ 404 →
      operation.pollingFor a.status = some polling →
      (Lifecycle.delete r c current).run t = (.ok (), done) →
      ∃ turns b status, Heard c t turns done ∧
        EndsWith (call r .get url r.get none) b turns ∧ Shown r b status ∧
        (status ∈ polling.targets ∨ status = destroyed) := by
  refine ⟨?_, ?_, ?_⟩
  · rintro ⟨u, hdeleted⟩
    obtain ⟨done, hrun⟩ := run_of_deleted hdelete hids hurl hdeleted
    rw [hrun]
  · intro hnot
    cases hrun : (Lifecycle.delete r c current).run t with
    | mk result done =>
      cases result with
      | error e => exact ⟨e, rfl⟩
      | ok _ =>
        obtain ⟨u, hdeleted, -⟩ := deleted_of_run hdelete hids hurl hrun
        exact absurd ⟨u, hdeleted⟩ hnot
  · intro a u polling done hsent hfound hpolling hrun
    obtain ⟨v, hdeleted, hlike⟩ := deleted_of_run hdelete hids hurl hrun
    cases hdeleted with
    | absent sent gone =>
      rw [hsent] at sent
      cases sent
      exact absurd gone hfound
    | unpolled sent _ unpolled =>
      rw [hsent] at sent
      cases sent
      rw [hpolling] at unpolled
      cases unpolled
    | polled sent _ polled reached =>
      rw [hsent] at sent
      cases sent
      rw [hpolling] at polled
      cases polled
      obtain ⟨turns, hturns, -⟩ := heard_of_send hsent
      obtain ⟨more, b, hmore, hlast, hshown, htarget⟩ := heard_of_reaches reached
      have hsaid : Heard c v [] done := .quiet hlike.sent_eq.symm hlike.replies_eq.symm
      have hends : EndsWith (call r .get url r.get none) b (turns ++ (more ++ [])) := by
        rw [List.append_nil]
        exact hlast.append turns
      refine ⟨_, b, _, hturns.trans (hmore.trans hsaid), hends, hshown, ?_⟩
      simpa [leaving, pollOf] using htarget

end Delete

def slowDelete : Operation :=
  { Operation.empty with responses := [(202, ⟨true, ["archived"], ["deleting"]⟩)] }

def departingFirewall : Resource := { slowFirewall with delete := some slowDelete }

def departure (statuses : List String) : List Reply :=
  bareReply 202 :: statuses.map fun status =>
    slowReply 200 ("\x7b\"status\":\"" ++ status ++ "\"\x7d")

/-- The firewall is deleted when it is seen no more, and not when its deletion fails. -/
theorem delete_ok_when_gone_firewall :
    (∃ u, Deleted departingFirewall firewallClient slowDelete
      "http://api.example.com/cdns/1/firewalls/7"
      (.ofReplies (departure ["deleting", "deleting"] ++ [bareReply 404])) u) ∧
    ¬ ∃ u, Deleted departingFirewall firewallClient slowDelete
      "http://api.example.com/cdns/1/firewalls/7"
      (.ofReplies (departure ["deleting", "failed"])) u := by
  have hdelete : departingFirewall.delete = some slowDelete := rfl
  have hids : parentIds firewallState.attributes departingFirewall.parents = .ok ["1"] := by
    decide +kernel
  have hurl : instanceUrl departingFirewall firewallClient ["1"] firewallState.id =
      .ok "http://api.example.com/cdns/1/firewalls/7" := by decide +kernel
  constructor
  · obtain ⟨-, herror, -⟩ := delete_ok_when_gone hdelete hids hurl
      (.ofReplies (departure ["deleting", "deleting"] ++ [bareReply 404]))
    have hrun : ((Lifecycle.delete departingFirewall firewallClient firewallState).run
        (.ofReplies (departure ["deleting", "deleting"] ++ [bareReply 404]))).1 = .ok () := by
      decide +kernel
    by_contra hnot
    obtain ⟨e, he⟩ := herror hnot
    rw [hrun] at he
    cases he
  · obtain ⟨hok, -, -⟩ := delete_ok_when_gone hdelete hids hurl
      (.ofReplies (departure ["deleting", "failed"]))
    have hrun : ((Lifecycle.delete departingFirewall firewallClient firewallState).run
        (.ofReplies (departure ["deleting", "failed"]))).1 =
        .error (.polling "cdns_firewalls"
          (.unexpected ["archived", "destroyed"] ["deleting"]) "failed") := by decide +kernel
    intro hdeleted
    rw [hok hdeleted] at hrun
    cases hrun

end Lifecycle

end SwaggerProvider
