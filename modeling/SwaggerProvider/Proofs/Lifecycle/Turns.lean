import SwaggerProvider.Client
import SwaggerProvider.Lifecycle

/-!
What a run says and hears. A turn is one request, what it was for and what came of it; a run makes
its turns one after the other, and its result is related to them.
-/

set_option autoImplicit false

namespace SwaggerProvider

open Http (Outcome Reply Request Run Timeline)

/-- A security definition that the client knows and for which a value is configured. -/
structure Client.Chooses (c : Client) (choice : Security.Choice) : Prop where
  known : ∃ name, c.schemes.definitions.get? name = some choice.1
  configured : c.config.security.get? choice.1.configName = some choice.2

/-- A request and what came of it. Without a call it refreshes a token. -/
structure Turn where
  call? : Option Call
  request : Request
  outcome : Outcome

namespace Turn

/-- The answer, if a response came and its body did not break off. -/
def answer? (turn : Turn) : Option Answer :=
  match turn.outcome with
  | .response r => r.body.map fun bytes => Answer.read r.status (Text.Utf8.decode bytes)
  | .noResponse | .stopped | .late _ => none

/-- The request is the one that the client makes for its purpose. -/
def Fits (c : Client) (turn : Turn) : Prop :=
  match turn.call? with
  | some call => ∃ credentials, c.request call credentials = .ok turn.request
  | none => ∃ choice header url, c.Chooses choice ∧ choice.1.scheme = .refreshToken header url ∧
      Security.refreshRequest url choice.2 = .ok turn.request

end Turn

def calls (turns : List Turn) : List Call := turns.filterMap Turn.call?

@[simp] theorem calls_nil : calls [] = [] := rfl

@[simp] theorem calls_append (turns more : List Turn) :
    calls (turns ++ more) = calls turns ++ calls more := List.filterMap_append

@[simp] theorem calls_eq_nil {turns : List Turn} :
    calls turns = [] ↔ ∀ turn ∈ turns, turn.call? = none := List.filterMap_eq_nil_iff

theorem forall_mem_calls {turns : List Turn} {p : Call → Prop} :
    (∀ call ∈ calls turns, p call) ↔ ∀ turn ∈ turns, ∀ call, turn.call? = some call → p call := by
  simp only [calls, List.mem_filterMap]
  exact ⟨fun h turn hturn call hcall => h call ⟨turn, hturn, hcall⟩,
    fun h call ⟨turn, hturn, hcall⟩ => h turn hturn call hcall⟩

theorem calls_cons_of_call {turn : Turn} {call : Call} (h : turn.call? = some call)
    (rest : List Turn) : calls (turn :: rest) = call :: calls rest :=
  List.filterMap_cons_some h

/-- What comes of the next requests; beyond the last reply there is no response. -/
def outcomes : List Reply → Nat → List Outcome
  | _, 0 => []
  | [], count + 1 => .noResponse :: outcomes [] count
  | reply :: rest, count + 1 => reply.outcome :: outcomes rest count

theorem mem_outcomes {replies : List Reply} {count : Nat} {outcome : Outcome}
    (h : outcome ∈ outcomes replies count) :
    outcome = .noResponse ∨ ∃ reply ∈ replies, reply.outcome = outcome := by
  induction count generalizing replies with
  | zero => simp [outcomes] at h
  | succ count ih =>
    cases replies with
    | nil =>
      rcases List.mem_cons.1 h with rfl | h
      · exact .inl rfl
      · exact ih h
    | cons reply rest =>
      rcases List.mem_cons.1 h with rfl | h
      · exact .inr ⟨reply, List.mem_cons_self, rfl⟩
      · rcases ih h with hnone | ⟨other, hother, houtcome⟩
        · exact .inl hnone
        · exact .inr ⟨other, List.mem_cons_of_mem _ hother, houtcome⟩

theorem outcomes_add (replies : List Reply) (first more : Nat) :
    outcomes replies (first + more) =
      outcomes replies first ++ outcomes (replies.drop first) more := by
  induction first generalizing replies with
  | zero => simp [outcomes]
  | succ first ih =>
    rw [Nat.add_right_comm]
    cases replies with
    | nil => simp [outcomes, ih]
    | cons reply rest => simp [outcomes, ih]

theorem outcomes_one (t : Timeline) (request : Request) :
    outcomes t.replies 1 = [(t.exchange request).1] := by
  unfold Timeline.exchange
  cases t.replies with
  | nil => rfl
  | cons reply rest => rfl

/-- From one timeline to a later one exactly these requests are sent, each of them fits, and they
take the replies in their order. -/
structure Heard (c : Client) (t : Timeline) (turns : List Turn) (done : Timeline) : Prop where
  fits : ∀ turn ∈ turns, turn.Fits c
  sent : done.sent = t.sent ++ turns.map Turn.request
  replies : done.replies = t.replies.drop turns.length
  outcomes : turns.map Turn.outcome = outcomes t.replies turns.length

namespace Heard

variable {c : Client} {t u v : Timeline} {turns more : List Turn}

theorem quiet (sent : u.sent = t.sent) (replies : u.replies = t.replies) : Heard c t [] u where
  fits := by simp
  sent := by simp [sent]
  replies := by simp [replies]
  outcomes := rfl

theorem trans (first : Heard c t turns u) (second : Heard c u more v) :
    Heard c t (turns ++ more) v where
  fits turn h := (List.mem_append.1 h).elim (first.fits turn) (second.fits turn)
  sent := by rw [second.sent, first.sent, List.map_append, List.append_assoc]
  replies := by rw [second.replies, first.replies, List.drop_drop, List.length_append]
  outcomes := by
    rw [List.map_append, List.length_append, outcomes_add, first.outcomes, second.outcomes,
      first.replies]

theorem exchange {turn : Turn} (hfits : turn.Fits c)
    (h : turn.outcome = (t.exchange turn.request).1) :
    Heard c t [turn] (t.exchange turn.request).2 where
  fits := by simpa using hfits
  sent := by simp
  replies := by simp
  outcomes := by rw [List.map_singleton, h, List.length_singleton, outcomes_one]

end Heard

namespace Http.Run

variable {α β : Type} {c : Client} {x : Run α}

/-- On whatever timeline it runs, its result and its turns are related so. -/
def Speaks (c : Client) (x : Run α) (Q : Except Error α → List Turn → Prop) : Prop :=
  ∀ t, ∃ turns, Heard c t turns (x.run t).2 ∧ Q (x.run t).1 turns

def Quiet (x : Run α) : Prop :=
  ∀ t, ∃ a done, x.run t = (.ok a, done) ∧ done.sent = t.sent ∧ done.replies = t.replies

theorem quiet_say (level : Log.Level) (text : String) : Quiet (Run.say level text) :=
  fun _ => ⟨_, _, rfl, rfl, rfl⟩

theorem quiet_sayAll (events : List Log.Event) : Quiet (Run.sayAll events) :=
  fun _ => ⟨_, _, rfl, rfl, rfl⟩

theorem quiet_isStopped : Quiet Run.isStopped := fun _ => ⟨_, _, rfl, rfl, rfl⟩

theorem quiet_now : Quiet Run.now := fun _ => ⟨_, _, rfl, rfl, rfl⟩

namespace Speaks

variable {P : Except Error α → List Turn → Prop} {Q : Except Error β → List Turn → Prop}

theorem weaken {P' : Except Error α → List Turn → Prop} (hx : Speaks c x P)
    (h : ∀ result turns, P result turns → P' result turns) : Speaks c x P' := by
  intro t
  obtain ⟨turns, hheard, hp⟩ := hx t
  exact ⟨turns, hheard, h _ _ hp⟩

theorem fits (hx : Speaks c x P) :
    Speaks c x fun result turns => P result turns ∧ ∀ turn ∈ turns, turn.Fits c := by
  intro t
  obtain ⟨turns, hheard, hp⟩ := hx t
  exact ⟨turns, hheard, hp, hheard.fits⟩

theorem silent (hsent : ∀ t, (x.run t).2.sent = t.sent)
    (hreplies : ∀ t, (x.run t).2.replies = t.replies) (h : ∀ t, P (x.run t).1 []) :
    Speaks c x P :=
  fun t => ⟨[], .quiet (hsent t) (hreplies t), h t⟩

theorem pure {a : α} (h : P (.ok a) []) : Speaks c (pure a : Run α) P :=
  .silent (fun _ => rfl) (fun _ => rfl) fun _ => h

theorem throw {e : Error} (h : P (.error e) []) : Speaks c (throw e : Run α) P :=
  .silent (fun _ => rfl) (fun _ => rfl) fun _ => h

theorem lift {x : Except Error α} (h : P x []) : Speaks c (x : Run α) P :=
  .silent (fun _ => rfl) (fun _ => rfl) fun _ => h

/-- What comes second adds its turns to those of what comes first. -/
theorem bind {f : α → Run β} (hx : Speaks c x P)
    (hf : ∀ a turns, P (.ok a) turns → Speaks c (f a) fun result more => Q result (turns ++ more))
    (herror : ∀ e turns, P (.error e) turns → Q (.error e) turns) : Speaks c (x >>= f) Q := by
  intro t
  obtain ⟨turns, hheard, hp⟩ := hx t
  rw [run_bind]
  cases hrun : x.run t with
  | mk result done =>
    rw [hrun] at hheard hp
    cases result with
    | ok a =>
      obtain ⟨more, hmore, hq⟩ := hf a turns hp done
      exact ⟨turns ++ more, hheard.trans hmore, hq⟩
    | error e => exact ⟨turns, hheard, herror e turns hp⟩

theorem lift_bind {x : Except Error α} {f : α → Run β} (hf : ∀ a, x = .ok a → Speaks c (f a) Q)
    (herror : ∀ e, x = .error e → Q (.error e) []) : Speaks c ((x : Run α) >>= f) Q := by
  cases x with
  | ok a => exact hf a rfl
  | error e => exact .throw (herror e rfl)

theorem throw_bind {e : Error} {f : α → Run β} (h : Q (.error e) []) :
    Speaks c (MonadExcept.throw e >>= f : Run β) Q :=
  .silent (fun _ => rfl) (fun _ => rfl) fun _ => h

theorem quiet_bind {f : α → Run β} (hx : Quiet x) (hf : ∀ a, Speaks c (f a) Q) :
    Speaks c (x >>= f) Q := by
  intro t
  obtain ⟨a, done, hrun, hsent, hreplies⟩ := hx t
  rw [run_bind, hrun]
  obtain ⟨turns, hheard, hq⟩ := hf a done
  exact ⟨turns, (Heard.quiet hsent hreplies).trans hheard, hq⟩

theorem exchange_bind (call? : Option Call) {request : Request} {f : Outcome → Run β}
    (hfits : ∀ outcome, Turn.Fits c ⟨call?, request, outcome⟩)
    (hf : ∀ outcome, Speaks c (f outcome) fun result more =>
      Q result (⟨call?, request, outcome⟩ :: more)) :
    Speaks c (Run.exchange request >>= f) Q := by
  intro t
  obtain ⟨more, hmore, hq⟩ := hf (t.exchange request).1 (t.exchange request).2
  exact ⟨_, (Heard.exchange (hfits _) rfl).trans hmore, hq⟩

section Each

variable {T : Turn → Prop}

theorem each_bind {f : α → Run β} (hx : Speaks c x fun _ turns => ∀ turn ∈ turns, T turn)
    (hf : ∀ a, Speaks c (f a) fun _ turns => ∀ turn ∈ turns, T turn) :
    Speaks c (x >>= f) fun _ turns => ∀ turn ∈ turns, T turn :=
  .bind hx (fun a _ hall => (hf a).weaken fun _ _ hmore => List.forall_mem_append.2 ⟨hall, hmore⟩)
    fun _ _ hall => hall

variable {p : Poll} {look : Run String}

/-- What holds of the turns of each look, holds of those of the whole wait. -/
theorem waitUntil (hlook : Speaks c look fun _ turns => ∀ turn ∈ turns, T turn)
    (deadline : Option Duration) (looks : Nat) (t : Timeline) :
    ∃ turns, Heard c t turns (p.waitUntil (watch look) deadline looks t).2 ∧
      ∀ turn ∈ turns, T turn := by
  have hnone (u : Timeline) : ∃ turns, Heard c u turns u ∧ ∀ turn ∈ turns, T turn :=
    ⟨[], .quiet rfl rfl, by simp⟩
  induction looks generalizing t with
  | zero => exact hnone t
  | succ looks ih =>
    rw [Poll.waitUntil]
    split
    · exact hnone t
    · obtain ⟨turns, hheard, hturns⟩ := hlook t
      change Heard c t turns ((watch look).look t).2 at hheard
      split
      · next h =>
        rw [h] at hheard
        exact ⟨turns, hheard, hturns⟩
      · next found h =>
        rw [h] at hheard
        split
        · exact ⟨turns, hheard, hturns⟩
        · exact ⟨turns, hheard, hturns⟩
        · obtain ⟨more, hmore, hall⟩ := ih ((watch look).sleep p.interval found)
          have hslept : Heard c found [] ((watch look).sleep p.interval found) := .quiet rfl rfl
          exact ⟨turns ++ ([] ++ more), hheard.trans (hslept.trans hmore),
            List.forall_mem_append.2 ⟨hturns, hall⟩⟩

theorem poll (hlook : Speaks c look fun _ turns => ∀ turn ∈ turns, T turn) :
    Speaks c (Run.poll p look) fun _ turns => ∀ turn ∈ turns, T turn := by
  intro t
  obtain ⟨turns, hheard, hturns⟩ := waitUntil (p := p) hlook (Poll.later? t.now p.timeout)
    (t.replies.length + 1) t
  refine ⟨turns, ?_, hturns⟩
  change Heard c t turns (p.wait (watch look) (t.replies.length + 1) t).2 at hheard
  unfold Run.poll ExceptT.mk ExceptT.run
  dsimp only
  split
  · next h =>
    rw [h] at hheard
    exact hheard
  · next h =>
    rw [h] at hheard
    exact hheard

end Each

end Speaks

end Http.Run

end SwaggerProvider
