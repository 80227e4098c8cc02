import SwaggerProvider.Http.Message
import SwaggerProvider.Log.Basic

/-!
What happens around a provider: what comes of the requests that it hands to the transport, one after
the other, the clock, whether the host has stopped it, and a record of what was handed over and
said. A request beyond the last reply gets no response. How a request travels is not told here; a
reply is what the transport hands back in the end. For each time that a transport is to be built,
there may be something in the way.
-/

set_option autoImplicit false

namespace SwaggerProvider.Http

structure Timeline where
  replies : List Reply
  now : Duration
  stopped : Bool
  sent : List Request
  events : List Log.Event
  faults : List (Option String)

namespace Timeline

def ofReplies (replies : List Reply) : Timeline := ⟨replies, ⟨0⟩, false, [], [], []⟩

def say (t : Timeline) (events : List Log.Event) : Timeline :=
  { t with events := t.events ++ events }

def wait (t : Timeline) (d : Duration) : Timeline := { t with now := t.now + d }

def stop (t : Timeline) : Timeline := { t with stopped := true }

def build (t : Timeline) : Option String × Timeline :=
  (t.faults.head?.join, { t with faults := t.faults.drop 1 })

def exchange (t : Timeline) (request : Request) : Outcome × Timeline :=
  let t := { t with sent := t.sent ++ [request] }
  match t.replies with
  | [] => (.noResponse, t)
  | reply :: rest =>
    let t := ({ t with replies := rest }).wait reply.took
    (reply.outcome, if reply.outcome.stops then t.stop else t)

variable (t : Timeline) (request : Request)

@[simp] theorem sent_exchange : (t.exchange request).2.sent = t.sent ++ [request] := by
  unfold exchange
  dsimp only
  split
  · rfl
  · split <;> rfl

@[simp] theorem events_exchange : (t.exchange request).2.events = t.events := by
  unfold exchange
  dsimp only
  split
  · rfl
  · split <;> rfl

@[simp] theorem replies_exchange : (t.exchange request).2.replies = t.replies.drop 1 := by
  unfold exchange
  dsimp only
  split
  · next h => rw [h, List.drop_nil]
  · next h =>
    rw [h]
    split <;> rfl

end Timeline

abbrev Run := ExceptT Error (StateM Timeline)

namespace Run

def say (level : Log.Level) (text : String) : Run Unit :=
  modify fun t => t.say [⟨level, text⟩]

def sayAll (events : List Log.Event) : Run Unit := modify fun t => t.say events

def isStopped : Run Bool := return (← get).stopped

def now : Run Duration := return (← get).now

def exchange (request : Request) : Run Outcome := modifyGet fun t => t.exchange request

def build : Run (Option String) := modifyGet Timeline.build

variable {α β : Type}

theorem run_bind (x : Run α) (f : α → Run β) (t : Timeline) :
    (x >>= f).run t = match x.run t with
      | (.ok a, t) => (f a).run t
      | (.error e, t) => (.error e, t) := by
  change ExceptT.bindCont f (x.run t).1 (x.run t).2 = _
  rcases x.run t with ⟨result, t⟩
  cases result with
  | ok a => rfl
  | error e => rfl

theorem run_eq {x : Run α} {t : Timeline} {result : Except Error α} (h : (x.run t).1 = result) :
    x.run t = (result, (x.run t).2) := by
  subst h
  rfl

end Run

end SwaggerProvider.Http
