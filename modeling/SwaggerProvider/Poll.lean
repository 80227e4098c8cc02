import SwaggerProvider.Error

/-!
Waiting until a resource reports one of the awaited statuses. The status is looked at, and while it
is a pending one and the next look still falls within the timeout, looked at again one interval
later. What is looked at, and on which clock, is left open.
-/

set_option autoImplicit false

namespace SwaggerProvider

structure Poll where
  resource : String
  targets : List String
  pending : List String
  timeout : Duration
  interval : Duration
  deriving DecidableEq

/-- What a poll needs to know and do; looking takes its own time. A sleep ends early when the host
stops the provider. -/
structure Watch (σ : Type) where
  now : σ → Duration
  stopped : σ → Bool
  look : σ → Except Error String × σ
  sleep : Duration → σ → σ

namespace Poll

/-- A point in time, as long as the clock can show it: up to 2⁶³ seconds. -/
def later? (now d : Duration) : Option Duration :=
  if (now + d).seconds < Nat.pow 2 63 then some (now + d) else none

inductive Verdict where
  | reached
  | failed (fault : PollFault)
  | again
  deriving DecidableEq

def isOver (p : Poll) (deadline : Option Duration) (now : Duration) : Bool :=
  match deadline, later? now p.interval with
  | none, _ => false
  | some _, none => true
  | some deadline, some next => deadline.nanos < next.nanos

def judge (p : Poll) (deadline : Option Duration) (now : Duration) (status : String) : Verdict :=
  if p.targets.contains status then .reached
  else if !p.pending.contains status then .failed (.unexpected p.targets p.pending)
  else if p.isOver deadline now then .failed (.timedOut p.timeout)
  else .again

/-- Looks at most `looks` times; no result means that more looks are needed. -/
def waitUntil {σ : Type} (p : Poll) (w : Watch σ) (deadline : Option Duration) :
    Nat → σ → Option (Except Error String) × σ
  | 0, s => (none, s)
  | looks + 1, s =>
    if w.stopped s then (some (.error (.cancelled p.resource)), s)
    else match w.look s with
      | (.error e, s) => (some (.error e), s)
      | (.ok status, s) =>
        match p.judge deadline (w.now s) status with
        | .reached => (some (.ok status), s)
        | .failed fault => (some (.error (.polling p.resource fault status)), s)
        | .again => waitUntil p w deadline looks (w.sleep p.interval s)

/-- Waits for a status. A timeout beyond the end of the clock never ends the wait. -/
def wait {σ : Type} (p : Poll) (w : Watch σ) (looks : Nat) (s : σ) :
    Option (Except Error String) × σ :=
  p.waitUntil w (later? (w.now s) p.timeout) looks s

end Poll

structure Look where
  result : Except Error String
  took : Duration

/-- A clock that only looks and sleeps move, and the number of looks so far. -/
structure LookClock where
  now : Duration
  looks : Nat
  deriving DecidableEq

namespace LookClock

def start : LookClock := ⟨⟨0⟩, 0⟩

def sleep (stopAt : Option Duration) (d : Duration) (c : LookClock) : LookClock :=
  let wake := (c.now + d).nanos
  { c with now := match stopAt with
      | some t => ⟨min wake (max c.now.nanos t.nanos)⟩
      | none => ⟨wake⟩ }

def watch (looks : Nat → Look) (stopAt : Option Duration) : Watch LookClock where
  now c := c.now
  stopped c := stopAt.any fun t => t.nanos ≤ c.now.nanos
  look c := ((looks c.looks).result, ⟨c.now + (looks c.looks).took, c.looks + 1⟩)
  sleep := sleep stopAt

end LookClock

end SwaggerProvider
