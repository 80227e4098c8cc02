import SwaggerProvider.Lifecycle
import SwaggerProvider.Proofs.Outcome

/-!
What can go wrong with what runs on a timeline. An error comes from one of the steps, and a poll
fails as a look does or because it has come to its end. Nothing is sent on a stopped timeline.
-/

set_option autoImplicit false

namespace SwaggerProvider.Http.Run

variable {α β : Type} {P : Error → Prop} {x : Run α}

theorem run_bind_ok {f : α → Run β} {t u : Timeline} {a : α} (h : x.run t = (.ok a, u)) :
    (x >>= f).run t = (f a).run u := by
  rw [run_bind, h]

@[simp] theorem run_sayAll (events : List Log.Event) (t : Timeline) :
    (Run.sayAll events).run t = (.ok (), t.say events) := rfl

theorem run_isStopped {t : Timeline} {stopped : Bool} (h : t.stopped = stopped) :
    Run.isStopped.run t = (.ok stopped, t) := by
  subst h
  rfl

theorem run_bind_eq_ok {f : α → Run β} {t v : Timeline} {b : β} :
    (x >>= f).run t = (.ok b, v) ↔ ∃ a u, x.run t = (.ok a, u) ∧ (f a).run u = (.ok b, v) := by
  constructor
  · intro h
    rw [run_bind] at h
    cases hx : x.run t with
    | mk result u =>
      rw [hx] at h
      cases result with
      | ok a => exact ⟨a, u, rfl, h⟩
      | error e => cases h
  · rintro ⟨a, u, hx, hf⟩
    rw [run_bind_ok hx, hf]

section Lift

variable {x : Except Error α} {f : α → Run β} {t : Timeline}

theorem run_lift_ok {a : α} (h : x = .ok a) : ((x : Run α) >>= f).run t = (f a).run t := by
  subst h
  rfl

theorem run_lift_error {e : Error} (h : x = .error e) :
    ((x : Run α) >>= f).run t = (.error e, t) := by
  subst h
  rfl

end Lift

/-- All errors that can come of it have a property, on whatever timeline it runs. -/
def FailsOnly (P : Error → Prop) (x : Run α) : Prop := ∀ t, Except.FailsOnly P (x.run t).1

namespace FailsOnly

theorem pure (a : α) : FailsOnly P (pure a : Run α) := fun _ => .ok a

theorem throw {e : Error} (h : P e) : FailsOnly P (throw e : Run α) := fun _ => .error h

theorem weaken {Q : Error → Prop} (hx : FailsOnly P x) (h : ∀ e, P e → Q e) : FailsOnly Q x :=
  fun t e he => h e (hx t e he)

theorem throw_bind {e : Error} (h : P e) (f : α → Run β) :
    FailsOnly P (MonadExcept.throw e >>= f : Run β) := fun _ => .error h

theorem lift {x : Except Error α} (h : Except.FailsOnly P x) : FailsOnly P (x : Run α) := fun _ => h

theorem bind {f : α → Run β} (hx : FailsOnly P x) (hf : ∀ a, FailsOnly P (f a)) :
    FailsOnly P (x >>= f) := by
  intro t
  rw [run_bind]
  cases hrun : x.run t with
  | mk result done =>
    have herror := hx t
    rw [hrun] at herror
    cases result with
    | ok a => exact hf a done
    | error e => exact .error (herror e rfl)

theorem lift_bind {x : Except Error α} {f : α → Run β} (hx : Except.FailsOnly P x)
    (hf : ∀ a, x = .ok a → FailsOnly P (f a)) : FailsOnly P ((x : Run α) >>= f) := by
  intro t
  cases x with
  | ok a => exact hf a rfl t
  | error e => exact .error (hx e rfl)

theorem say (level : Log.Level) (text : String) : FailsOnly P (Run.say level text) :=
  fun _ => .ok ()

theorem sayAll (events : List Log.Event) : FailsOnly P (Run.sayAll events) := fun _ => .ok ()

theorem isStopped : FailsOnly P Run.isStopped := fun t => .ok t.stopped

theorem now : FailsOnly P Run.now := fun t => .ok t.now

theorem exchange (request : Request) : FailsOnly P (Run.exchange request) :=
  fun t => .ok (t.exchange request).1

theorem waitUntil {σ : Type} {p : Poll} {w : Watch σ}
    (hlook : ∀ s, Except.FailsOnly P (w.look s).1) (hcancelled : P (.cancelled p.resource))
    (hpolling : ∀ fault status, P (.polling p.resource fault status))
    (deadline : Option Duration) (looks : Nat) (s : σ) :
    ∀ result, (p.waitUntil w deadline looks s).1 = some result → Except.FailsOnly P result := by
  intro result h
  induction looks generalizing s with
  | zero => cases h
  | succ looks ih =>
    rw [Poll.waitUntil] at h
    split at h
    · cases h
      exact .error hcancelled
    · have hstep := hlook s
      split at h
      · next e after hl =>
        cases h
        rw [hl] at hstep
        exact hstep
      · split at h
        · cases h
          exact .ok _
        · cases h
          exact .error (hpolling _ _)
        · exact ih _ h

theorem poll {p : Poll} {look : Run String} (hlook : FailsOnly P look)
    (hcancelled : P (.cancelled p.resource))
    (hpolling : ∀ fault status, P (.polling p.resource fault status)) :
    FailsOnly P (Run.poll p look) := by
  intro t
  have hwait := waitUntil (w := watch look) hlook hcancelled hpolling (Poll.later? t.now p.timeout)
    (t.replies.length + 1) t
  unfold Run.poll ExceptT.mk ExceptT.run
  dsimp only
  split
  · next result after hw =>
    refine hwait result ?_
    change (p.wait (watch look) (t.replies.length + 1) t).1 = some result
    rw [hw]
  · exact .error (hpolling _ _)

end FailsOnly

end SwaggerProvider.Http.Run

namespace SwaggerProvider

open Http (Run)

theorem send_of_stopped {c : Client} {call : Call} {t : Http.Timeline} (h : t.stopped = true) :
    (c.send call).run t = (.error (.cancelled call.resource), t) :=
  Run.run_bind_ok (Run.run_isStopped h)

end SwaggerProvider
