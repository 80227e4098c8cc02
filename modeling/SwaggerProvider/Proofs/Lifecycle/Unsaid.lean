import SwaggerProvider.Proofs.Lifecycle.Runs

/-!
What has been said so far makes no difference to a call: it is answered in the same way, at the same
time and with the same requests.
-/

set_option autoImplicit false

namespace SwaggerProvider

namespace Http

def Timeline.Like (t u : Timeline) : Prop := ∃ events, u = { t with events := events }

namespace Timeline.Like

variable {t u v : Timeline}

theorem refl (t : Timeline) : t.Like t := ⟨t.events, rfl⟩

theorem say (t : Timeline) (events : List Log.Event) : t.Like (t.say events) :=
  ⟨t.events ++ events, rfl⟩

theorem symm (h : t.Like u) : u.Like t := by
  obtain ⟨events, rfl⟩ := h
  exact ⟨t.events, rfl⟩

theorem trans (h : t.Like u) (h' : u.Like v) : t.Like v := by
  obtain ⟨events, rfl⟩ := h
  obtain ⟨later, rfl⟩ := h'
  exact ⟨later, rfl⟩

theorem now_eq (h : t.Like u) : t.now = u.now := by
  obtain ⟨events, rfl⟩ := h
  rfl

theorem replies_eq (h : t.Like u) : t.replies = u.replies := by
  obtain ⟨events, rfl⟩ := h
  rfl

theorem sent_eq (h : t.Like u) : t.sent = u.sent := by
  obtain ⟨events, rfl⟩ := h
  rfl

theorem wait (h : t.Like u) (d : Duration) : (t.wait d).Like (u.wait d) := by
  obtain ⟨events, rfl⟩ := h
  exact ⟨events, rfl⟩

theorem exchange (h : t.Like u) (request : Request) :
    (t.exchange request).1 = (u.exchange request).1 ∧
      (t.exchange request).2.Like (u.exchange request).2 := by
  obtain ⟨events, rfl⟩ := h
  unfold Timeline.exchange
  cases hr : t.replies with
  | nil => exact ⟨rfl, events, rfl⟩
  | cons reply rest =>
    dsimp only
    split
    · exact ⟨rfl, events, rfl⟩
    · exact ⟨rfl, events, rfl⟩

end Timeline.Like

namespace Run

variable {α β : Type}

def Heedless (x : Run α) : Prop :=
  ∀ t u : Timeline, t.Like u → (x.run t).1 = (x.run u).1 ∧ (x.run t).2.Like (x.run u).2

namespace Heedless

theorem pure (a : α) : Heedless (pure a : Run α) := fun _ _ h => ⟨rfl, h⟩

theorem throw (e : Error) : Heedless (throw e : Run α) := fun _ _ h => ⟨rfl, h⟩

theorem throw_bind (e : Error) (f : α → Run β) :
    Heedless (MonadExcept.throw e >>= f : Run β) := fun _ _ h => ⟨rfl, h⟩

theorem lift (x : Except Error α) : Heedless (x : Run α) := fun _ _ h => ⟨rfl, h⟩

theorem sayAll (events : List Log.Event) : Heedless (Run.sayAll events) := by
  rintro t u ⟨said, rfl⟩
  exact ⟨rfl, said ++ events, rfl⟩

theorem say (level : Log.Level) (text : String) : Heedless (Run.say level text) :=
  sayAll [⟨level, text⟩]

theorem isStopped : Heedless Run.isStopped := by
  rintro t u ⟨said, rfl⟩
  exact ⟨rfl, said, rfl⟩

theorem now : Heedless Run.now := by
  rintro t u ⟨said, rfl⟩
  exact ⟨rfl, said, rfl⟩

theorem exchange (request : Request) : Heedless (Run.exchange request) := by
  intro t u h
  obtain ⟨houtcome, hlike⟩ := h.exchange request
  exact ⟨congrArg Except.ok houtcome, hlike⟩

theorem bind {x : Run α} {f : α → Run β} (hx : Heedless x) (hf : ∀ a, Heedless (f a)) :
    Heedless (x >>= f) := by
  intro t u h
  obtain ⟨hresult, hlike⟩ := hx t u h
  rw [run_bind, run_bind]
  cases hrun : x.run t with
  | mk result done =>
    cases hother : x.run u with
    | mk other after =>
      rw [hrun, hother] at hresult hlike
      obtain rfl : result = other := hresult
      cases result with
      | ok a => exact hf a done after hlike
      | error e => exact ⟨rfl, hlike⟩

end Heedless

end Run

end Http

open Http.Run (Heedless)

theorem refresh_heedless (url token : String) : Heedless (Security.refresh url token) := by
  refine .bind (.say _ _) fun _ => .bind (.lift _) fun request => .bind (.exchange request) ?_
  intro outcome
  split
  · exact .lift _
  · exact .lift _

theorem credential_heedless (choice : Security.Choice) :
    Heedless (Security.credential choice) := by
  obtain ⟨d, value⟩ := choice
  unfold Security.credential
  dsimp only
  cases d.scheme with
  | keyHeader header => exact .pure _
  | keyQuery parameter => exact .pure _
  | bearerHeader header => exact .pure _
  | bearerQuery parameter => exact .pure _
  | refreshToken header url => exact .bind (refresh_heedless _ _) fun token => .pure _

theorem credentials_heedless (choices : List Security.Choice) :
    Heedless (Security.credentials choices) := by
  induction choices with
  | nil => exact .pure _
  | cons choice rest ih =>
    exact .bind (.say _ _) fun _ => .bind (credential_heedless choice) fun first =>
      .bind ih fun more => .pure _

theorem send_heedless (c : Client) (call : Call) : Heedless (c.send call) := by
  refine .bind .isStopped fun stopped => ?_
  cases stopped with
  | true => exact .throw_bind _ _
  | false =>
    refine .bind (.bind (.lift _) fun choices => credentials_heedless choices) fun credentials => ?_
    refine .bind (.lift _) fun request => .bind (.sayAll _) fun _ => ?_
    refine .bind .isStopped fun stopped => ?_
    cases stopped with
    | true => exact .throw_bind _ _
    | false =>
      refine .bind .now fun start => .bind (.exchange request) fun outcome => ?_
      cases outcome with
      | stopped => exact .throw _
      | late r => exact .throw _
      | noResponse => exact .lift _
      | response r =>
        dsimp only
        split
        · exact .lift _
        · exact .bind .now fun finish => .bind (.sayAll _) fun _ => .pure _

end SwaggerProvider
