import SwaggerProvider.Poll

/-!
When a wait for a status succeeds. Pending statuses are seen, each of them so early that the next
look still comes in time, and then an awaited one. The number of looks that a wait is given does
not matter, if every look uses something up that there is less of than looks.
-/

set_option autoImplicit false

namespace SwaggerProvider

variable {σ τ : Type}

/-- A way of looking at something: the statuses that are shown, and the time that passes. -/
structure Sight (σ : Type) where
  now : σ → Duration
  shows : σ → String → σ → Prop
  sleep : Duration → σ → σ

def Watch.sight (w : Watch σ) : Sight σ where
  now := w.now
  shows s status u := w.stopped s = false ∧ w.look s = (.ok status, u)
  sleep := w.sleep

namespace Poll

variable {p : Poll} {deadline : Option Duration}

/-- The next look, an interval later, does not come after the deadline. -/
def InTime (p : Poll) (deadline : Option Duration) (now : Duration) : Prop :=
  ∀ d, deadline = some d → ∃ next, later? now p.interval = some next ∧ next.nanos ≤ d.nanos

theorem isOver_eq_false_iff {now : Duration} :
    p.isOver deadline now = false ↔ p.InTime deadline now := by
  unfold isOver InTime
  cases deadline with
  | none => simp
  | some d =>
    cases hnext : later? now p.interval with
    | none => simp
    | some next => simp

theorem judge_eq_reached_iff {now : Duration} {status : String} :
    p.judge deadline now status = .reached ↔ status ∈ p.targets := by
  unfold judge
  by_cases ht : status ∈ p.targets
  · simp [ht]
  · by_cases hp : status ∈ p.pending
    · cases p.isOver deadline now <;> simp [ht, hp]
    · simp [ht, hp]

theorem judge_eq_again_iff {now : Duration} {status : String} :
    p.judge deadline now status = .again ↔
      status ∉ p.targets ∧ status ∈ p.pending ∧ p.InTime deadline now := by
  rw [← isOver_eq_false_iff]
  unfold judge
  by_cases ht : status ∈ p.targets
  · simp [ht]
  · by_cases hp : status ∈ p.pending
    · cases p.isOver deadline now <;> simp [ht, hp]
    · simp [ht, hp]

/-- Looks show pending statuses in time, and the last of them shows an awaited one. -/
inductive Reaches (p : Poll) (view : Sight σ) (deadline : Option Duration) :
    σ → String → σ → Prop where
  | now {s u : σ} {status : String} (shown : view.shows s status u)
    (target : status ∈ p.targets) : Reaches p view deadline s status u
  | later {s u v : σ} {status last : String} (shown : view.shows s status u)
    (other : status ∉ p.targets) (pending : status ∈ p.pending)
    (inTime : p.InTime deadline (view.now u))
    (rest : Reaches p view deadline (view.sleep p.interval u) last v) :
    Reaches p view deadline s last v

theorem waitUntil_of_shown {w : Watch σ} {s u : σ} {status : String}
    (h : w.sight.shows s status u) (looks : Nat) :
    p.waitUntil w deadline (looks + 1) s =
      match p.judge deadline (w.now u) status with
      | .reached => (some (.ok status), u)
      | .failed fault => (some (.error (.polling p.resource fault status)), u)
      | .again => p.waitUntil w deadline looks (w.sleep p.interval u) := by
  obtain ⟨hrunning, hlook⟩ := h
  rw [waitUntil, hrunning, hlook]
  rfl

theorem reaches_of_waitUntil {w : Watch σ} {looks : Nat} {s v : σ} {last : String}
    (h : p.waitUntil w deadline looks s = (some (.ok last), v)) :
    p.Reaches w.sight deadline s last v := by
  induction looks generalizing s with
  | zero => cases h
  | succ looks ih =>
    by_cases hstopped : w.stopped s = true
    · rw [waitUntil, if_pos hstopped] at h
      cases h
    · have hrunning : w.stopped s = false := by simpa using hstopped
      cases hlook : w.look s with
      | mk result u =>
        cases result with
        | error e =>
          rw [waitUntil, hrunning, hlook] at h
          cases h
        | ok status =>
          have hshown : w.sight.shows s status u := ⟨hrunning, hlook⟩
          rw [waitUntil_of_shown hshown] at h
          cases hverdict : p.judge deadline (w.now u) status with
          | reached =>
            rw [hverdict] at h
            cases h
            exact .now hshown (judge_eq_reached_iff.1 hverdict)
          | failed fault =>
            rw [hverdict] at h
            cases h
          | again =>
            rw [hverdict] at h
            obtain ⟨hother, hpending, hinTime⟩ := judge_eq_again_iff.1 hverdict
            exact .later hshown hother hpending hinTime (ih h)

theorem Reaches.waitUntil_eq {w : Watch σ} {s v : σ} {last : String}
    (h : p.Reaches w.sight deadline s last v) {left : σ → Nat}
    (hlook : ∀ s status u, w.look s = (.ok status, u) → left u < left s)
    (hsleep : ∀ d s, left (w.sleep d s) = left s) {looks : Nat} (hlooks : left s < looks) :
    p.waitUntil w deadline looks s = (some (.ok last), v) := by
  induction h generalizing looks with
  | now shown target =>
    obtain ⟨n, rfl⟩ := Nat.exists_eq_succ_of_ne_zero (Nat.ne_zero_of_lt hlooks)
    rw [waitUntil_of_shown shown, judge_eq_reached_iff.2 target]
  | @later s u v status last shown other pending inTime rest ih =>
    obtain ⟨n, rfl⟩ := Nat.exists_eq_succ_of_ne_zero (Nat.ne_zero_of_lt hlooks)
    have hused := hlook s status u shown.2
    have hless : left (w.sleep p.interval u) < n := by
      rw [hsleep]
      omega
    have hverdict : p.judge deadline (w.now u) status = .again :=
      judge_eq_again_iff.2 ⟨other, pending, inTime⟩
    rw [waitUntil_of_shown shown, hverdict]
    exact ih hless

/-- What one view shows another one shows, too, where every look at the one has its like. -/
theorem Reaches.transfer {view : Sight σ} {other : Sight τ} {like : σ → τ → Prop}
    (hnow : ∀ s t, like s t → view.now s = other.now t)
    (hshows : ∀ s t status u, like s t → view.shows s status u →
      ∃ u', other.shows t status u' ∧ like u u')
    (hsleep : ∀ d s t, like s t → like (view.sleep d s) (other.sleep d t))
    {s v : σ} {t : τ} {last : String} (h : p.Reaches view deadline s last v) (hlike : like s t) :
    ∃ v', p.Reaches other deadline t last v' ∧ like v v' := by
  induction h generalizing t with
  | now shown target =>
    obtain ⟨u', hshown, hu⟩ := hshows _ _ _ _ hlike shown
    exact ⟨u', .now hshown target, hu⟩
  | later shown hother pending inTime _ ih =>
    obtain ⟨u', hshown, hu⟩ := hshows _ _ _ _ hlike shown
    obtain ⟨v', hrest, hv⟩ := ih (hsleep _ _ _ hu)
    rw [hnow _ _ hu] at inTime
    exact ⟨v', .later hshown hother pending inTime hrest, hv⟩

end Poll

end SwaggerProvider
