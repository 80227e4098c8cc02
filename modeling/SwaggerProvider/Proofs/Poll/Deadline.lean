import SwaggerProvider.Proofs.Poll.Reaching

/-!
How a wait for a status ends, on a clock that only looks and sleeps move. Look follows look, one
interval after the end of the last one, until one of them shows an awaited status, shows a status
that is neither awaited nor pending, fails, or leaves no time for the next one. No look begins after
the deadline, so there are at most as many as intervals fit into the timeout, and one more.
-/

set_option autoImplicit false

namespace SwaggerProvider

def Duration.Shown (t : Duration) : Prop := t.seconds < Nat.pow 2 63

instance (t : Duration) : Decidable t.Shown := Nat.decLt _ _

namespace Poll

theorem later?_eq_some {now d t : Duration} :
    later? now d = some t ↔ (now + d).Shown ∧ now + d = t := by
  unfold later?
  by_cases h : (now + d).seconds < Nat.pow 2 63
  · rw [if_pos h, Option.some.injEq]
    exact (and_iff_right h).symm
  · rw [if_neg h]
    exact iff_of_false (Option.some_ne_none t).symm fun ht => h ht.1

section Looks

variable (p : Poll) (looks : Nat → Look) (start : Duration)

/-- When a look begins, if every look before it is followed by another one. -/
def begins : Nat → Duration
  | 0 => start
  | n + 1 => begins n + (looks n).took + p.interval

def deadline : Duration := start + p.timeout

/-- The look shows a pending status, and the next one does not begin after the deadline. A deadline
that the clock cannot show never passes. -/
def Passes (n : Nat) : Prop :=
  ∃ status, (looks n).result = .ok status ∧ status ∉ p.targets ∧ status ∈ p.pending ∧
    ((p.deadline start).Shown →
      (p.begins looks start (n + 1)).nanos ≤ (p.deadline start).nanos)

/-- What a wait comes to when it ends with a look. -/
inductive EndsWith (n : Nat) : Except Error String → Prop where
  | reached {status : String} (shown : (looks n).result = .ok status)
    (target : status ∈ p.targets) : EndsWith n (.ok status)
  | unexpected {status : String} (shown : (looks n).result = .ok status)
    (other : status ∉ p.targets) (strange : status ∉ p.pending) :
    EndsWith n (.error (.polling p.resource (.unexpected p.targets p.pending) status))
  | late {status : String} (shown : (looks n).result = .ok status) (other : status ∉ p.targets)
    (pending : status ∈ p.pending) (finite : (p.deadline start).Shown)
    (passed : (p.deadline start).nanos < (p.begins looks start (n + 1)).nanos) :
    EndsWith n (.error (.polling p.resource (.timedOut p.timeout) status))
  | broken {e : Error} (failed : (looks n).result = .error e) : EndsWith n (.error e)

def Arrives (n : Nat) : Prop := ∀ i < n, p.Passes looks start i

end Looks

variable {p : Poll} {looks : Nat → Look} {start : Duration} {n : Nat}

theorem inTime_iff :
    p.InTime (later? start p.timeout) (p.begins looks start n + (looks n).took) ↔
      ((p.deadline start).Shown →
        (p.begins looks start (n + 1)).nanos ≤ (p.deadline start).nanos) := by
  constructor
  · intro h hfinite
    obtain ⟨next, hnext, hle⟩ := h _ (later?_eq_some.2 ⟨hfinite, rfl⟩)
    rw [← (later?_eq_some.1 hnext).2] at hle
    exact hle
  · intro h d hd
    obtain ⟨hfinite, rfl⟩ := later?_eq_some.1 hd
    have hle := h hfinite
    have hnext : (p.begins looks start (n + 1)).Shown :=
      Nat.lt_of_le_of_lt (Nat.div_le_div_right hle) hfinite
    exact ⟨_, later?_eq_some.2 ⟨hnext, rfl⟩, hle⟩

theorem passes_or_endsWith (p : Poll) (looks : Nat → Look) (start : Duration) (n : Nat) :
    p.Passes looks start n ∨ ∃ result, p.EndsWith looks start n result := by
  cases hlook : (looks n).result with
  | error e => exact .inr ⟨_, .broken hlook⟩
  | ok status =>
    by_cases htarget : status ∈ p.targets
    · exact .inr ⟨_, .reached hlook htarget⟩
    by_cases hpending : status ∈ p.pending
    · by_cases htime : (p.deadline start).Shown →
          (p.begins looks start (n + 1)).nanos ≤ (p.deadline start).nanos
      · exact .inl ⟨status, hlook, htarget, hpending, htime⟩
      · obtain ⟨hfinite, hover⟩ := Classical.not_imp.1 htime
        exact .inr ⟨_, .late hlook htarget hpending hfinite (Nat.lt_of_not_le hover)⟩
    · exact .inr ⟨_, .unexpected hlook htarget hpending⟩

def clockAt (p : Poll) (looks : Nat → Look) (start : Duration) (n : Nat) : LookClock :=
  ⟨p.begins looks start n, n⟩

def clockAfter (p : Poll) (looks : Nat → Look) (start : Duration) (n : Nat) : LookClock :=
  ⟨p.begins looks start n + (looks n).took, n + 1⟩

theorem waitUntil_of_look {status : String} (h : (looks n).result = .ok status) (k : Nat) :
    p.waitUntil (LookClock.watch looks none) (later? start p.timeout) (k + 1)
        (p.clockAt looks start n) =
      match p.judge (later? start p.timeout) (p.clockAfter looks start n).now status with
      | .reached => (some (.ok status), p.clockAfter looks start n)
      | .failed fault =>
        (some (.error (.polling p.resource fault status)), p.clockAfter looks start n)
      | .again =>
        p.waitUntil (LookClock.watch looks none) (later? start p.timeout) k
          (p.clockAt looks start (n + 1)) := by
  have hshown : (LookClock.watch looks none).sight.shows (p.clockAt looks start n) status
      (p.clockAfter looks start n) := ⟨rfl, by rw [← h]; rfl⟩
  exact waitUntil_of_shown hshown k

theorem waitUntil_of_passes (h : p.Passes looks start n) (k : Nat) :
    p.waitUntil (LookClock.watch looks none) (later? start p.timeout) (k + 1)
        (p.clockAt looks start n) =
      p.waitUntil (LookClock.watch looks none) (later? start p.timeout) k
        (p.clockAt looks start (n + 1)) := by
  obtain ⟨status, hlook, hother, hpending, htime⟩ := h
  have hverdict : p.judge (later? start p.timeout) (p.clockAfter looks start n).now status =
      .again := judge_eq_again_iff.2 ⟨hother, hpending, inTime_iff.2 htime⟩
  rw [waitUntil_of_look hlook, hverdict]

theorem judge_of_strange {deadline : Option Duration} {now : Duration} {status : String}
    (hother : status ∉ p.targets) (hstrange : status ∉ p.pending) :
    p.judge deadline now status = .failed (.unexpected p.targets p.pending) := by
  simp [judge, hother, hstrange]

theorem judge_of_late {deadline : Option Duration} {now : Duration} {status : String}
    (hother : status ∉ p.targets) (hpending : status ∈ p.pending)
    (hlate : ¬p.InTime deadline now) :
    p.judge deadline now status = .failed (.timedOut p.timeout) := by
  have hover : p.isOver deadline now = true := by
    rw [← isOver_eq_false_iff] at hlate
    simpa using hlate
  simp [judge, hother, hpending, hover]

theorem waitUntil_of_endsWith {result : Except Error String}
    (h : p.EndsWith looks start n result) (k : Nat) :
    p.waitUntil (LookClock.watch looks none) (later? start p.timeout) (k + 1)
        (p.clockAt looks start n) = (some result, p.clockAfter looks start n) := by
  cases h with
  | reached shown target =>
    rw [waitUntil_of_look shown, judge_eq_reached_iff.2 target]
  | unexpected shown other strange =>
    rw [waitUntil_of_look shown, judge_of_strange other strange]
  | late shown other pending finite passed =>
    have hlate : ¬p.InTime (later? start p.timeout) (p.clockAfter looks start n).now := by
      intro h
      exact absurd (inTime_iff.1 h finite) (Nat.not_le_of_lt passed)
    rw [waitUntil_of_look shown, judge_of_late other pending hlate]
  | @broken e failed =>
    have hlook : (LookClock.watch looks none).look (p.clockAt looks start n) =
        (.error e, p.clockAfter looks start n) := by
      rw [← failed]
      rfl
    rw [waitUntil, hlook]
    rfl

theorem waitUntil_of_arrives (h : p.Arrives looks start n) (k : Nat) :
    p.waitUntil (LookClock.watch looks none) (later? start p.timeout) (n + k)
        (p.clockAt looks start 0) =
      p.waitUntil (LookClock.watch looks none) (later? start p.timeout) k
        (p.clockAt looks start n) := by
  induction n generalizing k with
  | zero => rw [Nat.zero_add]
  | succ n ih =>
    have hbefore : p.Arrives looks start n := fun i hi => h i (Nat.lt_succ_of_lt hi)
    rw [Nat.succ_add_eq_add_succ, ih hbefore, waitUntil_of_passes (h n n.lt_succ_self)]

/-- Either all looks pass, or there is a first one that ends the wait. -/
theorem arrives_or_ends (p : Poll) (looks : Nat → Look) (start : Duration) (k : Nat) :
    p.Arrives looks start k ∨
      ∃ n < k, p.Arrives looks start n ∧ ∃ result, p.EndsWith looks start n result := by
  induction k with
  | zero => exact .inl fun i hi => absurd hi i.not_lt_zero
  | succ k ih =>
    rcases ih with harrives | ⟨n, hn, hend⟩
    · rcases passes_or_endsWith p looks start k with hpass | hend
      · refine .inl fun i hi => ?_
        rcases Nat.lt_succ_iff_lt_or_eq.1 hi with hi | rfl
        · exact harrives i hi
        · exact hpass
      · exact .inr ⟨k, k.lt_succ_self, harrives, hend⟩
    · exact .inr ⟨n, Nat.lt_succ_of_lt hn, hend⟩

theorem wait_of_arrives (h : p.Arrives looks start n) :
    p.wait (LookClock.watch looks none) n ⟨start, 0⟩ = (none, p.clockAt looks start n) :=
  waitUntil_of_arrives h 0

theorem wait_of_endsWith {result : Except Error String} (harrives : p.Arrives looks start n)
    (hend : p.EndsWith looks start n result) {k : Nat} (hk : n < k) :
    p.wait (LookClock.watch looks none) k ⟨start, 0⟩ =
      (some result, p.clockAfter looks start n) := by
  obtain ⟨more, rfl⟩ := Nat.exists_eq_add_of_lt hk
  exact (waitUntil_of_arrives harrives (more + 1)).trans (waitUntil_of_endsWith hend more)

theorem wait_eq_some_iff {k : Nat} {result : Except Error String} {c : LookClock} :
    p.wait (LookClock.watch looks none) k ⟨start, 0⟩ = (some result, c) ↔
      ∃ n < k, p.Arrives looks start n ∧ p.EndsWith looks start n result ∧
        c = p.clockAfter looks start n := by
  constructor
  · intro h
    rcases arrives_or_ends p looks start k with harrives | ⟨n, hn, harrives, other, hend⟩
    · rw [wait_of_arrives harrives] at h
      cases h
    · rw [wait_of_endsWith harrives hend hn] at h
      cases h
      exact ⟨n, hn, harrives, hend, rfl⟩
  · rintro ⟨n, hn, harrives, hend, rfl⟩
    exact wait_of_endsWith harrives hend hn

theorem mul_le_begins (p : Poll) (looks : Nat → Look) (start : Duration) (n : Nat) :
    start.nanos + n * p.interval.nanos ≤ (p.begins looks start n).nanos := by
  induction n with
  | zero => simp [begins]
  | succ n ih =>
    have hnext : (p.begins looks start (n + 1)).nanos =
        (p.begins looks start n).nanos + (looks n).took.nanos + p.interval.nanos := rfl
    rw [Nat.succ_mul]
    omega

theorem begins_le_deadline (h : p.Arrives looks start n) (hn : 0 < n)
    (hshown : (p.deadline start).Shown ∨ (p.begins looks start n).Shown) :
    (p.begins looks start n).nanos ≤ (p.deadline start).nanos := by
  obtain ⟨m, rfl⟩ := Nat.exists_eq_succ_of_ne_zero (Nat.ne_zero_of_lt hn)
  by_cases hfinite : (p.deadline start).Shown
  · obtain ⟨_, _, _, _, htime⟩ := h m m.lt_succ_self
    exact htime hfinite
  · have hbegins := hshown.resolve_left hfinite
    unfold Duration.Shown Duration.seconds at hfinite hbegins
    omega

theorem le_div_of_arrives (h : p.Arrives looks start n) (hinterval : 0 < p.interval.nanos)
    (hfinite : (p.deadline start).Shown) : n ≤ p.timeout.nanos / p.interval.nanos := by
  rw [Nat.le_div_iff_mul_le hinterval]
  rcases Nat.eq_zero_or_pos n with rfl | hn
  · simp
  · have hlast := begins_le_deadline h hn (.inl hfinite)
    have hslept := mul_le_begins p looks start n
    have hdeadline : (p.deadline start).nanos = start.nanos + p.timeout.nanos := rfl
    omega

/-- A wait succeeds with an awaited status that a look shows after pending ones, each of them so
early that the next look is in time. It ends with a failure otherwise: at the first status that is
neither, when a look fails, or when the next look would come after the deadline. -/
theorem wait_outcome (p : Poll) (looks : Nat → Look) (start : Duration) :
    (∀ status, (∃ k c, p.wait (LookClock.watch looks none) k ⟨start, 0⟩ = (some (.ok status), c)) ↔
      ∃ n, (looks n).result = .ok status ∧ status ∈ p.targets ∧ ∀ i < n, p.Passes looks start i) ∧
    (∀ k result c, p.wait (LookClock.watch looks none) k ⟨start, 0⟩ = (some result, c) ↔
      ∃ n < k, (∀ i < n, p.Passes looks start i) ∧ p.EndsWith looks start n result ∧
        c = ⟨p.begins looks start n + (looks n).took, n + 1⟩) ∧
    (∀ n, 0 < n → (∀ i < n, p.Passes looks start i) →
      (p.deadline start).Shown ∨ (p.begins looks start n).Shown →
      (p.begins looks start n).nanos ≤ (p.deadline start).nanos) ∧
    (0 < p.interval.nanos → (p.deadline start).Shown →
      ∃ result c, c.looks ≤ 1 + p.timeout.nanos / p.interval.nanos ∧
        ∀ k, c.looks ≤ k →
          p.wait (LookClock.watch looks none) k ⟨start, 0⟩ = (some result, c)) ∧
    (¬(p.deadline start).Shown → ∀ k e c,
      p.wait (LookClock.watch looks none) k ⟨start, 0⟩ = (some (.error e), c) →
      (∃ n, (looks n).result = .error e) ∨ ∃ status,
        e = .polling p.resource (.unexpected p.targets p.pending) status) := by
  refine ⟨fun status => ?_, fun k result c => wait_eq_some_iff,
    fun n hn harrives hshown => begins_le_deadline harrives hn hshown, ?_, ?_⟩
  · constructor
    · rintro ⟨k, c, h⟩
      obtain ⟨n, -, harrives, hend, -⟩ := wait_eq_some_iff.1 h
      cases hend with
      | reached shown target => exact ⟨n, shown, target, harrives⟩
    · rintro ⟨n, hlook, htarget, harrives⟩
      exact ⟨n + 1, _, wait_of_endsWith harrives (.reached hlook htarget) n.lt_succ_self⟩
  · intro hinterval hfinite
    have hmost := fun n (h : p.Arrives looks start n) => le_div_of_arrives h hinterval hfinite
    rcases arrives_or_ends p looks start (p.timeout.nanos / p.interval.nanos + 1) with
      harrives | ⟨n, hn, harrives, result, hend⟩
    · have := hmost _ harrives
      omega
    · have hfew : n + 1 ≤ 1 + p.timeout.nanos / p.interval.nanos := by
        have := hmost n harrives
        omega
      exact ⟨result, p.clockAfter looks start n, hfew,
        fun k hk => wait_of_endsWith harrives hend hk⟩
  · intro hinfinite k e c h
    obtain ⟨n, -, -, hend, -⟩ := wait_eq_some_iff.1 h
    cases hend with
    | unexpected => exact .inr ⟨_, rfl⟩
    | late _ _ _ finite _ => exact absurd finite hinfinite
    | broken failed => exact .inl ⟨n, failed⟩

def creation : Poll :=
  ⟨"cdns_v1", ["deployed"], ["creating"], .ofSeconds 12, .ofSeconds 5⟩

/-- Three looks fit into twelve seconds when five pass between them. -/
theorem wait_outcome_creation :
    creation.wait (LookClock.watch (fun _ => ⟨.ok "creating", ⟨0⟩⟩) none) 3 .start =
      (some (.error (.polling "cdns_v1" (.timedOut (.ofSeconds 12)) "creating")),
        ⟨.ofSeconds 10, 3⟩) := by
  refine ((wait_outcome creation _ ⟨0⟩).2.1 3 _ _).2 ⟨2, by decide, fun i hi => ?_, ?_, by decide⟩
  · refine ⟨"creating", rfl, by decide, by decide, fun _ => ?_⟩
    have hi : i = 0 ∨ i = 1 := by omega
    rcases hi with rfl | rfl <;> decide
  · exact .late rfl (by decide) (by decide) (by decide) (by decide)

end Poll

end SwaggerProvider
