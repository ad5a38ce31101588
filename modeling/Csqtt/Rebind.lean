/-
Soft handover: the rebind epoch and the sessions that watch it.

`rebind::request` bumps the process-wide `EPOCH`; a session looks at it twice.
`run_session` captures it before `TurnAllocation::connect` is polled and watches
it while the connection is being built, `run_allocated_session` captures it
again after `register` and watches the new value in its select loop.  Between
the two nobody looks.  The steps of any number of sessions interleave freely
with any number of requests.

* `lost_handover` — a run in which a session built on the old network waits in
  its loop and sees no difference between its epoch and `EPOCH`;
* `no_lost_handover_iff` — a run has no such state exactly when no request
  falls between the opening of a session's socket and its second capture (and
  no waiting session is overtaken by a full turn of the 64-bit counter).
-/
import Csqtt.TransitionRun
import Mathlib.Logic.Function.Basic

open Transition

namespace Csqtt.Rebind

/-- Where a session stands in `run_session` and `run_allocated_session`.
`openedAt` is a ghost: how many requests had been made when its TURN socket was
opened. -/
inductive Phase where
  | idle
  | connecting (rebindEpoch : BitVec 64) (openedAt : Option ℕ)
  | preparing (openedAt : ℕ)
  | configuring (openedAt : ℕ)
  | configured (openedAt : ℕ)
  | registered (openedAt : ℕ)
  | steady (rebindEpoch : BitVec 64) (openedAt : ℕ)
  deriving DecidableEq, Repr

def Phase.openedAt : Phase → Option ℕ
  | .idle => none
  | .connecting _ k => k
  | .preparing k | .configuring k | .configured k | .registered k | .steady _ k => some k

inductive SessionLabel where
  | begin
  | openSocket
  | allocated
  | rebindWhileConnecting
  | channelBound
  | configured
  | register
  | captureEpoch
  | rebindInLoop
  | leave
  deriving DecidableEq, Repr

inductive Label where
  | request
  | session (id : ℕ) (label : SessionLabel)
  deriving DecidableEq, Repr

structure State where
  /-- `EPOCH`. -/
  epoch : BitVec 64
  /-- Ghost: the number of `rebind::request` calls so far. -/
  requests : ℕ
  session : ℕ → Phase

def State.init : State := ⟨0, 0, fun _ => .idle⟩

/-- One step of a session.  The select of `run_session` is biased: a finished
connect is taken (`allocated`) whether or not the epoch has moved, and `connect`
may open a socket more than once before it succeeds. -/
def sessionStep (s : State) : SessionLabel → Phase → Option Phase
  | .begin, .idle => some (.connecting s.epoch none)
  | .openSocket, .connecting seen _ => some (.connecting seen (some s.requests))
  | .allocated, .connecting _ (some k) => some (.preparing k)
  | .rebindWhileConnecting, .connecting seen _ => if s.epoch ≠ seen then some .idle else none
  | .channelBound, .preparing k => some (.configuring k)
  | .configured, .configuring k => some (.configured k)
  | .register, .configured k => some (.registered k)
  | .captureEpoch, .registered k => some (.steady s.epoch k)
  | .rebindInLoop, .steady seen _ => if s.epoch ≠ seen then some .idle else none
  | .leave, .idle => none
  -- cancellation, a failed connect, bind or configuration, a dead writer or reader
  | .leave, _ => some .idle
  | _, _ => none

def step (s : State) : Label → Option State
  | .request => some { s with epoch := s.epoch + 1, requests := s.requests + 1 }
  | .session id label =>
    (sessionStep s label (s.session id)).map fun phase =>
      { s with session := Function.update s.session id phase }

/-- A session waits in its loop for a change that has already come: its socket
is older than the last request, and the epoch it watches is the current one. -/
def Lost (s : State) : Prop :=
  ∃ id k, s.session id = .steady s.epoch k ∧ k < s.requests

/-- No request since the session's socket was opened when it captures the epoch
of its loop; no request that brings `EPOCH` back to a value somebody waits on. -/
def Timely (s : State) : Label → Prop
  | .session id .captureEpoch => ∀ k, (s.session id).openedAt = some k → k = s.requests
  | .session _ _ => True
  | .request => ∀ id k, s.session id ≠ .steady (s.epoch + 1) k

/-- Sockets are opened before the requests still to come. -/
def SocketsInPast (s : State) : Prop :=
  ∀ id k, (s.session id).openedAt = some k → k ≤ s.requests

/-- Only `captureEpoch` enters the loop, and a socket is as old as it was or new. -/
theorem sessionStep_cases {s : State} {l : SessionLabel} {p q : Phase}
    (h : sessionStep s l p = some q) :
    (l = .captureEpoch ∧ ∃ k, p = .registered k ∧ q = .steady s.epoch k) ∨
      (l ≠ .captureEpoch ∧ (∀ seen k, q ≠ .steady seen k) ∧
        ∀ k, q.openedAt = some k → p.openedAt = some k ∨ k = s.requests) := by
  unfold sessionStep at h
  split at h <;> try split at h
  all_goals first
    | contradiction
    | (obtain rfl := Option.some_inj.mp h
       first
         | exact .inl ⟨rfl, _, rfl, rfl⟩
         | exact .inr ⟨nofun, nofun, fun k hk => by simp_all [Phase.openedAt]⟩)

theorem socketsInPast_step (s : State) (l : Label) (s' : State) (hs : SocketsInPast s)
    (h : step s l = some s') : SocketsInPast s' := by
  cases l with
  | request =>
    obtain rfl := Option.some_inj.mp h
    intro id k hk
    have := hs id k hk
    show k ≤ s.requests + 1
    omega
  | session id label =>
    obtain ⟨q, hq, rfl⟩ := Option.map_eq_some_iff.mp h
    intro j k hk
    change (Function.update s.session id q j).openedAt = some k at hk
    show k ≤ s.requests
    by_cases hj : j = id
    · subst hj
      rw [Function.update_self] at hk
      rcases sessionStep_cases hq with ⟨_, k', hp, rfl⟩ | ⟨_, _, hopen⟩
      · exact hs j k (by rw [hp]; exact hk)
      · rcases hopen k hk with hp | rfl
        · exact hs j k hp
        · exact Nat.le_refl _
    · rw [Function.update_of_ne hj] at hk
      exact hs j k hk

/-- A request loses a session exactly when the counter comes full circle. -/
theorem not_lost_request_iff {s : State} (hs : SocketsInPast s) :
    ¬ Lost { s with epoch := s.epoch + 1, requests := s.requests + 1 } ↔ Timely s .request := by
  constructor
  · intro hl id k hk
    have hle : k ≤ s.requests := hs id k (by rw [hk]; rfl)
    exact hl ⟨id, k, hk, Nat.lt_succ_of_le hle⟩
  · rintro ht ⟨id, k, hk, _⟩
    exact ht id k hk

theorem not_lost_step_iff (s : State) (l : Label) (s' : State) (hs : SocketsInPast s)
    (hl : ¬ Lost s) (h : step s l = some s') : ¬ Lost s' ↔ Timely s l := by
  cases l with
  | request =>
    obtain rfl := Option.some_inj.mp h
    exact not_lost_request_iff hs
  | session id label =>
    obtain ⟨q, hq, rfl⟩ := Option.map_eq_some_iff.mp h
    -- only the session that moved can become lost
    have hlost : Lost { s with session := Function.update s.session id q } ↔
        ∃ k, q = .steady s.epoch k ∧ k < s.requests := by
      constructor
      · rintro ⟨j, k, hj, hk⟩
        by_cases hji : j = id
        · subst hji
          exact ⟨k, (Function.update_self ..).symm.trans hj, hk⟩
        · exact absurd ⟨j, k, (Function.update_of_ne hji ..).symm.trans hj, hk⟩ hl
      · rintro ⟨k, rfl, hk⟩
        exact ⟨id, k, Function.update_self .., hk⟩
    rw [hlost]
    rcases sessionStep_cases hq with ⟨rfl, k, hp, rfl⟩ | ⟨hne, hq', _⟩
    · have hle : k ≤ s.requests := hs id k (by rw [hp]; rfl)
      constructor
      · intro hk k' hk'
        rw [hp] at hk'
        obtain rfl : k = k' := Option.some_inj.mp hk'
        by_contra hlt
        exact hk ⟨k, rfl, by omega⟩
      · rintro ht ⟨k', hk', hlt⟩
        obtain ⟨_, rfl⟩ := Phase.steady.inj hk'
        have : k = s.requests := ht k (by rw [hp]; rfl)
        omega
    · refine ⟨fun _ => ?_, fun _ ⟨k, hk, _⟩ => hq' _ k hk⟩
      cases label <;> trivial

/-- The handover is noticed along a run exactly when every step of it is timely. -/
theorem no_lost_handover_iff (labels : List Label) :
    Always step (fun s => ¬ Lost s) State.init labels ↔ Admits step Timely State.init labels :=
  always_iff_admits socketsInPast_step not_lost_step_iff
    (fun _ _ h => absurd h (by simp [State.init, Phase.openedAt]))
    (fun ⟨_, _, h, _⟩ => absurd h (by simp [State.init]))

/-- The phone changes networks while the session binds its channel. -/
def handoverDuringBind : List Label :=
  [.session 0 .begin, .session 0 .openSocket, .session 0 .allocated, .request,
    .session 0 .channelBound, .session 0 .configured, .session 0 .register,
    .session 0 .captureEpoch]

theorem lost_handover : ∃ s, run step State.init handoverDuringBind = some s ∧ Lost s :=
  ⟨_, rfl, 0, 0, rfl, by decide⟩

end Csqtt.Rebind
