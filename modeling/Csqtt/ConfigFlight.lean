/-
The flight of the configuration request.

Of all workers one at a time asks the server for the configuration.  It takes the flag
`in_flight` before its session, and the flag is given back twice: by `complete`, when the
exchange is over, and by the drop of the guard, when the session is.  In between another
worker may have taken it.  The configuration goes to a bounded channel, and `sent` is set
whether the channel has taken it or not.

Every step here is one atomic access or one call on the channel, and the steps of the
workers come in any order.

* `one_in_flight_iff` — one request at a time, and nothing recorded as sent that was not,
  exactly in the runs without a late drop and without a lost configuration.
-/
import Csqtt.TransitionRun
import Mathlib.Logic.Function.Basic
import Mathlib.Data.Int.Notation

namespace Csqtt.ConfigFlight

/-- The capacity of the channel `config_tx`. -/
def configCapacity : ℕ := 32

/-- Where a worker is. -/
inductive Phase where
  /-- Before `ConfigFlightGuard::acquire`. -/
  | idle
  /-- It has read `sent`, which was not set. -/
  | loaded
  /-- It has the flight and waits for the answer. -/
  | flying
  /-- It has handed the configuration to the channel, which has taken it or not. -/
  | answered (put : Bool)
  /-- In `complete`, after the store to `sent`. -/
  | marked
  /-- It got no configuration, or an error. -/
  | refused
  /-- `complete` is over; the session goes on, or fails. -/
  | flown
  /-- Its session runs without the flight. -/
  | passing
  /-- Its session has ended and the guard is dropped. -/
  | ended
  deriving DecidableEq, Repr

/-- It has acquired the flight and has neither completed nor ended. -/
def Phase.inFlight : Phase → Bool
  | .flying | .answered _ | .marked | .refused => true
  | .idle | .loaded | .flown | .passing | .ended => false

/-- What the workers share. -/
structure Shared where
  sent : Bool := false
  inFlight : Bool := false
  /-- The configurations in the channel. -/
  queued : ℕ := 0
  receiverOpen : Bool := true
  /-- Whether the channel has taken the configuration for which `sent` was set last. -/
  put : Bool := false
  deriving DecidableEq, Repr

/-- A step of a worker. -/
inductive Action where
  /-- `acquire`: the load of `sent`. -/
  | load
  /-- `acquire`: the exchange of `in_flight`. -/
  | exchange
  /-- The server has sent a configuration: `try_send`. -/
  | answer
  /-- The server has none, or the request fails. -/
  | refuse
  /-- `complete`: the store to `sent`. -/
  | mark
  /-- `complete`: the store to `in_flight`. -/
  | complete
  /-- The session is over, and the guard is dropped. -/
  | drop
  /-- The swap of `sent` after a full outage. -/
  | refresh (wasReady failed : Bool) (activeConnections : ℤ) (cancelled : Bool)
  deriving DecidableEq, Repr

inductive Event (ι : Type*) where
  | worker (i : ι) (action : Action)
  /-- A configuration of another session goes to the channel. -/
  | pushed
  /-- The receiver takes one. -/
  | received
  /-- The receiver is gone. -/
  | closed
  deriving DecidableEq, Repr

structure State (ι : Type*) where
  workers : ι → Phase
  shared : Shared

def shouldRefreshConfigurationAfterFullOutage (wasReady failed : Bool) (activeConnections : ℤ)
    (cancelled : Bool) : Bool :=
  wasReady && failed && activeConnections = 0 && !cancelled

namespace Shared

/-- `try_send` on the channel: whether it is taken. -/
def accepts (shared : Shared) : Bool := shared.receiverOpen && shared.queued < configCapacity

def trySend (shared : Shared) : Shared :=
  if shared.accepts then { shared with queued := shared.queued + 1 } else shared

end Shared

/-- A worker's step; none where the worker is not at it. -/
def turn (shared : Shared) : Phase → Action → Option (Shared × Phase)
  | .idle, .load => some (shared, if shared.sent then .passing else .loaded)
  | .loaded, .exchange =>
    if shared.inFlight then some (shared, .passing)
    else some ({ shared with inFlight := true }, .flying)
  | .flying, .answer => some (shared.trySend, .answered shared.accepts)
  | .flying, .refuse => some (shared, .refused)
  | .answered put, .mark => some ({ shared with sent := true, put }, .marked)
  | .marked, .complete | .refused, .complete => some ({ shared with inFlight := false }, .flown)
  -- the guard gives the flag back whether `complete` has done so or not
  | .flying, .drop | .flown, .drop => some ({ shared with inFlight := false }, .ended)
  | .passing, .drop => some (shared, .ended)
  | .ended, .refresh wasReady failed activeConnections cancelled =>
    if shouldRefreshConfigurationAfterFullOutage wasReady failed activeConnections cancelled then
      some ({ shared with sent := false }, .idle)
    else some (shared, .idle)
  | _, _ => none

section Run

variable {ι : Type*}

def start : State ι := { workers := fun _ => .idle, shared := {} }

def step [DecidableEq ι] (s : State ι) : Event ι → Option (State ι)
  | .worker i action =>
    (turn s.shared (s.workers i) action).map fun (shared, phase) =>
      { workers := Function.update s.workers i phase, shared }
  | .pushed => some { s with shared := s.shared.trySend }
  | .received => some { s with shared := { s.shared with queued := s.shared.queued - 1 } }
  | .closed => some { s with shared := { s.shared with receiverOpen := false } }

/-! ### One flight at a time -/

/-- At most one worker is in flight, and while one is the flag is set. -/
structure Exclusive (workers : ι → Phase) (inFlight : Bool) : Prop where
  unique : ∀ i j, (workers i).inFlight = true → (workers j).inFlight = true → i = j
  flag : ∀ i, (workers i).inFlight = true → inFlight = true

variable {workers : ι → Phase} {inFlight : Bool} {i : ι} {phase : Phase} {s t : State ι}
  {e : Event ι}

theorem Exclusive.others (h : Exclusive workers inFlight) (hi : (workers i).inFlight = true)
    (j : ι) (hj : j ≠ i) : (workers j).inFlight = false := by
  rw [Bool.eq_false_iff]
  intro hflight
  exact hj (h.unique j i hflight hi)

/-- With the flag free nobody is in flight. -/
theorem exclusive_false_iff : Exclusive workers false ↔ ∀ j, (workers j).inFlight = false := by
  constructor
  · intro h j
    rw [Bool.eq_false_iff]
    intro hflight
    exact Bool.false_ne_true (h.flag j hflight)
  · intro hnone
    refine ⟨?_, ?_⟩
    · intro j k hj _
      rw [hnone j] at hj
      exact absurd hj Bool.false_ne_true
    · intro j hj
      rw [hnone j] at hj
      exact absurd hj Bool.false_ne_true

/-- One request at a time, and `sent` is set for a configuration that is in the channel. -/
def Kept (s : State ι) : Prop :=
  Exclusive s.workers s.shared.inFlight ∧ (s.shared.sent = true → s.shared.put = true)

/-- The guard of a flight that is over is dropped while nobody is in flight; what is recorded
as sent was taken by the channel. -/
def Orderly (s : State ι) : Event ι → Prop
  | .worker i .drop => s.workers i = .flown → ∀ j, j ≠ i → (s.workers j).inFlight = false
  | .worker i .mark => s.workers i ≠ .answered false
  | _ => True

theorem orderly_of_other {action : Action} (hmark : action ≠ .mark)
    (hdrop : action = .drop → s.workers i ≠ .flown) : Orderly s (.worker i action) := by
  cases action with
  | mark => exact absurd rfl hmark
  | drop => exact fun hflown => absurd hflown (hdrop rfl)
  | _ => trivial

theorem kept_start : Kept (start : State ι) := by
  refine ⟨exclusive_false_iff.mpr fun _ => rfl, ?_⟩
  intro hsent
  exact absurd hsent Bool.false_ne_true

variable [DecidableEq ι]

theorem exclusive_same (h : phase.inFlight = (workers i).inFlight) :
    Exclusive (Function.update workers i phase) inFlight ↔ Exclusive workers inFlight := by
  have hsame : ∀ j, (Function.update workers i phase j).inFlight = (workers j).inFlight :=
    (Function.forall_update_iff workers fun j phase =>
      phase.inFlight = (workers j).inFlight).mpr ⟨h, fun _ _ => rfl⟩
  constructor
  · rintro ⟨hunique, hflag⟩
    simp only [hsame] at hunique hflag
    exact ⟨hunique, hflag⟩
  · rintro ⟨hunique, hflag⟩
    refine ⟨?_, ?_⟩
    · simp only [hsame]
      exact hunique
    · simp only [hsame]
      exact hflag

/-- The flag was free, so nobody is in flight. -/
theorem exclusive_acquire (h : Exclusive workers false) :
    Exclusive (Function.update workers i .flying) true := by
  have hnone : ∀ j, j ≠ i → (Function.update workers i Phase.flying j).inFlight = false := by
    intro j hj
    rw [Function.update_of_ne hj]
    exact exclusive_false_iff.mp h j
  refine ⟨?_, fun _ _ => rfl⟩
  intro j k hj hk
  have hj' : j = i := by
    by_contra hne
    rw [hnone j hne] at hj
    exact Bool.false_ne_true hj
  have hk' : k = i := by
    by_contra hne
    rw [hnone k hne] at hk
    exact Bool.false_ne_true hk
  rw [hj', hk']

/-- The flag is given back rightly when nobody else is in flight. -/
theorem exclusive_release_iff (h : phase.inFlight = false) :
    Exclusive (Function.update workers i phase) false ↔
      ∀ j, j ≠ i → (workers j).inFlight = false := by
  rw [exclusive_false_iff, Function.forall_update_iff workers fun _ phase => phase.inFlight = false]
  exact and_iff_right h

/-- What a step of a worker can do to the flag and to `sent`. -/
inductive Turned (shared : Shared) (phase : Phase) : Action → Shared → Phase → Prop
  | acquired (hphase : phase = .loaded) (hfree : shared.inFlight = false) :
      Turned shared phase .exchange { shared with inFlight := true } .flying
  | completed (hphase : phase.inFlight = true) :
      Turned shared phase .complete { shared with inFlight := false } .flown
  | ended (hphase : phase.inFlight = true) :
      Turned shared phase .drop { shared with inFlight := false } .ended
  | late (hphase : phase = .flown) :
      Turned shared phase .drop { shared with inFlight := false } .ended
  | marked {put : Bool} (hphase : phase = .answered put) :
      Turned shared phase .mark { shared with sent := true, put } .marked
  | other {action : Action} {shared' : Shared} {phase' : Phase}
      (hflag : shared'.inFlight = shared.inFlight) (hphase : phase'.inFlight = phase.inFlight)
      (hsent : shared'.sent = true → shared.sent = true) (hput : shared'.put = shared.put)
      (hmark : action ≠ .mark) (hdrop : action = .drop → phase ≠ .flown) :
      Turned shared phase action shared' phase'

theorem trySend_eq (shared : Shared) :
    ∃ queued, shared.trySend = { shared with queued } := by
  rw [Shared.trySend]
  split_ifs
  · exact ⟨_, rfl⟩
  · exact ⟨shared.queued, rfl⟩

theorem turned {shared shared' : Shared} {phase' : Phase} {action : Action}
    (h : turn shared phase action = some (shared', phase')) :
    Turned shared phase action shared' phase' := by
  cases action with
  | load =>
    cases phase with
    | idle =>
      -- a worker that finds the configuration sent passes, and is not in flight either
      obtain ⟨rfl, rfl⟩ := Prod.mk.inj (Option.some.inj h)
      refine .other rfl ?_ id rfl (by simp) (by simp)
      split_ifs
      · rfl
      · rfl
    | _ => exact absurd h (by simp [turn])
  | exchange =>
    cases phase with
    | loaded =>
      rw [turn] at h
      split_ifs at h with htaken
      · obtain ⟨rfl, rfl⟩ := Prod.mk.inj (Option.some.inj h)
        exact .other rfl rfl id rfl (by simp) (by simp)
      · obtain ⟨rfl, rfl⟩ := Prod.mk.inj (Option.some.inj h)
        exact .acquired rfl (Bool.eq_false_iff.mpr htaken)
    | _ => exact absurd h (by simp [turn])
  | answer =>
    cases phase with
    | flying =>
      obtain ⟨rfl, rfl⟩ := Prod.mk.inj (Option.some.inj h)
      obtain ⟨queued, hqueued⟩ := trySend_eq shared
      rw [hqueued]
      exact .other rfl rfl id rfl (by simp) (by simp)
    | _ => exact absurd h (by simp [turn])
  | refuse =>
    cases phase with
    | flying =>
      obtain ⟨rfl, rfl⟩ := Prod.mk.inj (Option.some.inj h)
      exact .other rfl rfl id rfl (by simp) (by simp)
    | _ => exact absurd h (by simp [turn])
  | mark =>
    cases phase with
    | answered put =>
      obtain ⟨rfl, rfl⟩ := Prod.mk.inj (Option.some.inj h)
      exact .marked rfl
    | _ => exact absurd h (by simp [turn])
  | complete =>
    cases phase with
    | marked =>
      obtain ⟨rfl, rfl⟩ := Prod.mk.inj (Option.some.inj h)
      exact .completed rfl
    | refused =>
      obtain ⟨rfl, rfl⟩ := Prod.mk.inj (Option.some.inj h)
      exact .completed rfl
    | _ => exact absurd h (by simp [turn])
  | drop =>
    cases phase with
    | flying =>
      obtain ⟨rfl, rfl⟩ := Prod.mk.inj (Option.some.inj h)
      exact .ended rfl
    | flown =>
      obtain ⟨rfl, rfl⟩ := Prod.mk.inj (Option.some.inj h)
      exact .late rfl
    | passing =>
      obtain ⟨rfl, rfl⟩ := Prod.mk.inj (Option.some.inj h)
      exact .other rfl rfl id rfl (by simp) (by simp)
    | _ => exact absurd h (by simp [turn])
  | refresh wasReady failed activeConnections cancelled =>
    cases phase with
    | ended =>
      rw [turn] at h
      -- a full outage takes `sent` back, and touches nothing else
      split_ifs at h
      · obtain ⟨rfl, rfl⟩ := Prod.mk.inj (Option.some.inj h)
        exact .other rfl rfl (fun hsent => absurd hsent Bool.false_ne_true) rfl (by simp) (by simp)
      · obtain ⟨rfl, rfl⟩ := Prod.mk.inj (Option.some.inj h)
        exact .other rfl rfl id rfl (by simp) (by simp)
    | _ => exact absurd h (by simp [turn])

/-- A step keeps it exactly when it is in order. -/
theorem kept_step_iff (hs : Kept s) (h : step s e = some t) : Kept t ↔ Orderly s e := by
  obtain ⟨hexclusive, hsent⟩ := hs
  cases e with
  | pushed =>
    obtain rfl := Option.some.inj h
    obtain ⟨queued, hqueued⟩ := trySend_eq s.shared
    refine iff_of_true ?_ trivial
    rw [Kept, hqueued]
    exact ⟨hexclusive, hsent⟩
  | received =>
    obtain rfl := Option.some.inj h
    exact iff_of_true ⟨hexclusive, hsent⟩ trivial
  | closed =>
    obtain rfl := Option.some.inj h
    exact iff_of_true ⟨hexclusive, hsent⟩ trivial
  | worker i action =>
    obtain ⟨⟨shared, phase⟩, hturn, rfl⟩ := Option.map_eq_some_iff.mp h
    cases turned hturn with
    | acquired hphase hfree =>
      rw [hfree] at hexclusive
      exact iff_of_true ⟨exclusive_acquire hexclusive, hsent⟩ trivial
    | completed hphase =>
      -- the worker is in flight itself, so the flag is its own
      have hothers := hexclusive.others hphase
      exact iff_of_true ⟨(exclusive_release_iff rfl).mpr hothers, hsent⟩ trivial
    | ended hphase =>
      have hothers := hexclusive.others hphase
      exact iff_of_true ⟨(exclusive_release_iff rfl).mpr hothers, hsent⟩ fun _ => hothers
    | late hphase =>
      -- the guard gives back a flag that may be another worker's by now
      constructor
      · rintro ⟨hdropped, -⟩ _
        exact (exclusive_release_iff rfl).mp hdropped
      · intro horderly
        exact ⟨(exclusive_release_iff rfl).mpr (horderly hphase), hsent⟩
    | marked hphase =>
      rename_i put
      -- `sent` is stored whatever `try_send` has answered
      have hsame : Exclusive (Function.update s.workers i .marked) s.shared.inFlight := by
        refine (exclusive_same ?_).mpr hexclusive
        rw [hphase]
        rfl
      rw [Orderly, hphase]
      constructor
      · rintro ⟨-, hput⟩ hfailed
        rw [Phase.answered.injEq] at hfailed
        exact Bool.false_ne_true (hfailed.symm.trans (hput rfl))
      · intro hput
        refine ⟨hsame, fun _ => ?_⟩
        cases put with
        | true => rfl
        | false => exact absurd rfl hput
    | other hflag hphase hsent' hput hmark hdrop =>
      refine iff_of_true ⟨?_, ?_⟩ (orderly_of_other hmark hdrop)
      · rw [hflag]
        exact (exclusive_same hphase).mpr hexclusive
      · intro hset
        rw [hput]
        exact hsent (hsent' hset)

/-- At all times one worker at most is in flight, with the flag set, and `sent` stands for a
configuration that the channel has taken, exactly when every guard of a flight that is over
is dropped while nobody is in flight, and every configuration recorded was taken. -/
theorem one_in_flight_iff (es : List (Event ι)) :
    Transition.Always step Kept (start : State ι) es ↔ Transition.Admits step Orderly start es :=
  Transition.always_iff_admits (Q := fun _ => True) (fun _ _ _ _ _ => trivial)
    (fun _ _ _ _ hs h => kept_step_iff hs h) trivial kept_start

end Run

/-- The first worker is refused; the second takes the flight, and when the session of the
first ends, so does a third. -/
def lateDrop : List (Event ℕ) :=
  [.worker 1 .load, .worker 1 .exchange, .worker 1 .refuse, .worker 1 .complete,
    .worker 2 .load, .worker 2 .exchange, .worker 1 .drop, .worker 3 .load, .worker 3 .exchange]

/-- The channel is full when the configuration comes. -/
def lostConfig : List (Event ℕ) :=
  Event.worker 1 .load :: .worker 1 .exchange :: List.replicate configCapacity .pushed ++
    [Event.worker 1 .answer, .worker 1 .mark]

theorem two_in_flight :
    (∃ s, Transition.run step start lateDrop = some s ∧ s.workers 2 = .flying ∧
        s.workers 3 = .flying ∧ ¬ Exclusive s.workers s.shared.inFlight) ∧
      ∃ s, Transition.run step start lostConfig = some s ∧ s.shared.sent = true ∧
        s.shared.put = false := by
  constructor
  · refine ⟨_, rfl, rfl, rfl, ?_⟩
    intro h
    exact absurd (h.unique 2 3 rfl rfl) (by decide)
  · exact ⟨_, rfl, rfl, rfl⟩

end Csqtt.ConfigFlight
