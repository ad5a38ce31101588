/-
Wake probes and the loops that are to take them up.

`wake::signal` is three accesses: it stores the gap, bumps the epoch and calls
`notify_waiters`.  A driver compares the epoch at the head of its loop, and registers for
the notification many steps later.  Here the signals of any number of callers come in
between any two steps of either loop.

* `slept_through` — a signal that falls between the look and the registration leaves the
  driver in its `select!`;
* `probe_missed_iff` — no driver ever sleeps through a probe exactly when each
  registration finds the epoch that the driver has looked at, or a signal that is not over
  yet (`RegistersStale`).
-/
import Csqtt.TurnLoop
import Csqtt.TurnCleanup

namespace Csqtt.Turn

open Stun Transition

/-! ### Where the loop registers -/

/-- The driver is in one of its `select!`s. -/
def Pc.selecting : Pc → Bool
  | .select .. => true
  | _ => false

theorem Pc.selecting_signal (pc : Pc) : pc.signal.selecting = pc.selecting := by
  cases pc <;> rfl

theorem Pc.eq_select {pc : Pc} (h : pc.selecting = true) :
    ∃ kind deadline signalled, pc = .select kind deadline signalled := by
  cases pc with
  | select kind deadline signalled => exact ⟨kind, deadline, signalled, rfl⟩
  | _ => exact Bool.noConfusion h

namespace DriverLoop

variable {P : Primitives} {d : Draw} {l l' : DriverLoop}

/-- The next step of the driver creates the futures of a `select!`. -/
def registers (l : DriverLoop) : Bool :=
  match l.pc with
  | .idle => l.inbound = .stream
  | .flush _ =>
    match l.arrived with
    | .ok _ :: _ => false
    | _ => true
  | .burst _ taken => taken < maxDatagrams && l.arrived.isEmpty && !l.pumpNeeded
  | _ => false

@[simp] theorem selecting_leave (reason : Reason) : (l.leave reason).pc.selecting = false := rfl

@[simp] theorem selecting_proceed : (l.proceed d).pc.selecting = false := by
  unfold proceed
  simp only
  split <;> rfl

theorem selecting_iterate : (l.iterate P d).pc.selecting = false := by
  unfold iterate cleanup
  simp only
  split
  · simp
  split
  · simp
  split
  · simp
  split
  · simp
  split <;> simp

@[simp] theorem selecting_failed (error : PumpError) :
    (l.failed d error).pc.selecting = false := by
  unfold failed
  simp only
  split
  · rfl
  split
  · rfl
  split <;> rfl

theorem selecting_pumpEvent (timer : Option ℕ) (unexpected exhausted : Bool) :
    (l.pumpEvent P d timer unexpected exhausted).pc.selecting = false := by
  unfold pumpEvent
  simp only
  split
  · rfl
  split
  · simp
  · rfl

/-- Every `select!` that is over leads back to the head of the loop, or to a pause. -/
theorem selecting_wait {kind : Select} {deadline : ℕ} {signalled : Bool}
    (h : l.wait P d kind deadline signalled = some l') : l'.pc.selecting = false := by
  unfold wait at h
  split at h
  · obtain rfl := Option.some_inj.mp h
    rfl
  split at h
  · obtain rfl := Option.some_inj.mp h
    rfl
  cases kind with
  | readable =>
    simp only [takeReadable] at h
    split at h
    · obtain rfl := Option.some_inj.mp h
      rfl
    split at h
    · cases h
    split at h <;> obtain rfl := Option.some_inj.mp h <;> rfl
  | datagram =>
    simp only [takeDatagram] at h
    split at h
    · cases h
    · obtain rfl := Option.some_inj.mp h
      rfl
    · obtain rfl := Option.some_inj.mp h
      rfl
  | frame =>
    simp only [takeFrame] at h
    split at h
    · obtain rfl := Option.some_inj.mp h
      rfl
    split at h
    · obtain rfl := Option.some_inj.mp h
      unfold takeWriteFailure
      simp only
      split <;> rfl
    split at h
    · obtain rfl := Option.some_inj.mp h
      rfl
    split at h
    · cases h
    · obtain rfl := Option.some_inj.mp h
      rfl
    split at h <;> obtain rfl := Option.some_inj.mp h <;> rfl

/-- The step of a driver that is not in a `select!`: it enters one exactly when it
registers, and then it has not looked at the epoch. -/
theorem selecting_drive (h : l.drive P d = some l') (hpc : l.pc.selecting = false) :
    l'.pc.selecting = l.registers ∧
      (l.registers = true → l'.epoch = l.epoch ∧ l'.wakeEpoch = l.wakeEpoch) := by
  unfold drive at h
  cases hl : l.pc with
  | top =>
    simp only [hl] at h
    obtain rfl := Option.some_inj.mp h
    rw [selecting_iterate]
    simp [registers, hl]
  | poll =>
    simp only [hl] at h
    obtain rfl := Option.some_inj.mp h
    have hselecting : (l.pumpPoll P d).pc.selecting = false := by
      unfold pumpPoll
      split
      · simp
      · rfl
    rw [hselecting]
    simp [registers, hl]
  | controls timer =>
    simp only [hl] at h
    obtain rfl := Option.some_inj.mp h
    have hselecting : (l.pumpPull P d timer).pc.selecting = false := by
      unfold pumpPull
      split
      · simp
      · rfl
      · rfl
    rw [hselecting]
    simp [registers, hl]
  | sending timer packet =>
    simp only [hl] at h
    obtain rfl := Option.some_inj.mp h
    have hselecting : (l.pumpSend d timer packet).pc.selecting = false := by
      unfold pumpSend
      split
      · simp
      · rfl
    rw [hselecting]
    simp [registers, hl]
  | events timer unexpected exhausted =>
    simp only [hl] at h
    obtain rfl := Option.some_inj.mp h
    rw [selecting_pumpEvent]
    simp [registers, hl]
  | retry deadline =>
    simp only [hl] at h
    split at h
    · obtain rfl := Option.some_inj.mp h
      simp [registers, hl, Pc.selecting]
    · cases h
  | idle =>
    simp only [hl] at h
    obtain rfl := Option.some_inj.mp h
    refine ⟨?_, fun _ => ⟨rfl, rfl⟩⟩
    unfold park registers
    rw [hl]
    cases l.inbound with
    | stream => rfl
    | udp => cases l.shared.closing <;> rfl
  | burst wait taken =>
    simp only [hl] at h
    obtain rfl := Option.some_inj.mp h
    unfold burstOne registers
    rw [hl]
    by_cases hfull : maxDatagrams ≤ taken
    · simp [hfull, Pc.selecting]
    · rw [if_neg hfull]
      cases harrived : l.arrived with
      | nil =>
        have hlt : taken < maxDatagrams := Nat.lt_of_not_le hfull
        cases hneeded : l.pumpNeeded <;> simp [hlt, Pc.selecting]
      | cons item arrived =>
        refine ⟨?_, by simp⟩
        cases item with
        | error e => simp [Pc.selecting]
        | ok wire =>
          simp only
          split <;> simp [Pc.selecting]
  | flush wait =>
    simp only [hl] at h
    obtain rfl := Option.some_inj.mp h
    unfold flushOne registers
    rw [hl]
    cases harrived : l.arrived with
    | nil => exact ⟨rfl, fun _ => ⟨rfl, rfl⟩⟩
    | cons item arrived =>
      cases item with
      | error e => exact ⟨rfl, fun _ => ⟨rfl, rfl⟩⟩
      | ok wire =>
        refine ⟨?_, by simp⟩
        simp only [process_pc]
        rfl
  | select kind deadline signalled =>
    rw [hl] at hpc
    cases hpc
  | left reason => simp [hl] at h

end DriverLoop

/-! ### Signals in between -/

/-- A driver and the callers of `signal`; the epoch and the gap that they share stand in
the loop. -/
structure Waking where
  loop : DriverLoop
  /-- So many callers have stored their gap and not bumped the epoch yet. -/
  stored : ℕ := 0
  /-- So many have bumped the epoch and not notified anybody yet. -/
  bumped : ℕ := 0
  /-- `notify_waiters` has reached the future of `wake::notified` that the driver waits for. -/
  notified : Bool := false

inductive WakeEvent where
  | store (gap : ℕ)
  | bump
  | notifyWaiters
  /-- Any other event of the loop. -/
  | loop (event : LoopEvent)

namespace Waking

variable {P : Primitives} {s s' : Waking} {e : WakeEvent}

def step (P : Primitives) (s : Waking) : WakeEvent → Option Waking
  | .store gap => some { s with
      loop := { s.loop with lastGap := gap }, stored := s.stored + 1 }
  | .bump =>
    if s.stored = 0 then none
    else some { s with
      loop := { s.loop with epoch := s.loop.epoch + 1 }
      stored := s.stored - 1
      bumped := s.bumped + 1 }
  | .notifyWaiters =>
    if s.bumped = 0 then none
    else some { s with
      loop := { s.loop with pc := s.loop.pc.signal }
      bumped := s.bumped - 1
      notified := s.loop.pc.selecting }
  | .loop (.signal _) => none
  | .loop event =>
    (s.loop.step P event).map fun l => { s with
      loop := l, notified := s.notified && l.pc.selecting }

/-- Some call of `signal` is not over. -/
def inProgress (s : Waking) : Bool := s.stored ≠ 0 ∨ s.bumped ≠ 0

/-- All calls of `signal` are over, and the driver waits in its `select!` with an epoch that
is not the current one and no notification on its way. -/
def Missed (s : Waking) : Prop :=
  s.inProgress = false ∧ s.loop.pc.selecting = true ∧ s.loop.wakeEpoch ≠ s.loop.epoch ∧
    s.notified = false

instance (s : Waking) : Decidable (Missed s) := inferInstanceAs (Decidable (_ ∧ _))

/-- The driver registers although the epoch has moved since it looked, and no call of
`signal` is left to notify it. -/
def RegistersStale (s : Waking) : WakeEvent → Prop
  | .loop (.drive _) =>
    s.loop.registers = true ∧ s.loop.wakeEpoch ≠ s.loop.epoch ∧ s.inProgress = false
  | _ => False

/-- Only a driver in a `select!` has a future to be reached. -/
def Fitting (s : Waking) : Prop := s.notified = true → s.loop.pc.selecting = true

theorem Fitting.step (h : Fitting s) (hstep : s.step P e = some s') : Fitting s' := by
  cases e with
  | store gap =>
    obtain rfl := Option.some_inj.mp hstep
    exact h
  | bump =>
    simp only [Waking.step] at hstep
    split at hstep
    · cases hstep
    · obtain rfl := Option.some_inj.mp hstep
      exact h
  | notifyWaiters =>
    simp only [Waking.step] at hstep
    split at hstep
    · cases hstep
    · obtain rfl := Option.some_inj.mp hstep
      intro hnotified
      rw [Pc.selecting_signal]
      exact hnotified
  | loop event =>
    have hmap : (s.loop.step P event).map (fun l => { s with
        loop := l, notified := s.notified && l.pc.selecting }) = some s' := by
      cases event <;> first | exact hstep | cases hstep
    obtain ⟨l, -, rfl⟩ := Option.map_eq_some_iff.mp hmap
    intro hnotified
    exact (Bool.and_eq_true_iff.mp hnotified).2

/-- Nobody but the driver moves what it has seen, or puts it into a `select!`. -/
theorem loop_frame {l l' : DriverLoop} {event : LoopEvent} (h : l.step P event = some l')
    (hsignal : ∀ gap, event ≠ .signal gap) (hdrive : ∀ d, event ≠ .drive d) :
    l'.epoch = l.epoch ∧ l'.wakeEpoch = l.wakeEpoch ∧
      (l'.pc.selecting = true → l.pc.selecting = true) := by
  cases event with
  | drive d => exact absurd rfl (hdrive d)
  | signal gap => exact absurd rfl (hsignal gap)
  | call env call =>
    simp only [DriverLoop.step] at h
    split at h
    · obtain rfl := Option.some_inj.mp h
      exact ⟨rfl, rfl, id⟩
    · cases h
  | fail reason =>
    obtain rfl := Option.some_inj.mp h
    refine ⟨rfl, rfl, fun hpc => ?_⟩
    simp only [DriverLoop.ownerFail] at hpc
    split at hpc
    · exact hpc
    · rwa [Pc.selecting_signal] at hpc
  | abort =>
    simp only [DriverLoop.step, DriverLoop.abort] at h
    split at h
    · cases h
    · obtain rfl := Option.some_inj.mp h
      exact ⟨rfl, rfl, fun hpc => Bool.noConfusion hpc⟩
  | requestCleanup =>
    obtain rfl := Option.some_inj.mp h
    exact ⟨rfl, rfl, id⟩
  | notify =>
    obtain rfl := Option.some_inj.mp h
    exact ⟨rfl, rfl, id⟩
  | dropReceiver =>
    obtain rfl := Option.some_inj.mp h
    exact ⟨rfl, rfl, id⟩
  | arrive item =>
    obtain rfl := Option.some_inj.mp h
    exact ⟨rfl, rfl, id⟩
  | writeFailed reason =>
    obtain rfl := Option.some_inj.mp h
    exact ⟨rfl, rfl, id⟩
  | writerEnds =>
    obtain rfl := Option.some_inj.mp h
    exact ⟨rfl, rfl, id⟩

/-- The step of the driver. -/
theorem missed_drive_iff {l : DriverLoop} {d : Draw} (hfit : Fitting s)
    (hl : s.loop.drive P d = some l) :
    Missed { s with loop := l, notified := s.notified && l.pc.selecting } ↔
      RegistersStale s (.loop (.drive d)) := by
  cases hpc : s.loop.pc.selecting with
  | true =>
    -- out of the `select!`
    obtain ⟨kind, deadline, signalled, hselect⟩ := Pc.eq_select hpc
    have hout : l.pc.selecting = false := by
      simp only [DriverLoop.drive, hselect] at hl
      exact DriverLoop.selecting_wait hl
    have hnot : s.loop.registers = false := by
      simp only [DriverLoop.registers, hselect]
    simp [Missed, RegistersStale, hout, hnot]
  | false =>
    obtain ⟨hselecting, hsame⟩ := DriverLoop.selecting_drive hl hpc
    have hunnotified : s.notified = false := by
      rw [Bool.eq_false_iff]
      intro hnotified
      rw [hfit hnotified] at hpc
      cases hpc
    constructor
    · rintro ⟨hquiet, hin, hne, -⟩
      simp only [hselecting] at hin
      simp only [hsame hin] at hne
      exact ⟨hin, hne, hquiet⟩
    · rintro ⟨hin, hne, hquiet⟩
      refine ⟨hquiet, hselecting.trans hin, ?_, ?_⟩
      · simp only [hsame hin]
        exact hne
      · simp only [hunnotified, Bool.false_and]

/-- A driver that has not missed a probe misses one with its next step, or a step of
somebody else, exactly when the step registers in vain. -/
theorem Fitting.missed_iff (hfit : Fitting s) (h : ¬ Missed s) (hstep : s.step P e = some s') :
    Missed s' ↔ RegistersStale s e := by
  cases e with
  | store gap =>
    obtain rfl := Option.some_inj.mp hstep
    refine ⟨fun hmissed => ?_, False.elim⟩
    simp [Missed, inProgress] at hmissed
  | bump =>
    simp only [Waking.step] at hstep
    split at hstep
    · cases hstep
    · obtain rfl := Option.some_inj.mp hstep
      refine ⟨fun hmissed => ?_, False.elim⟩
      simp [Missed, inProgress] at hmissed
  | notifyWaiters =>
    simp only [Waking.step] at hstep
    split at hstep
    · cases hstep
    · obtain rfl := Option.some_inj.mp hstep
      refine ⟨fun hmissed => ?_, False.elim⟩
      obtain ⟨-, hselecting, -, hnotified⟩ := hmissed
      rw [Pc.selecting_signal] at hselecting
      exact absurd (hselecting.symm.trans hnotified) (by decide)
  | loop event =>
    by_cases hsignal : ∃ gap, event = .signal gap
    · obtain ⟨gap, rfl⟩ := hsignal
      cases hstep
    have hmap : (s.loop.step P event).map (fun l => { s with
        loop := l, notified := s.notified && l.pc.selecting }) = some s' := by
      cases event <;> first | exact hstep | exact absurd ⟨_, rfl⟩ hsignal
    obtain ⟨l, hl, rfl⟩ := Option.map_eq_some_iff.mp hmap
    by_cases hdrive : ∃ d, event = .drive d
    · obtain ⟨d, rfl⟩ := hdrive
      exact missed_drive_iff hfit hl
    · obtain ⟨hepoch, hwake, hin⟩ := loop_frame hl (fun gap heq => hsignal ⟨gap, heq⟩)
        fun d heq => hdrive ⟨d, heq⟩
      refine ⟨fun hmissed => ?_, fun hstale => ?_⟩
      · -- the same miss was there before
        obtain ⟨hquiet, hselecting, hne, hnotified⟩ := hmissed
        simp only [hepoch, hwake] at hne
        simp only [hselecting, Bool.and_true] at hnotified
        exact absurd ⟨hquiet, hin hselecting, hne, hnotified⟩ h
      · cases event <;> first | exact hstale.elim | exact absurd ⟨_, rfl⟩ hdrive

/-- The driver that has been spawned, with no signal on its way. -/
def spawn (inbound : TurnInbound) (core : Inner) (epoch now : ℕ) : Waking :=
  { loop := .spawn inbound core epoch now }

/-- No run makes a driver sleep through a probe exactly when each of its registrations
finds the epoch that it has looked at, or a signal that is still to notify it. -/
theorem probe_missed_iff (P : Primitives) (inbound : TurnInbound) (core : Inner)
    (epoch now : ℕ) (events : List WakeEvent) :
    Always (step P) (fun s => ¬ Missed s) (spawn inbound core epoch now) events ↔
      Admits (step P) (fun s e => ¬ RegistersStale s e) (spawn inbound core epoch now) events :=
  always_iff_admits (Q := Fitting) (fun _ _ _ hfit hstep => hfit.step hstep)
    (fun _ _ _ hfit h hstep => not_congr (hfit.missed_iff h hstep)) (fun h => Bool.noConfusion h)
    fun h => Bool.noConfusion h.2.1

/-- The driver has looked at the epoch and pumped; the signal comes before it registers,
which takes the loops one step or two. -/
def signalBetween (steps : ℕ) : List WakeEvent :=
  List.replicate 5 (.loop (.drive (DriverLoop.calm 0))) ++
    [.store 600, .bump, .notifyWaiters] ++
    List.replicate steps (.loop (.drive (DriverLoop.calm 0)))

theorem slept_through :
    (run (step Inner.zeroDigests) (spawn .stream Inner.freshCore 0 0) (signalBetween 1)).any
        (fun s => Missed s) = true ∧
      (run (step Inner.zeroDigests) (spawn .udp Inner.freshCore 0 0) (signalBetween 2)).any
        (fun s => Missed s) = true := by
  decide +kernel

end Waking

end Csqtt.Turn
