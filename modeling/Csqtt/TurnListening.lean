/-
Waiting without news.

After `closing` is set, each `select!` of the driver should bring something new: a packet, a
notification of somebody else, or the end of a wait.  It does not when the driver finds its
own notification, and in the stream loop the owner that has dropped its receiver, the writer
that has ended, or the end of the stream; each of these is in front of the frames and stays.
The ledger counts these branches (`step_wasted`).
-/
import Csqtt.TurnCleanup

namespace Csqtt.Turn

open Stun TurnIngress

namespace DriverLoop

variable {P : Primitives} {d : Draw} {l l' : DriverLoop} {now : ℕ}

/-! ### Branches without news -/

/-- The stream has come to its end. -/
def ended (l : DriverLoop) : Bool :=
  match l.arrived with
  | .error _ :: _ => true
  | _ => false

/-- The first future of a `select!` that is ready tells the driver nothing new. -/
def stuck (d : Draw) (l : DriverLoop) (kind : Select) (deadline : ℕ) (signalled : Bool) : Bool :=
  if l.shared.wake then l.ledger.ownWake
  else if signalled ∨ deadline ≤ d.env.now then false
  else
    match kind with
    | .readable => l.ownerClosed
    | .datagram => false
    | .frame => l.ownerClosed || l.writeFailure.isNone && (l.writerGone || l.ended)

/-- After closing, the step is a `select!` without news. -/
def Vain (l : DriverLoop) : LoopEvent → Bool
  | .drive d =>
    match l.pc with
    | .select kind deadline signalled => l.shared.closing && l.stuck d kind deadline signalled
    | _ => false
  | _ => false

/-- The condition on a step. -/
def Attentive (l : DriverLoop) (event : LoopEvent) : Prop := l.Vain event = false

instance (l : DriverLoop) (event : LoopEvent) : Decidable (l.Attentive event) :=
  inferInstanceAs (Decidable (_ = _))

/-! ### The count of the branches without news -/

theorem observeWake_wasted (l : DriverLoop) :
    (l.observeWake P d).ledger.wasted = l.ledger.wasted := by
  rw [observeWake]
  split_ifs <;> rfl

theorem startCleanup_wasted (l : DriverLoop) (state : TurnState) :
    (l.startCleanup P d state).ledger.wasted = l.ledger.wasted := by
  rw [startCleanup]
  simp only
  split
  · rfl
  · rfl

theorem cleanup_wasted (l : DriverLoop) : (l.cleanup P d).ledger.wasted = l.ledger.wasted := by
  have hstarted := startCleanup_wasted (P := P) (d := d) { l with cleanupPermit := true }
    l.shared.snapshot.state
  rw [cleanup]
  split_ifs
  · exact hstarted
  · exact hstarted
  · exact hstarted

theorem iterate_wasted (l : DriverLoop) : (l.iterate P d).ledger.wasted = l.ledger.wasted := by
  have hwoken := observeWake_wasted (P := P) (d := d) { l with
    ledger := { l.ledger with iterations := l.ledger.iterations + 1 } }
  rw [iterate]
  split_ifs
  · exact hwoken
  · exact hwoken
  · exact hwoken
  · exact (cleanup_wasted _).trans hwoken

theorem failed_wasted (l : DriverLoop) (error : PumpError) :
    (l.failed d error).ledger.wasted = l.ledger.wasted := by
  rw [failed]
  split_ifs
  · rfl
  · split
    · rfl
    · split_ifs <;> rfl

theorem pump_wasted (l : DriverLoop) (timer : Option ℕ) (packet : Bytes)
    (unexpectedDestroy exhausted : Bool) :
    (l.pumpPoll P d).ledger.wasted = l.ledger.wasted ∧
      (l.pumpPull P d timer).ledger.wasted = l.ledger.wasted ∧
      (l.pumpSend d timer packet).ledger.wasted = l.ledger.wasted ∧
      (l.pumpEvent P d timer unexpectedDestroy exhausted).ledger.wasted = l.ledger.wasted := by
  refine ⟨?_, ?_, ?_, ?_⟩
  · rw [pumpPoll]
    split
    · exact failed_wasted _ _
    · rfl
  · rw [pumpPull]
    split
    · exact failed_wasted _ _
    · rfl
    · rfl
  · rw [pumpSend]
    split
    · exact failed_wasted _ _
    · rfl
  · rw [pumpEvent]
    simp only
    split
    · rfl
    · split
      · exact failed_wasted _ _
      · rfl

theorem process_ledger (l : DriverLoop) (wire : Bytes) (pooled : Bool) :
    (l.process P d wire pooled).2.ledger = l.ledger := by
  rw [process]
  split
  · rfl
  · split_ifs <;> rfl

theorem flushOne_wasted (l : DriverLoop) (wait : ℕ) :
    (l.flushOne P d wait).ledger.wasted = l.ledger.wasted := by
  rw [flushOne]
  split
  · rfl
  · rfl
  · exact congrArg Ledger.wasted (process_ledger _ _ _)

theorem burstOne_wasted (l : DriverLoop) (wait taken : ℕ) :
    (l.burstOne P d wait taken).ledger.wasted = l.ledger.wasted := by
  rw [burstOne]
  split
  · rfl
  · split
    · rfl
    · rfl
    · next wire arrived _ =>
      have hprocess := congrArg Ledger.wasted (process_ledger (P := P) (d := d)
        { l with arrived } wire d.pooled)
      generalize { l with arrived }.process P d wire d.pooled = r at hprocess ⊢
      obtain ⟨_ | _ | _, m⟩ := r
      · exact hprocess
      · exact hprocess
      · exact hprocess

theorem waste_wasted (l : DriverLoop) (waste : Bool) :
    (l.waste waste).ledger.wasted = l.ledger.wasted + (l.shared.closing && waste).toNat := by
  rw [DriverLoop.waste]
  rcases l.shared.closing && waste <;> rfl

theorem takeReadable_wasted (h : l.takeReadable d = some l') :
    l'.ledger.wasted = l.ledger.wasted + (l.shared.closing && l.ownerClosed).toNat := by
  rw [takeReadable] at h
  rcases howner : l.ownerClosed <;> simp only [howner, if_true, Bool.false_eq_true, if_false] at h
  · rw [Bool.and_false]
    split at h
    · cases h
    · split at h
      · obtain rfl := Option.some.inj h
        rfl
      · obtain rfl := Option.some.inj h
        rfl
  · obtain rfl := Option.some.inj h
    exact waste_wasted l true

theorem takeDatagram_wasted (h : l.takeDatagram P d = some l') :
    l'.ledger.wasted = l.ledger.wasted := by
  rw [takeDatagram] at h
  split at h
  · cases h
  · next wire arrived _ =>
    obtain rfl := Option.some.inj h
    exact congrArg Ledger.wasted (process_ledger (P := P) (d := d) { l with arrived } wire false)
  · obtain rfl := Option.some.inj h
    rfl

theorem takeWriteFailure_wasted (l : DriverLoop) (reason : String) :
    (l.takeWriteFailure reason).ledger.wasted = l.ledger.wasted := by
  rw [takeWriteFailure]
  simp only
  split
  · rfl
  · rfl

/-- An owner that is still there is not found gone. -/
theorem process_open (hopen : l.ownerClosed = false) (wire : Bytes) (pooled : Bool) :
    (l.process P d wire pooled).1 ≠ .ownerClosed := by
  rw [process, hopen]
  split
  · simp
  · split_ifs <;> simp

/-- What the branches of the stream's `select!` do, behind `wake` and the timer. -/
inductive FrameTaken (P : Primitives) (d : Draw) (l : DriverLoop) : DriverLoop → Prop where
  | closed (howner : l.ownerClosed) :
      FrameTaken P d l { (l.waste true).requestCleanup true with pc := .top }
  | failure {reason : String} (howner : l.ownerClosed = false)
      (hfailure : l.writeFailure = some reason) : FrameTaken P d l (l.takeWriteFailure reason)
  | gone (hfailure : l.writeFailure = none) (hgone : l.writerGone) :
      FrameTaken P d l { l.waste true with pc := .top }
  | over {e : String} {arrived : List (Except String Wire)} (hfailure : l.writeFailure = none)
      (harrived : l.arrived = .error e :: arrived) :
      FrameTaken P d l { ((l.waste true).fail (.receive e)).requestCleanup true with
        pumpNeeded := true, pc := .top }
  | frame {wire : Wire} {arrived : List (Except String Wire)} (howner : l.ownerClosed = false)
      (hgone : l.writerGone = false) (harrived : l.arrived = .ok wire :: arrived)
      (pumpNeeded : Bool) :
      FrameTaken P d l { ({ l with arrived }.process P d wire d.pooled).2 with
        pumpNeeded, pc := .top }

theorem takeFrame_taken (h : l.takeFrame P d = some l') : FrameTaken P d l l' := by
  rw [takeFrame] at h
  split at h
  · next howner =>
    obtain rfl := Option.some.inj h
    exact .closed howner
  · next howner =>
    rw [Bool.not_eq_true] at howner
    split at h
    · next reason hfailure =>
      obtain rfl := Option.some.inj h
      exact .failure howner hfailure
    · next hfailure =>
      split at h
      · next hgone =>
        obtain rfl := Option.some.inj h
        exact .gone hfailure hgone
      · next hgone =>
        rw [Bool.not_eq_true] at hgone
        split at h
        · cases h
        · next e arrived harrived =>
          obtain rfl := Option.some.inj h
          exact .over hfailure harrived
        · next wire arrived harrived =>
          have hopen := process_open (P := P) (d := d) (l := { l with arrived }) howner wire d.pooled
          have hframe := FrameTaken.frame (P := P) (d := d) howner hgone harrived
          generalize { l with arrived }.process P d wire d.pooled = r at hopen hframe h
          obtain ⟨_ | _ | _, m⟩ := r
          · obtain rfl := Option.some.inj h
            exact hframe m.pumpNeeded
          · obtain rfl := Option.some.inj h
            exact hframe true
          · exact absurd rfl hopen

theorem takeFrame_wasted (h : l.takeFrame P d = some l') :
    l'.ledger.wasted = l.ledger.wasted + (l.shared.closing &&
      (l.ownerClosed || l.writeFailure.isNone && (l.writerGone || l.ended))).toNat := by
  rcases takeFrame_taken h with howner | ⟨howner, hfailure⟩ | ⟨hfailure, hgone⟩ |
    ⟨hfailure, harrived⟩ | ⟨howner, hgone, harrived, pumpNeeded⟩
  · rw [howner, Bool.true_or]
    exact waste_wasted l true
  · rw [howner, hfailure, takeWriteFailure_wasted]
    simp
  · rw [hfailure, hgone, Option.isNone_none, Bool.true_or, Bool.and_true, Bool.or_true]
    exact waste_wasted l true
  · have hended : l.ended = true := by rw [ended, harrived]
    rw [hfailure, hended, Option.isNone_none, Bool.or_true, Bool.and_true, Bool.or_true]
    exact waste_wasted l true
  · have hended : l.ended = false := by rw [ended, harrived]
    rw [howner, hgone, hended]
    simp [process_ledger]

theorem wait_wasted {kind : Select} {deadline : ℕ} {signalled : Bool}
    (h : l.wait P d kind deadline signalled = some l') :
    l'.ledger.wasted =
      l.ledger.wasted + (l.shared.closing && l.stuck d kind deadline signalled).toNat := by
  unfold DriverLoop.wait at h
  unfold stuck
  split_ifs at h ⊢ with hwake htime
  · obtain rfl := Option.some.inj h
    exact waste_wasted l l.ledger.ownWake
  · obtain rfl := Option.some.inj h
    rw [Bool.and_false]
    rfl
  · cases kind with
    | readable => exact takeReadable_wasted h
    | datagram =>
      rw [takeDatagram_wasted h, Bool.and_false]
      rfl
    | frame => exact takeFrame_wasted h

/-- What the ledger counts: the steps in vain. -/
theorem step_wasted {event : LoopEvent} (h : l.step P event = some l') :
    l'.ledger.wasted = l.ledger.wasted + (l.Vain event).toNat := by
  cases event with
  | drive d =>
    have hdrive : l.drive P d = some l' := h
    rw [drive] at hdrive
    rcases hpc : l.pc with _ | _ | timer | ⟨timer, packet⟩ | ⟨timer, _, _⟩ | deadline | _ |
      ⟨wait, taken⟩ | wait | ⟨kind, deadline, signalled⟩ | reason <;>
      simp only [hpc, Vain, Bool.toNat_false, Nat.add_zero] at hdrive ⊢
    · obtain rfl := Option.some.inj hdrive
      exact iterate_wasted l
    · obtain rfl := Option.some.inj hdrive
      exact (pump_wasted l none [] false false).1
    · obtain rfl := Option.some.inj hdrive
      exact (pump_wasted l timer [] false false).2.1
    · obtain rfl := Option.some.inj hdrive
      exact (pump_wasted (P := P) l timer packet false false).2.2.1
    · obtain rfl := Option.some.inj hdrive
      exact (pump_wasted l timer [] _ _).2.2.2
    · split_ifs at hdrive
      obtain rfl := Option.some.inj hdrive
      rfl
    · obtain rfl := Option.some.inj hdrive
      rfl
    · obtain rfl := Option.some.inj hdrive
      exact burstOne_wasted l wait taken
    · obtain rfl := Option.some.inj hdrive
      exact flushOne_wasted l wait
    · exact wait_wasted hdrive
    · cases hdrive
  | abort =>
    have habort : l.abort = some l' := h
    rw [abort] at habort
    split at habort
    · cases habort
    · obtain rfl := Option.some.inj habort
      rfl
  | call env call =>
    simp only [step] at h
    split_ifs at h
    obtain rfl := Option.some.inj h
    rfl
  | requestCleanup | notify | fail | dropReceiver | arrive | signal | writeFailed | writerEnds =>
    obtain rfl := Option.some.inj h
    rfl

end DriverLoop

end Csqtt.Turn
