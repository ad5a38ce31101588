/-
The cleanup of a driver listens.

With the clock standing still, each step that is not in vain leads closer to a wait: less has
come, or the pump is nearer to its end (`drive_nearer`).  So a driver that is closing cannot go
on for ever (`not_endless`), and where it waits it has read everything (`drive_none`).

* `cleanup_listens_iff` — a run is free of the branches without news exactly if none is met, and
  then the driver reads all that has come before it waits, and comes to a wait;
* `closed_owner_spins` — an owner that drops its receiver makes the stream loop turn without
  reading.
-/
import Mathlib.Data.Prod.Lex
import Mathlib.Order.OrderIsoNat
import Mathlib.Order.WellFounded
import Csqtt.TurnCleanup
import Csqtt.TurnListening

namespace Csqtt.Turn

open Stun TurnIngress

/-- How far the driver is from the next wait, within one round of its loop. -/
def Pc.stage : Pc → ℕ
  | .poll => 6
  | .controls _ | .sending _ _ => 5
  | .events _ _ _ => 4
  | .top => 3
  | .idle => 2
  | .burst _ _ | .flush _ => 1
  | .select _ _ _ | .retry _ | .left _ => 0

namespace DriverLoop

variable {P : Primitives} {d : Draw} {l l' : DriverLoop} {now : ℕ}

/-- The driver goes on for ever at one instant, while nobody else does anything, and without a
step in vain. -/
def Endless (P : Primitives) (now : ℕ) (l : DriverLoop) : Prop :=
  ∃ (f : ℕ → DriverLoop) (draws : ℕ → Draw), f 0 = l ∧
    ∀ n, (draws n).env.now = now ∧ (draws n).later = now ∧ (f n).Attentive (.drive (draws n)) ∧
      (f n).step P (.drive (draws n)) = some (f (n + 1))

/-- No `select!` has been in vain; once the cleanup has begun, a driver that waits has read
everything, or it sleeps after an error, and it comes to a wait or leaves. -/
structure Listens (P : Primitives) (l : DriverLoop) : Prop where
  wasted : l.ledger.wasted = 0
  reads : l.shared.closing → ∀ d : Draw, l.drive P d = none →
    l.arrived = [] ∨ (∃ deadline, l.pc = .retry deadline ∧ d.env.now < deadline) ∨
      ∃ reason, l.pc = .left reason
  settles : l.shared.closing → ∀ now, ¬ Endless P now l

/-! ### The rank of a state -/

/-- What has come and has not been taken. -/
def stock (l : DriverLoop) : ℕ :=
  l.arrived.length + l.shared.wake.toNat + l.writeFailure.isSome.toNat

/-- The cleanup has been started, and no signal has come since its last round. -/
def begun (l : DriverLoop) : Bool :=
  l.shutdownRequested && l.cleanupDeadline.isSome && l.epoch = l.wakeEpoch

/-- The next round pumps. -/
def restless (now : ℕ) (l : DriverLoop) : Bool :=
  l.pumpNeeded || l.nativeDeadline ≤ now || !l.begun

/-- The rounds that the driver has before it, three for each thing that has come. -/
def patience (now : ℕ) (l : DriverLoop) : ℕ :=
  match l.pc with
  | .top => 3 * l.stock + 1 + (l.restless now).toNat
  | .poll => 3 * l.stock + 1 + 5 * (!l.begun).toNat
  | .controls timer | .sending timer _ | .events timer _ _ =>
    3 * l.stock + 1 + (timer == some 0).toNat + 5 * (!l.begun).toNat
  | .retry deadline => if deadline ≤ now then 3 * l.stock + 3 else 0
  | .idle => 3 * l.stock
  | .flush wait => 3 * l.stock + if wait = 0 then 3 else 0
  | .burst _ _ | .select .readable _ _ => 3 * l.stock + 6
  | .select _ deadline signalled =>
    3 * l.stock + if signalled ∨ deadline ≤ now then 3 else 0
  | .left _ => 0

/-- The packets and the events that the pump has before it. -/
def queue (l : DriverLoop) : ℕ :=
  match l.pc with
  | .controls _ => 2 * l.core.controls.length
  | .sending _ _ => 2 * l.core.controls.length + 1
  | .events _ _ _ => l.core.events.length
  | _ => 0

def rank (now : ℕ) (l : DriverLoop) : ℕ ×ₗ ℕ ×ₗ ℕ :=
  toLex (l.patience now, toLex (l.pc.stage, l.queue))

/-- A step of a driver that is closing, towards a wait. -/
structure Nearer (now : ℕ) (l l' : DriverLoop) : Prop where
  closing : l'.shared.closing
  rank : l'.rank now < l.rank now

theorem Nearer.of_patience (hclosing : l'.shared.closing)
    (h : l'.patience now < l.patience now) : Nearer now l l' :=
  ⟨hclosing, Prod.Lex.toLex_lt_toLex.mpr (.inl h)⟩

theorem Nearer.of_within (hclosing : l'.shared.closing) (hle : l'.patience now ≤ l.patience now)
    (h : l'.pc.stage < l.pc.stage ∨ l'.pc.stage = l.pc.stage ∧ l'.queue < l.queue) :
    Nearer now l l' := by
  rcases Nat.lt_or_eq_of_le hle with hlt | heq
  · exact .of_patience hclosing hlt
  · exact ⟨hclosing, Prod.Lex.toLex_lt_toLex.mpr (.inr ⟨heq, Prod.Lex.toLex_lt_toLex.mpr h⟩)⟩

theorem Nearer.of_stage (hclosing : l'.shared.closing) (hle : l'.patience now ≤ l.patience now)
    (h : l'.pc.stage < l.pc.stage) : Nearer now l l' :=
  .of_within hclosing hle (.inl h)

/-! ### What has come -/

theorem fail_stock (l : DriverLoop) (reason : Terminal) : (l.fail reason).stock = l.stock := by
  have hwake := (l.shared.fail_sameFlags reason).wake
  rw [stock, stock]
  show _ + (DriverShared.fail l.shared reason).wake.toNat + _ = _
  rw [hwake]
  rfl

/-- A notification is one thing more at most. -/
theorem requestCleanup_stock (l : DriverLoop) (own : Bool) :
    (l.requestCleanup own).stock ≤ l.stock + 1 := by
  show l.arrived.length + 1 + l.writeFailure.isSome.toNat ≤ l.arrived.length +
    l.shared.wake.toNat + l.writeFailure.isSome.toNat + 1
  omega

theorem top_patience (now : ℕ) (l : DriverLoop) (hpc : l.pc = .top) :
    3 * l.stock + 1 ≤ l.patience now ∧ l.patience now ≤ 3 * l.stock + 2 := by
  have hle := (l.restless now).toNat_le
  rw [patience, hpc]
  simp only
  omega

/-! ### The head of the loop -/

theorem leave_nearer (hclosing : l.shared.closing) (hpos : 0 < l'.patience now) (reason : Reason) :
    Nearer now l' (l.leave reason) :=
  .of_patience hclosing hpos

/-- Behind the cleanup the driver pumps only if the head of the loop was restless. -/
theorem proceed_nearer (hpc : l'.pc = .top) (hclosing : l.shared.closing)
    (hlater : d.later = now) (hstock : l.stock = l'.stock) (hbegun : l.begun)
    (hrestless : l.pumpNeeded ∨ l.nativeDeadline ≤ now → l'.restless now) :
    Nearer now l' (l.proceed d) := by
  refine .of_patience hclosing ?_
  rw [proceed, hlater]
  split_ifs with hpump
  · have hcalm : (3 * l.stock + 1 + 5 * (!l.begun).toNat) < l'.patience now := by
      rw [patience, hpc]
      simp only [hstock, hbegun, hrestless hpump]
      simp
    exact hcalm
  · have hidle : 3 * l.stock < l'.patience now := by
      rw [patience, hpc, hstock]
      simp only
      omega
    exact hidle

theorem observeWake_same (l : DriverLoop) :
    (l.observeWake P d).shared = l.shared ∧ (l.observeWake P d).stock = l.stock ∧
      (l.observeWake P d).epoch = (l.observeWake P d).wakeEpoch ∧
      (l.observeWake P d).shutdownRequested = l.shutdownRequested ∧
      (l.observeWake P d).cleanupDeadline = l.cleanupDeadline ∧
      (l.observeWake P d).nativeDeadline = l.nativeDeadline ∧
      (l.epoch = l.wakeEpoch → (l.observeWake P d).pumpNeeded = l.pumpNeeded) := by
  rw [observeWake]
  split_ifs with hseen
  · exact ⟨rfl, rfl, hseen, rfl, rfl, rfl, fun _ => rfl⟩
  · exact ⟨rfl, rfl, rfl, rfl, rfl, rfl, fun h => absurd h hseen⟩

/-- A started cleanup is not started again. -/
theorem startCleanup_same (l : DriverLoop) (state : TurnState) :
    (l.startCleanup P d state).shared = l.shared ∧
      (l.startCleanup P d state).stock = l.stock ∧
      (l.startCleanup P d state).nativeDeadline = l.nativeDeadline ∧
      (l.epoch = l.wakeEpoch → (l.startCleanup P d state).begun) ∧
      (l.shutdownRequested → (l.startCleanup P d state).pumpNeeded = l.pumpNeeded) := by
  rw [startCleanup]
  simp only
  split
  · next hrequested =>
    exact ⟨rfl, rfl, rfl, fun hepoch => by simp [begun, hrequested, hepoch], fun _ => rfl⟩
  · next hrequested =>
    exact ⟨rfl, rfl, rfl, fun hepoch => by simp [begun, hepoch, DriverLoop.call],
      fun h => absurd h hrequested⟩

theorem iterate_nearer (hpc : l.pc = .top) (hclosing : l.shared.closing)
    (hlater : d.later = now) : Nearer now l (l.iterate P d) := by
  have hpos : 0 < l.patience now := by
    have hbounds := (top_patience now l hpc).1
    omega
  rw [iterate]
  set m := ({ l with
    ledger := { l.ledger with iterations := l.ledger.iterations + 1 } } : DriverLoop) with hm
  obtain ⟨hshared, hstock, hseen, hrequested, hdeadline, hnative, hpump⟩ :=
    observeWake_same (P := P) (d := d) m
  have hstays : (m.observeWake P d).shared.closing := by
    rw [hshared]
    exact hclosing
  split_ifs with hopen hunsent hpermit
  · rw [hstays] at hopen
    exact absurd hopen (by decide)
  · exact leave_nearer hstays hpos _
  · exact leave_nearer hstays hpos _
  · rw [cleanup]
    set n : DriverLoop := { m.observeWake P d with cleanupPermit := true } with hn
    obtain ⟨hshared', hstock', hnative', hbegun, hpump'⟩ :=
      startCleanup_same (P := P) (d := d) n n.shared.snapshot.state
    have hstays' : (n.startCleanup P d n.shared.snapshot.state).shared.closing := by
      rw [hshared']
      exact hstays
    split_ifs
    · exact leave_nearer hstays' hpos _
    · exact leave_nearer hstays' hpos _
    · refine proceed_nearer hpc hstays' hlater (hstock'.trans hstock) (hbegun hseen) ?_
      -- only a first round, or one behind a signal, adds a reason to pump
      intro hreason
      by_cases hb : l.begun
      · have hdone := hb
        rw [begun, Bool.and_eq_true, Bool.and_eq_true, decide_eq_true_eq] at hdone
        obtain ⟨⟨hrequest, _⟩, hquiet⟩ := hdone
        have hsame : (n.startCleanup P d n.shared.snapshot.state).pumpNeeded = l.pumpNeeded :=
          (hpump' (hrequested.trans hrequest)).trans (hpump hquiet)
        rw [hsame, hnative'] at hreason
        have hhere : l.pumpNeeded ∨ l.nativeDeadline ≤ now :=
          hreason.imp_right fun h => hnative ▸ h
        rw [restless, Bool.or_eq_true, Bool.or_eq_true, decide_eq_true_eq]
        exact .inl hhere
      · rw [Bool.not_eq_true] at hb
        rw [restless, hb]
        simp

/-! ### The pump -/

/-- A failure leads out of the loop, to sleep, or to the beginning of the cleanup. -/
theorem failed_settles (hlater : d.later = now) (l : DriverLoop) (error : PumpError) :
    (l.failed d error).shared.closing ∧
      (l.failed d error).patience now < 3 * l.stock + 1 + 5 * (!l.begun).toNat := by
  have hnotified := requestCleanup_stock (l.fail (.pump error)) true
  rw [fail_stock] at hnotified
  rw [failed]
  set m := (l.fail (.pump error)).requestCleanup true with hm
  have hclosing : m.shared.closing := rfl
  have hdeadline : m.cleanupDeadline = l.cleanupDeadline := rfl
  split_ifs with hunsent
  · refine ⟨hclosing, ?_⟩
    show 0 < _
    omega
  · rcases hcleanup : l.cleanupDeadline with _ | deadline <;> rw [hcleanup] at hdeadline <;>
      simp only [hdeadline]
    · refine ⟨hclosing, ?_⟩
      have hnew : l.begun = false := by simp [begun, hcleanup]
      have hround (n : DriverLoop) (hpc : n.pc = .top) (hstock : n.stock = m.stock) :
          n.patience now < 3 * l.stock + 1 + 5 * (!l.begun).toNat := by
        have hbound := (top_patience now n hpc).2
        simp only [hnew, Bool.not_false, Bool.toNat_true]
        omega
      exact hround _ rfl rfl
    · split_ifs with hdue
      · refine ⟨hclosing, ?_⟩
        show 0 < _
        omega
      · refine ⟨hclosing, ?_⟩
        have hasleep : now < min (d.later + cleanupErrorRetry) deadline := by
          have hretry : 0 < cleanupErrorRetry := by decide
          omega
        show (if min (d.later + cleanupErrorRetry) deadline ≤ now then _ else 0) < _
        rw [if_neg (by omega)]
        omega

theorem failed_nearer (hlater : d.later = now) {m : DriverLoop} (error : PumpError)
    (hstock : m.stock = l.stock) (hbegun : m.begun = l.begun)
    (hpump : 3 * l.stock + 1 + 5 * (!l.begun).toNat ≤ l.patience now) :
    Nearer now l (m.failed d error) := by
  obtain ⟨hclosing, hlt⟩ := failed_settles hlater m error
  rw [hstock, hbegun] at hlt
  exact .of_patience hclosing (hlt.trans_le hpump)

/-- A timer of `poll` lies ahead. -/
theorem poll_timer {P : Primitives} {env : Env} {s : Inner} {timer : Option ℕ}
    (h : (NativeCore.poll P env s).1 = .ok timer) : timer ≠ some 0 := by
  rw [NativeCore.poll] at h
  split_ifs at h
  · rw [← Except.ok.inj h]
    exact (Option.some_ne_none 0).symm
  · obtain ⟨_, _, _, hok⟩ := Inner.andThen_eq_ok h
    rw [← Except.ok.inj hok]
    intro hzero
    obtain ⟨deadline, _, hmax⟩ := Option.map_eq_some_iff.mp hzero
    have hmillis : 0 < millis 1 := by decide
    omega

theorem pumpPoll_nearer (hpc : l.pc = .poll) (hclosing : l.shared.closing)
    (hlater : d.later = now) : Nearer now l (l.pumpPoll P d) := by
  have hpump : l.patience now = 3 * l.stock + 1 + 5 * (!l.begun).toNat := by
    rw [patience, hpc]
  rw [pumpPoll]
  split
  · next e _ => exact failed_nearer (l := l) hlater _ rfl rfl hpump.ge
  · next timer htimer =>
    have hahead : (timer == some 0) = false := by simpa using poll_timer htimer
    refine .of_stage hclosing ?_ ?_
    · show 3 * l.stock + 1 + (timer == some 0).toNat + 5 * (!l.begun).toNat ≤ _
      rw [hpump, hahead]
      exact le_rfl
    · rw [hpc]
      exact Nat.lt_succ_self 5

theorem pumping_patience (now : ℕ) {timer : Option ℕ}
    (hpc : l.pc = .controls timer ∨ (∃ packet, l.pc = .sending timer packet) ∨
      ∃ unexpectedDestroy exhausted, l.pc = .events timer unexpectedDestroy exhausted) :
    l.patience now = 3 * l.stock + 1 + (timer == some 0).toNat + 5 * (!l.begun).toNat := by
  rcases hpc with hpc | ⟨_, hpc⟩ | ⟨_, _, hpc⟩ <;> rw [patience, hpc]

theorem pumpPull_nearer {timer : Option ℕ} (hpc : l.pc = .controls timer)
    (hclosing : l.shared.closing) (hlater : d.later = now) :
    Nearer now l (l.pumpPull P d timer) := by
  have hpump := pumping_patience now (.inl hpc)
  rw [pumpPull]
  rcases pullPacket_cases l.server l.core with ⟨_, hnone⟩ | ⟨control, controls, hcontrols, hpull⟩
  · rw [hnone]
    refine .of_stage hclosing hpump.ge ?_
    rw [hpc]
    exact Nat.lt_succ_self 4
  · rcases hpull with ⟨e, herror⟩ | hpacket
    · rw [herror]
      exact failed_nearer (l := l) hlater e rfl rfl (by omega)
    · rw [hpacket]
      refine .of_within hclosing hpump.ge (.inr ⟨by rw [hpc]; rfl, ?_⟩)
      have hrest : (l.call P d.env .pullControl).core.controls = controls := by
        show (NativeCore.pullControl l.core).2.controls = controls
        rw [NativeCore.pullControl, hcontrols]
        simp only
        split <;> rfl
      show 2 * (l.call P d.env .pullControl).core.controls.length + 1 < l.queue
      rw [hrest, queue, hpc]
      simp only [hcontrols, List.length_cons]
      omega

theorem pumpSend_nearer {timer : Option ℕ} {packet : Bytes} (hpc : l.pc = .sending timer packet)
    (hclosing : l.shared.closing) (hlater : d.later = now) :
    Nearer now l (l.pumpSend d timer packet) := by
  have hpump := pumping_patience now (.inr (.inl ⟨packet, hpc⟩))
  rw [pumpSend]
  split
  · exact failed_nearer (l := l) hlater _ rfl rfl (by omega)
  · refine .of_within hclosing hpump.ge (.inr ⟨by rw [hpc]; rfl, ?_⟩)
    show 2 * l.core.controls.length < l.queue
    rw [queue, hpc]
    exact Nat.lt_succ_self _

theorem stock_of_sameFlags (hflags : l.shared.SameFlags l'.shared) (harrived : l'.arrived = l.arrived)
    (hfailure : l'.writeFailure = l.writeFailure) : l'.stock = l.stock := by
  rw [stock, stock, hflags.wake, harrived, hfailure]

/-- A pump that ends has set the time of the next one, and left no reason for it but a cleanup
that has not begun. -/
theorem pumpEvent_nearer {timer : Option ℕ} {unexpectedDestroy exhausted : Bool}
    (hpc : l.pc = .events timer unexpectedDestroy exhausted) (hclosing : l.shared.closing)
    (hlater : d.later = now) :
    Nearer now l (l.pumpEvent P d timer unexpectedDestroy exhausted) := by
  have hpump := pumping_patience now (.inr (.inr ⟨unexpectedDestroy, exhausted, hpc⟩))
  rw [pumpEvent]
  set p : Pump := { shared := l.shared, unexpectedDestroy, channelRebindExhausted := exhausted }
    with hp
  rcases hevents : l.core.events with _ | ⟨e, events⟩
  · have hflags : l.shared.SameFlags p.finish := p.finish_sameFlags
    refine .of_stage (hflags.closing.trans hclosing) ?_ (by rw [hpc]; exact Nat.lt_succ_self 3)
    set m : DriverLoop := { l.call P d.env .pullEvent with
      shared := p.finish
      nativeDeadline := d.later + timer.getD (secs 86400)
      pumpNeeded := false
      pc := .top } with hm
    have hstock : m.stock = l.stock := stock_of_sameFlags hflags rfl rfl
    have hbegun : m.begun = l.begun := rfl
    have hagain : (m.restless now).toNat ≤ (timer == some 0).toNat + (!l.begun).toNat := by
      rw [restless, hbegun]
      show (false || decide (d.later + timer.getD (secs 86400) ≤ now) || !l.begun).toNat ≤ _
      rcases timer with _ | _ | timer
      · have hday : 0 < secs 86400 := by decide
        rw [Option.getD_none, decide_eq_false (by omega)]
        exact Nat.le_add_left _ _
      · have hone := (false || decide (d.later + (some 0).getD (secs 86400) ≤ now) || !l.begun).toNat_le
        exact hone.trans (Nat.le_add_right 1 _)
      · rw [Option.getD_some, decide_eq_false (by omega)]
        exact Nat.le_add_left _ _
    show 3 * m.stock + 1 + (m.restless now).toNat ≤ _
    omega
  · simp only
    split
    · exact failed_nearer (l := l) hlater _ rfl rfl (by omega)
    · next q hq =>
      have hflags : l.shared.SameFlags q.shared := Pump.event_sameFlags hq
      set m : DriverLoop := { l.call P d.env .pullEvent with
        shared := q.shared
        pc := .events timer q.unexpectedDestroy q.channelRebindExhausted } with hm
      have hstock : m.stock = l.stock := stock_of_sameFlags hflags rfl rfl
      refine .of_within (hflags.closing.trans hclosing) ?_ (.inr ⟨by rw [hpc]; rfl, ?_⟩)
      · rw [hpump, ← hstock]
        exact le_rfl
      · show l.core.events.tail.length < l.queue
        rw [queue, hpc, hevents]
        exact Nat.lt_succ_self _

/-! ### Outside of the pump -/

theorem waitTime_pos (l : DriverLoop) : 0 < l.waitTime d := by
  rw [waitTime]
  split_ifs with hzero
  · decide
  · omega

theorem park_nearer (hpc : l.pc = .idle) (hclosing : l.shared.closing)
    (hlater : d.later = now) : Nearer now l (l.park d) := by
  have hidle : l.patience now = 3 * l.stock := by rw [patience, hpc]
  have hwait := l.waitTime_pos (d := d)
  rw [park, hclosing]
  rcases l.inbound
  · refine .of_stage hclosing ?_ (by rw [hpc]; exact Nat.lt_succ_self 1)
    show 3 * l.stock + (if l.waitTime d = 0 then 3 else 0) ≤ _
    rw [if_neg (by omega), hidle]
    exact le_rfl
  · refine .of_stage hclosing ?_ (by rw [hpc]; exact Nat.zero_lt_succ 1)
    show 3 * l.stock + (if false = true ∨ d.later + l.waitTime d ≤ now then 3 else 0) ≤ _
    rw [if_neg (by simp; omega), hidle]
    exact le_rfl

/-- What is left alone by a packet that is read. -/
theorem process_same (l : DriverLoop) (wire : Bytes) (pooled : Bool) :
    (l.process P d wire pooled).2.shared = l.shared ∧
      (l.process P d wire pooled).2.arrived = l.arrived ∧
      (l.process P d wire pooled).2.writeFailure = l.writeFailure ∧
      (l.process P d wire pooled).2.pc = l.pc := by
  rw [process]
  split
  · exact ⟨rfl, rfl, rfl, rfl⟩
  · split_ifs
    · exact ⟨rfl, rfl, rfl, rfl⟩
    · exact ⟨rfl, rfl, rfl, rfl⟩

/-- Something that has come is taken. -/
theorem stock_of_taken {item : Except String Wire} (harrived : l.arrived = item :: l'.arrived)
    (hshared : l'.shared = l.shared) (hfailure : l'.writeFailure = l.writeFailure) :
    l'.stock + 1 = l.stock := by
  rw [stock, stock, harrived, hshared, hfailure, List.length_cons]
  omega

theorem process_stock (wire : Bytes) (pooled : Bool) {item : Except String Wire}
    {arrived : List (Except String Wire)} (harrived : l.arrived = item :: arrived) :
    ({ l with arrived }.process P d wire pooled).2.stock + 1 = l.stock := by
  obtain ⟨hshared, hrest, hfailure, _⟩ :=
    process_same (P := P) (d := d) { l with arrived } wire pooled
  exact stock_of_taken (harrived.trans (congrArg _ hrest.symm)) hshared hfailure

theorem flush_patience (now : ℕ) {wait : ℕ} (hpc : l.pc = .flush wait) :
    l.patience now = 3 * l.stock + if wait = 0 then 3 else 0 := by
  rw [patience, hpc]

theorem flushOne_nearer {wait : ℕ} (hpc : l.pc = .flush wait) (hclosing : l.shared.closing)
    (hlater : d.later = now) : Nearer now l (l.flushOne P d wait) := by
  have hflush := flush_patience now hpc
  have hselect : (if false = true ∨ d.later + wait ≤ now then 3 else 0) ≤
      if wait = 0 then 3 else 0 := by
    by_cases hzero : wait = 0
    · rw [if_pos hzero]
      split_ifs <;> omega
    · rw [if_neg (by simp; omega)]
      exact Nat.zero_le _
  rw [flushOne]
  split
  · refine .of_stage hclosing ?_ (by rw [hpc]; exact Nat.zero_lt_succ 0)
    show 3 * l.stock + (if false = true ∨ d.later + wait ≤ now then 3 else 0) ≤ _
    omega
  · next e arrived harrived =>
    have hless : ({ l with arrived } : DriverLoop).stock + 1 = l.stock :=
      stock_of_taken harrived rfl rfl
    refine .of_patience hclosing ?_
    show 3 * ({ l with arrived } : DriverLoop).stock +
      (if false = true ∨ d.later + wait ≤ now then 3 else 0) < _
    omega
  · next wire arrived harrived =>
    have hless := process_stock (P := P) (d := d) wire false harrived
    obtain ⟨hshared, _, _, hsame⟩ := process_same (P := P) (d := d) { l with arrived } wire false
    generalize { l with arrived }.process P d wire false = r at hless hshared hsame ⊢
    obtain ⟨action, m⟩ := r
    refine .of_patience ?_ ?_
    · show m.shared.closing
      rw [hshared]
      exact hclosing
    · have hround (n : DriverLoop) (hpc' : n.pc = .flush wait) (hstock : n.stock = m.stock) :
          n.patience now < l.patience now := by
        rw [hflush, flush_patience now hpc', hstock]
        simp only at hless
        omega
      exact hround _ (hsame.trans hpc) rfl

theorem burst_patience (now : ℕ) {wait taken : ℕ} (hpc : l.pc = .burst wait taken) :
    l.patience now = 3 * l.stock + 6 := by
  rw [patience, hpc]

theorem burstOne_nearer {wait taken : ℕ} (hpc : l.pc = .burst wait taken)
    (hclosing : l.shared.closing) : Nearer now l (l.burstOne P d wait taken) := by
  have hburst := burst_patience now hpc
  have htop (n : DriverLoop) (hpc' : n.pc = .top) (hstock : n.stock ≤ l.stock) :
      n.patience now < l.patience now := by
    have hbound := (top_patience now n hpc').2
    omega
  rw [burstOne]
  split
  · exact .of_patience hclosing (htop _ rfl le_rfl)
  · split
    · by_cases hpump : l.pumpNeeded
      · rw [if_pos hpump]
        exact .of_patience hclosing (htop _ rfl le_rfl)
      · rw [if_neg hpump]
        exact .of_stage hclosing hburst.ge (by rw [hpc]; exact Nat.zero_lt_succ 0)
    · next e arrived harrived =>
      -- the failure's wake takes the place of the datagram in the stock
      have hless : ({ l with arrived } : DriverLoop).stock + 1 = l.stock :=
        stock_of_taken harrived rfl rfl
      have hnotified := requestCleanup_stock (({ l with arrived } : DriverLoop).fail (.receive e)) true
      rw [fail_stock, hless] at hnotified
      exact .of_patience rfl (htop _ rfl hnotified)
    · next wire arrived harrived =>
      have hless := process_stock (P := P) (d := d) wire d.pooled harrived
      obtain ⟨hshared, hrest, hfailure, _⟩ :=
        process_same (P := P) (d := d) { l with arrived } wire d.pooled
      generalize { l with arrived }.process P d wire d.pooled = r at hless hshared hrest hfailure ⊢
      obtain ⟨action, m⟩ := r
      simp only at hless hshared hrest hfailure
      have hround (n : DriverLoop) (hpc' : n.pc = .burst wait (taken + 1))
          (hstock : n.stock = m.stock) : n.patience now < l.patience now := by
        rw [hburst, burst_patience now hpc', hstock]
        omega
      have hstays : m.shared.closing := by
        rw [hshared]
        exact hclosing
      cases action with
      | wait => exact .of_patience hstays (hround _ rfl rfl)
      | pump => exact .of_patience hstays (hround _ rfl rfl)
      | ownerClosed =>
        have hnotified := requestCleanup_stock m true
        refine .of_patience rfl (htop _ rfl ?_)
        have hdropped : (arrived.drop (min d.rest
            (arrived.takeWhile Except.isOk).length)).length ≤ m.arrived.length := by
          rw [hrest, List.length_drop]
          exact Nat.sub_le _ _
        rw [stock] at hnotified ⊢
        show (arrived.drop (min d.rest (arrived.takeWhile Except.isOk).length)).length +
          (m.requestCleanup true).shared.wake.toNat +
          (m.requestCleanup true).writeFailure.isSome.toNat ≤ _
        have hsame : (m.requestCleanup true).arrived.length = m.arrived.length := rfl
        omega

/-! ### Waiting -/

theorem takeReadable_nearer {deadline : ℕ} {signalled : Bool}
    (hpc : l.pc = .select .readable deadline signalled) (hclosing : l.shared.closing)
    (howner : l.ownerClosed = false) (h : l.takeReadable d = some l') : Nearer now l l' := by
  have hselect : l.patience now = 3 * l.stock + 6 := by rw [patience, hpc]
  have htop (n : DriverLoop) (hpc' : n.pc = .top) (hstock : n.stock ≤ l.stock + 1) :
      n.patience now < l.patience now := by
    have hbound := (top_patience now n hpc').2
    omega
  rw [takeReadable, howner, if_neg Bool.false_ne_true] at h
  split at h
  · cases h
  · split at h
    · obtain rfl := Option.some.inj h
      exact .of_patience hclosing (htop _ rfl (Nat.le_succ _))
    · next e _ =>
      obtain rfl := Option.some.inj h
      have hnotified := requestCleanup_stock (l.fail (.receive e)) true
      rw [fail_stock] at hnotified
      exact .of_patience rfl (htop _ rfl hnotified)

/-- The two calls of `select!` that the cleanup makes. -/
theorem select_patience (now : ℕ) {kind : Select} {deadline : ℕ} {signalled : Bool}
    (hpc : l.pc = .select kind deadline signalled) :
    3 * l.stock + (if signalled ∨ deadline ≤ now then 3 else 0) ≤ l.patience now := by
  rw [patience, hpc]
  cases kind with
  | readable =>
    simp only
    split_ifs <;> omega
  | datagram => exact le_rfl
  | frame => exact le_rfl

/-- One thing less leaves time for a round. -/
theorem nearer_of_less {kind : Select} {deadline : ℕ} {signalled : Bool}
    (hpc : l.pc = .select kind deadline signalled) (hclosing : l'.shared.closing)
    (hpc' : l'.pc = .top) (hless : l'.stock + 1 ≤ l.stock) : Nearer now l l' := by
  have hselect := select_patience now hpc
  have hbound := (top_patience now l' hpc').2
  exact .of_patience hclosing (by omega)

theorem takeDatagram_nearer {deadline : ℕ} {signalled : Bool}
    (hpc : l.pc = .select .datagram deadline signalled) (hclosing : l.shared.closing)
    (hlater : d.later = now) (h : l.takeDatagram P d = some l') : Nearer now l l' := by
  rw [takeDatagram] at h
  split at h
  · cases h
  · next wire arrived harrived =>
    obtain rfl := Option.some.inj h
    have hless := process_stock (P := P) (d := d) wire false harrived
    have hshared := (process_same (P := P) (d := d) { l with arrived } wire false).1
    refine nearer_of_less hpc ?_ rfl hless.le
    show ({ l with arrived }.process P d wire false).2.shared.closing
    rw [hshared]
    exact hclosing
  · next e arrived harrived =>
    obtain rfl := Option.some.inj h
    have hselect := select_patience now hpc
    have hless : ({ l with arrived } : DriverLoop).stock + 1 = l.stock :=
      stock_of_taken harrived rfl rfl
    refine .of_patience (((l.shared.fail_sameFlags (.receive e)).closing).trans hclosing) ?_
    have hretry : 0 < cleanupErrorRetry := by decide
    show (if d.later + cleanupErrorRetry ≤ now then _ else 0) < _
    rw [if_neg (by omega)]
    omega

/-- Behind `wake` and the timer, a frame or a failure of the writer is taken. -/
theorem takeFrame_nearer {deadline : ℕ} {signalled : Bool}
    (hpc : l.pc = .select .frame deadline signalled) (hclosing : l.shared.closing)
    (hnews : (l.ownerClosed || l.writeFailure.isNone && (l.writerGone || l.ended)) = false)
    (h : l.takeFrame P d = some l') : Nearer now l l' := by
  rw [Bool.or_eq_false_iff] at hnews
  rcases takeFrame_taken h with howner | ⟨_, hfailure⟩ | ⟨hfailure, hgone⟩ |
    ⟨hfailure, harrived⟩ | ⟨_, _, harrived, pumpNeeded⟩
  · exact absurd howner (Bool.eq_false_iff.mp hnews.1)
  · -- the owner has been told already
    have htaken (reason : String) : l.takeWriteFailure reason =
        { l with writeFailure := none, pc := .top } := if_pos hclosing
    rw [htaken]
    refine nearer_of_less hpc hclosing rfl ?_
    rw [stock, stock, hfailure]
    show l.arrived.length + l.shared.wake.toNat + 0 + 1 ≤ l.arrived.length + l.shared.wake.toNat + 1
    exact le_rfl
  · rw [hfailure, hgone, Bool.true_or] at hnews
    exact absurd hnews.2 (by decide)
  · have hended : l.ended = true := by rw [ended, harrived]
    rw [hfailure, hended, Bool.or_true] at hnews
    exact absurd hnews.2 (by decide)
  · next wire arrived _ _ =>
    have hless := process_stock (P := P) (d := d) wire d.pooled harrived
    have hshared := (process_same (P := P) (d := d) { l with arrived } wire d.pooled).1
    refine nearer_of_less hpc ?_ rfl hless.le
    show ({ l with arrived }.process P d wire d.pooled).2.shared.closing
    rw [hshared]
    exact hclosing

theorem wait_nearer {kind : Select} {deadline : ℕ} {signalled : Bool}
    (hpc : l.pc = .select kind deadline signalled) (hclosing : l.shared.closing)
    (hnow : d.env.now = now) (hlater : d.later = now)
    (hnews : l.stuck d kind deadline signalled = false)
    (h : l.wait P d kind deadline signalled = some l') : Nearer now l l' := by
  unfold DriverLoop.wait at h
  unfold stuck at hnews
  split_ifs at h hnews with hwake htime
  · obtain rfl := Option.some.inj h
    refine nearer_of_less hpc hclosing rfl ?_
    have htaken : l.takeWake.stock = l.arrived.length + 0 + l.writeFailure.isSome.toNat := rfl
    rw [htaken, stock, hwake, Bool.toNat_true]
    omega
  · obtain rfl := Option.some.inj h
    have hselect := select_patience now hpc
    rw [hnow] at htime
    rw [if_pos htime] at hselect
    have hbound := (top_patience now { l with pumpNeeded := true, pc := .top } rfl).2
    have hstock : ({ l with pumpNeeded := true, pc := .top } : DriverLoop).stock = l.stock := rfl
    exact .of_patience hclosing (by omega)
  · cases kind with
    | readable => exact takeReadable_nearer hpc hclosing hnews h
    | datagram => exact takeDatagram_nearer hpc hclosing hlater h
    | frame => exact takeFrame_nearer hpc hclosing hnews h

/-- A step that is not in vain, with the clock standing still. -/
theorem drive_nearer (hclosing : l.shared.closing) (hnow : d.env.now = now)
    (hlater : d.later = now) (hattentive : l.Attentive (.drive d))
    (h : l.drive P d = some l') : Nearer now l l' := by
  rw [drive] at h
  rcases hpc : l.pc with _ | _ | timer | ⟨timer, packet⟩ | ⟨timer, _, _⟩ | deadline | _ |
    ⟨wait, taken⟩ | wait | ⟨kind, deadline, signalled⟩ | reason <;> simp only [hpc] at h
  · obtain rfl := Option.some.inj h
    exact iterate_nearer hpc hclosing hlater
  · obtain rfl := Option.some.inj h
    exact pumpPoll_nearer hpc hclosing hlater
  · obtain rfl := Option.some.inj h
    exact pumpPull_nearer hpc hclosing hlater
  · obtain rfl := Option.some.inj h
    exact pumpSend_nearer hpc hclosing hlater
  · obtain rfl := Option.some.inj h
    exact pumpEvent_nearer hpc hclosing hlater
  · split_ifs at h with hdue
    obtain rfl := Option.some.inj h
    have hasleep : l.patience now = 3 * l.stock + 3 := by
      rw [patience, hpc]
      exact if_pos (hnow ▸ hdue)
    have hbound := (top_patience now { l with pc := .top } rfl).2
    have hstock : ({ l with pc := .top } : DriverLoop).stock = l.stock := rfl
    exact .of_patience hclosing (by omega)
  · obtain rfl := Option.some.inj h
    exact park_nearer hpc hclosing hlater
  · obtain rfl := Option.some.inj h
    exact burstOne_nearer hpc hclosing
  · obtain rfl := Option.some.inj h
    exact flushOne_nearer hpc hclosing hlater
  · rw [Attentive, Vain, hpc] at hattentive
    simp only [hclosing, Bool.true_and] at hattentive
    exact wait_nearer hpc hclosing hnow hlater hattentive h
  · cases h

/-! ### Along a run -/

/-- Once it is closing, the driver comes to a wait. -/
theorem not_endless (hclosing : l.shared.closing) (now : ℕ) : ¬ Endless P now l := by
  rintro ⟨f, draws, hstart, hsteps⟩
  have hnearer : ∀ n, (f n).shared.closing → Nearer now (f n) (f (n + 1)) := by
    intro n hopen
    obtain ⟨hnow, hlater, hattentive, hstep⟩ := hsteps n
    exact drive_nearer hopen hnow hlater hattentive hstep
  have hstays : ∀ n, (f n).shared.closing := by
    intro n
    induction n with
    | zero => exact hstart ▸ hclosing
    | succ n ih => exact (hnearer n ih).closing
  have hdown : StrictAnti fun n => (f n).rank now :=
    strictAnti_nat_of_succ_lt fun n => (hnearer n (hstays n)).rank
  exact not_strictAnti_of_wellFoundedLT _ hdown

/-- A `select!` does not wait while something has come. -/
theorem wait_some (P : Primitives) (d : Draw) (kind : Select) (deadline : ℕ) (signalled : Bool)
    {item : Except String Wire} {arrived : List (Except String Wire)}
    (harrived : l.arrived = item :: arrived) :
    (l.wait P d kind deadline signalled).isSome := by
  unfold DriverLoop.wait
  split_ifs
  · rfl
  · rfl
  · cases kind with
    | readable =>
      simp only [takeReadable, harrived]
      split_ifs
      · rfl
      · rcases d.readable with _ | _ <;> rfl
    | datagram =>
      simp only [takeDatagram, harrived]
      rcases item with _ | _ <;> rfl
    | frame =>
      simp only [takeFrame, harrived]
      split
      · rfl
      · split
        · rfl
        · split
          · rfl
          · rcases item with _ | wire
            · rfl
            · simp only
              split <;> rfl

/-- Where the driver waits, nothing has come that it has not read. -/
theorem drive_none (h : l.drive P d = none) :
    l.arrived = [] ∨ (∃ deadline, l.pc = .retry deadline ∧ d.env.now < deadline) ∨
      ∃ reason, l.pc = .left reason := by
  rw [drive] at h
  rcases hpc : l.pc with _ | _ | timer | ⟨timer, packet⟩ | ⟨timer, _, _⟩ | deadline | _ |
    ⟨wait, taken⟩ | wait | ⟨kind, deadline, signalled⟩ | reason <;> simp only [hpc] at h
  case retry =>
    split_ifs at h with hdue
    exact .inr (.inl ⟨deadline, rfl, Nat.not_le.mp hdue⟩)
  case select =>
    rcases harrived : l.arrived with _ | ⟨item, arrived⟩
    · exact .inl rfl
    · have hsome := wait_some P d kind deadline signalled harrived
      rw [h] at hsome
      cases hsome
  case left => exact .inr (.inr ⟨reason, rfl⟩)
  all_goals cases h

theorem listens_iff : l.Listens P ↔ l.ledger.wasted = 0 :=
  ⟨Listens.wasted, fun h => ⟨h, fun _ _ => drive_none, not_endless⟩⟩

/-- **When the cleanup listens.**  In a run the driver makes no `select!` in vain after closing,
reads whatever has come before it waits, and comes to a wait, exactly if no `select!` finds its
own notification, the owner that has gone, the writer that has gone, or the end of the stream
first. -/
theorem cleanup_listens_iff (P : Primitives) (inbound : TurnInbound) (core : Inner)
    (epoch now : ℕ) (events : List LoopEvent) :
    Transition.Always (step P) (Listens P) (spawn inbound core epoch now) events ↔
      Transition.Admits (step P) Attentive (spawn inbound core epoch now) events := by
  refine Transition.always_iff_admits (Q := fun _ => True) (fun _ _ _ _ _ => trivial) ?_ trivial
    (listens_iff.mpr rfl)
  intro l event l' _ hlistens hstep
  rw [listens_iff, step_wasted hstep, hlistens.wasted, Nat.zero_add, Attentive]
  cases l.Vain event with
  | false => exact iff_of_true rfl rfl
  | true => exact iff_of_false (by decide) (by decide)

/-! ### An owner that has gone -/

def streamCore : Inner := { Inner.freshCore with transport := .stream }

/-- The signed answer to the Deallocate. -/
def deallocatedPacket : Bytes :=
  spelled 0x0104 ((Inner.moment 0 3).transaction .deallocate)
    (signed Inner.zeroDigests (Inner.freshKey Inner.zeroDigests) 0x0104
      ((Inner.moment 0 3).transaction .deallocate) [(attrLifetime, [0, 0, 0, 0])])

/-- The allocation is made, the owner shuts it down and drops its receiver, and the server
answers. -/
def abandonedRun : List LoopEvent :=
  .call (Inner.moment 0 0) .startAllocation :: drives 9 0 ++
    .arrive (.ok ⟨Inner.challengePacket, challengePacket_fits⟩) :: drives 9 1 ++
    .arrive (.ok ⟨Inner.allocatedPacket Inner.zeroDigests, allocatedPacket_fits⟩) :: drives 10 2 ++
    .requestCleanup :: .call (Inner.moment 0 3) .gracefulShutdown :: .dropReceiver ::
      drives 10 3 ++
    .arrive (.ok ⟨deallocatedPacket, by decide +kernel⟩) :: drives 30 4

/-- The driver turns round, and the answer that would end the cleanup lies unread. -/
theorem closed_owner_spins :
    ¬ ∀ (core : Inner) (server peer : SocketAddr) (username password : Bytes)
      (events : List LoopEvent),
      NativeCore.create server username password peer .stream = .ok core →
      Transition.Always (step Inner.zeroDigests) (Listens Inner.zeroDigests)
        (spawn .stream core 0 0) events := by
  intro hclaim
  have hend : (Transition.run (step Inner.zeroDigests) (spawn .stream streamCore 0 0)
      abandonedRun).any (fun l => l.arrived.length = 1 && l.ledger.wasted ≠ 0 &&
        (NativeCore.inputStun Inner.zeroDigests (Inner.moment 0 4) l.core deallocatedPacket).2.state
          = .deallocated) := by
    decide +kernel
  obtain ⟨l, hrun, hl⟩ := (Option.any_eq_true _ _).mp hend
  rw [Bool.and_eq_true, Bool.and_eq_true, decide_eq_true_eq, decide_eq_true_eq] at hl
  have hlistens := Transition.always_iff_prefixes.mp
    (hclaim streamCore streamCore.server streamCore.peer streamCore.username streamCore.password
      abandonedRun rfl) abandonedRun List.prefix_rfl l hrun
  exact hl.1.2 hlistens.wasted

end DriverLoop

end Csqtt.Turn
