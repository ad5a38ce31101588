/-
The quiet timer of the idle monitor, and the bursts that end the idle mode.

`note_uplink` looks at the number of packets and of new connections, `monitor` at the
bytes that have been counted between two polls; the only thing they share is `ACTIVE`.
Here both are calls that run to their end, with a clock between them: a packet is noted
when it is injected and counted when the bridge reader has framed it.

* `complete_enter`, `complete_exit` — the calls of `Idle` as wholes;
* `burst_parked_again` — a dozen small packets end the idle mode, and the next poll, four
  seconds later, begins it again: `exit` does not restart the quiet timer;
* `paused_silent_iff` — each `enter` comes after a silence of `after` exactly when no quiet poll
  finds the timer of before the last exit run out (`Restarted`).
-/
import Csqtt.Idle
import Csqtt.FlowSequence

namespace Csqtt.Idle

open Transition FlowFrame

/-! ### Whole calls -/

/-- The accesses of a call up to its return, at most `fuel` of them. -/
def complete : ℕ → Memory → Call → Memory
  | 0, m, _ => m
  | fuel + 1, m, c =>
    match callStep m c with
    | (m, none) => m
    | (m, some c) => complete fuel m c

namespace Memory

variable {m : Memory} {keep : ℕ}

/-- `enter`; the longest way through it is eight accesses. -/
def enter (m : Memory) (keep : ℕ) : Memory := complete 8 m (Idle.enter keep)

/-- `exit`. -/
def exit (m : Memory) : Memory := complete 8 m Idle.exit

/-- The guards of `enter` let it take effect. -/
def Enters (m : Memory) (keep : ℕ) : Prop :=
  0 < keep ∧ keep < m.totalWorkers ∧ m.active = false

instance (m : Memory) (keep : ℕ) : Decidable (m.Enters keep) := inferInstanceAs (Decidable (_ ∧ _))

theorem enter_of_enters (h : m.Enters keep) :
    m.enter keep = { m with
      active := true, limit := keep, declared := keep, genOffset := m.genOffset + 1,
      announce := m.announce + 1, packetWindowCount := 0, synWindowCount := 0 } := by
  obtain ⟨hkeep, htotal, hactive⟩ := h
  have hwork : ¬ (keep = 0 ∨ m.totalWorkers = 0 ∨ m.totalWorkers ≤ keep) := by omega
  simp [enter, Idle.enter, complete, callStep, hwork, hactive]

theorem enter_of_not_enters (h : ¬ m.Enters keep) : m.enter keep = m := by
  by_cases hwork : keep = 0 ∨ m.totalWorkers = 0 ∨ m.totalWorkers ≤ keep
  · simp [enter, Idle.enter, complete, callStep, hwork]
  · have hactive : m.active = true := by
      by_contra hinactive
      exact h ⟨by omega, by omega, Bool.not_eq_true _ ▸ hinactive⟩
    simp [enter, Idle.enter, complete, callStep, hwork, hactive]
    rw [← hactive]

theorem exit_of_active (h : m.active = true) :
    m.exit = { m with
      active := false, limit := usizeMax, declared := m.totalWorkers,
      announce := m.announce + 1 } := by
  simp [exit, Idle.exit, complete, callStep, h]

theorem exit_of_inactive (h : m.active = false) : m.exit = m := by
  simp [exit, Idle.exit, complete, callStep, h]
  rw [← h]

end Memory

/-! ### The hot path -/

/-- `EXIT_PACKETS` and the rest. -/
def exitPackets : ℕ := 12
def exitPacketsWindowMs : ℕ := 1000
def exitSyns : ℕ := 3
def exitSynsWindowMs : ℕ := 3000

/-- `is_tcp_syn`: an IPv4 TCP segment with SYN set and ACK clear. -/
def isTcpSyn (packet : Packet) : Bool :=
  if packet.length < 20 ∨ packet.getD 0 0 >>> 4 ≠ 4 ∨ packet.getD 9 0 ≠ 6 then false
  else
    let ihl := (packet.getD 0 0 &&& 0x0f).toNat * 4
    if ihl < 20 ∨ packet.length < ihl + 14 then false
    else
      let flags := packet.getD (ihl + 13) 0
      flags &&& 0x02 ≠ 0 && flags &&& 0x10 = 0

example : isTcpSyn ((List.replicate 40 0).set 0 0x45 |>.set 9 6 |>.set 33 0x02) = true ∧
    isTcpSyn ((List.replicate 40 0).set 0 0x45 |>.set 9 6 |>.set 33 0x12) = false := by
  decide

/-- `window_hit`: whether the limit is reached, the start of the window and the count. -/
def windowHit (start count nowMs windowMs limit : ℕ) : Bool × ℕ × ℕ :=
  if windowMs < nowMs - start then (limit ≤ 1, nowMs, 1)
  else (limit ≤ count + 1, start, count + 1)

structure Monitor where
  keep : ℕ
  after : ℕ

/-- `POLL` and `ACTIVE_BYTES_PER_POLL`. -/
def poll : ℕ := 5 * 1000000000
def activeBytesPerPoll : ℤ := 1400

/-- The statics, the bridge reader, the locals of the monitor, and the clock. -/
structure Uplink where
  memory : Memory
  packetWindowStartMs : ℕ
  synWindowStartMs : ℕ
  now : ℕ
  /-- Injected and not counted yet. -/
  waiting : List PacketBuf := []
  sequences : FlowSequencer
  totalBytesUp : ℤ
  lastBytes : ℤ
  quietSince : ℕ
  /-- The clock at the last poll; the monitor sleeps for `POLL` after it. -/
  polledAt : ℕ
  /-- The last exit that has taken effect, or the start of the monitor. -/
  exitedAt : ℕ
  /-- The last poll that has found the uplink active, or the start of the monitor. -/
  loudAt : ℕ
  /-- For each `enter` that has taken effect, how long it had been silent. -/
  silences : List ℕ := []

inductive UplinkEvent where
  /-- The clock goes on. -/
  | pass (duration : ℕ)
  /-- `inject_packet`. -/
  | inject (packet : PacketBuf)
  /-- The bridge reader frames and counts the `i`-th packet of those waiting. -/
  | count (i : ℕ)
  | poll

namespace Uplink

variable {c : Monitor} {s s' : Uplink} {e : UplinkEvent}

def clockMs (s : Uplink) : ℕ := s.now / 1000000

/-- `exit`, with its time. -/
def exit (s : Uplink) : Uplink :=
  { s with
    memory := s.memory.exit
    exitedAt := if s.memory.active then s.now else s.exitedAt }

/-- The windows of the connections; the packet is a SYN. -/
def hitSyns (s : Uplink) : Bool × Uplink :=
  let (hit, start, count) := windowHit s.synWindowStartMs s.memory.synWindowCount s.clockMs
    exitSynsWindowMs exitSyns
  (hit, { s with synWindowStartMs := start, memory := { s.memory with synWindowCount := count } })

def hitPackets (s : Uplink) : Bool × Uplink :=
  let (hit, start, count) := windowHit s.packetWindowStartMs s.memory.packetWindowCount s.clockMs
    exitPacketsWindowMs exitPackets
  (hit, { s with
    packetWindowStartMs := start, memory := { s.memory with packetWindowCount := count } })

def noteUplink (s : Uplink) (packet : Packet) : Uplink :=
  if s.memory.active = false then s
  else
    let (hit, s) := if isTcpSyn packet then s.hitSyns else (false, s)
    if hit then s.exit
    else
      let (hit, s) := s.hitPackets
      if hit then s.exit else s

/-- What the reader makes of a packet. -/
def countOne (s : Uplink) (packet : PacketBuf) : Uplink :=
  let (framed, sequences) := frameOutboundPacket s.sequences packet
  { s with
    sequences
    totalBytesUp := s.totalBytesUp + (framed.elim 0 fun framed => (framed.bytes.length : ℤ)) }

def delta (s : Uplink) : ℤ := s.totalBytesUp - s.lastBytes

/-- `should_enter`. -/
def shouldEnter (quietFor after : ℕ) (active : Bool) : Bool := !active && after ≤ quietFor

/-- `enter`, with the time it had been silent before. -/
def enter (s : Uplink) (keep : ℕ) : Uplink :=
  { s with
    memory := s.memory.enter keep
    silences :=
      if s.memory.Enters keep then (s.now - max s.exitedAt s.loudAt) :: s.silences
      else s.silences }

/-- One turn of the loop of `monitor`. -/
def pollOne (c : Monitor) (s : Uplink) : Uplink :=
  let polled := { s with lastBytes := s.totalBytesUp, polledAt := s.now }
  if activeBytesPerPoll < s.delta then { polled with quietSince := s.now, loudAt := s.now }
  else if shouldEnter (s.now - s.quietSince) c.after s.memory.active then polled.enter c.keep
  else polled

def step (c : Monitor) (s : Uplink) : UplinkEvent → Option Uplink
  | .pass duration => some { s with now := s.now + duration }
  | .inject packet =>
    some { s.noteUplink packet.bytes with waiting := s.waiting ++ [packet] }
  | .count i =>
    s.waiting[i]?.map fun packet => { s.countOne packet with waiting := s.waiting.eraseIdx i }
  | .poll =>
    -- `monitor` returns at once when there is nothing to keep
    if c.keep = 0 ∨ s.now < s.polledAt + poll then none else some (s.pollOne c)

/-- The monitor starts, right after `reset`. -/
def start (m : Memory) (total : ℕ) (packetWindowStartMs synWindowStartMs now : ℕ)
    (sequences : FlowSequencer) (bytes : ℤ) : Uplink :=
  { memory := m.reset total, packetWindowStartMs, synWindowStartMs, now, sequences
    totalBytesUp := bytes, lastBytes := bytes, quietSince := now, polledAt := now
    exitedAt := now, loudAt := now }

/-- Every `enter` came after a silence of `after`. -/
def Silent (c : Monitor) (s : Uplink) : Prop := ∀ silence ∈ s.silences, c.after ≤ silence

instance (c : Monitor) (s : Uplink) : Decidable (Silent c s) :=
  inferInstanceAs (Decidable (∀ silence ∈ s.silences, c.after ≤ silence))

/-- A quiet poll that finds the timer run out finds one that a loud poll has started since
the last exit, or an exit that is itself that long ago. -/
def Restarted (c : Monitor) (s : Uplink) : UplinkEvent → Prop
  | .poll => s.memory.Enters c.keep → s.delta ≤ activeBytesPerPoll →
      s.quietSince + c.after ≤ s.now → s.exitedAt ≤ s.quietSince ∨ s.exitedAt + c.after ≤ s.now
  | _ => True

/-! ### Nobody but the monitor touches its timer -/

/-- The monitor's own view of the past is right. -/
structure Clocked (s : Uplink) : Prop where
  quiet : s.quietSince = s.loudAt
  loud : s.loudAt ≤ s.now
  exited : s.exitedAt ≤ s.now

/-- What a note leaves alone, and the one thing it may put down. -/
structure Noted (s s' : Uplink) : Prop where
  now : s'.now = s.now
  quiet : s'.quietSince = s.quietSince
  loud : s'.loudAt = s.loudAt
  silences : s'.silences = s.silences
  exited : s'.exitedAt = s.exitedAt ∨ s'.exitedAt = s.now

theorem Noted.refl (s : Uplink) : Noted s s := ⟨rfl, rfl, rfl, rfl, .inl rfl⟩

theorem Noted.trans {s'' : Uplink} (h : Noted s s') (h' : Noted s' s'') : Noted s s'' := by
  refine ⟨h'.now.trans h.now, h'.quiet.trans h.quiet, h'.loud.trans h.loud,
    h'.silences.trans h.silences, ?_⟩
  rcases h'.exited with hsame | hnow
  · rw [hsame]
    exact h.exited
  · exact .inr (hnow.trans h.now)

theorem noted_exit (s : Uplink) : Noted s s.exit := by
  refine ⟨rfl, rfl, rfl, rfl, ?_⟩
  show (if _ then _ else _) = _ ∨ (if _ then _ else _) = _
  split
  · exact .inr rfl
  · exact .inl rfl

theorem noted_hitSyns (s : Uplink) : Noted s s.hitSyns.2 := ⟨rfl, rfl, rfl, rfl, .inl rfl⟩

theorem noted_hitPackets (s : Uplink) : Noted s s.hitPackets.2 := ⟨rfl, rfl, rfl, rfl, .inl rfl⟩

theorem noted_noteUplink (s : Uplink) (packet : Packet) : Noted s (s.noteUplink packet) := by
  have hrest : ∀ t : Uplink, Noted s t → Noted s
      (if t.hitPackets.1 then t.hitPackets.2.exit else t.hitPackets.2) := by
    intro t ht
    have hhit := ht.trans (noted_hitPackets t)
    split
    · exact hhit.trans (noted_exit _)
    · exact hhit
  unfold noteUplink
  split
  · exact .refl s
  by_cases hsyn : isTcpSyn packet
  · simp only [hsyn, if_true]
    split
    · exact (noted_hitSyns s).trans (noted_exit _)
    · exact hrest _ (noted_hitSyns s)
  · simp only [hsyn]
    exact hrest s (.refl s)

theorem Clocked.noted (h : Clocked s) (hs : Noted s s') : Clocked s' := by
  refine ⟨?_, ?_, ?_⟩
  · rw [hs.quiet, hs.loud]
    exact h.quiet
  · rw [hs.loud, hs.now]
    exact h.loud
  · rw [hs.now]
    rcases hs.exited with hsame | hnow
    · rw [hsame]
      exact h.exited
    · exact hnow.le

theorem Clocked.pollOne (h : Clocked s) : Clocked (s.pollOne c) := by
  unfold Uplink.pollOne
  simp only
  split
  · exact ⟨rfl, Nat.le_refl _, h.exited⟩
  split
  · exact ⟨h.quiet, h.loud, h.exited⟩
  · exact ⟨h.quiet, h.loud, h.exited⟩

theorem Clocked.step (h : Clocked s) (hstep : s.step c e = some s') : Clocked s' := by
  cases e with
  | pass duration =>
    obtain rfl := Option.some_inj.mp hstep
    exact ⟨h.quiet, Nat.le_add_right_of_le h.loud, Nat.le_add_right_of_le h.exited⟩
  | inject packet =>
    obtain rfl := Option.some_inj.mp hstep
    have hnoted := h.noted (noted_noteUplink s packet.bytes)
    exact ⟨hnoted.quiet, hnoted.loud, hnoted.exited⟩
  | count i =>
    obtain ⟨packet, -, rfl⟩ := Option.map_eq_some_iff.mp hstep
    exact ⟨h.quiet, h.loud, h.exited⟩
  | poll =>
    simp only [Uplink.step] at hstep
    split at hstep
    · cases hstep
    · obtain rfl := Option.some_inj.mp hstep
      exact h.pollOne

/-! ### When a poll enters -/

theorem silences_pollOne (s : Uplink) (c : Monitor) :
    (s.pollOne c).silences =
      if s.memory.Enters c.keep ∧ s.delta ≤ activeBytesPerPoll ∧ c.after ≤ s.now - s.quietSince then
        (s.now - max s.exitedAt s.loudAt) :: s.silences
      else s.silences := by
  unfold pollOne
  simp only
  split
  · rename_i hloud
    rw [if_neg fun h => absurd h.2.1 (Int.not_le.mpr hloud)]
  rename_i hquiet
  have hdelta : s.delta ≤ activeBytesPerPoll := Int.not_lt.mp hquiet
  unfold shouldEnter
  split
  · rename_i hshould
    obtain ⟨-, hlong⟩ := Bool.and_eq_true_iff.mp hshould
    have hlong : c.after ≤ s.now - s.quietSince := of_decide_eq_true hlong
    by_cases henters : s.memory.Enters c.keep
    · rw [if_pos ⟨henters, hdelta, hlong⟩]
      exact if_pos henters
    · rw [if_neg fun h => henters h.1]
      exact if_neg henters
  · rename_i hnot
    rw [if_neg fun h => hnot ?_]
    have hinactive : s.memory.active = false := h.1.2.2
    rw [hinactive]
    exact decide_eq_true h.2.2

/-- A poll keeps the record good exactly when it does not enter on an old timer. -/
theorem Clocked.silent_iff (h : Clocked s) (hsilent : Silent c s) (hstep : s.step c e = some s') :
    Silent c s' ↔ Restarted c s e := by
  cases e with
  | pass duration =>
    obtain rfl := Option.some_inj.mp hstep
    exact ⟨fun _ => trivial, fun _ => hsilent⟩
  | inject packet =>
    obtain rfl := Option.some_inj.mp hstep
    refine ⟨fun _ => trivial, fun _ => ?_⟩
    have hsame : (s.noteUplink packet.bytes).silences = s.silences :=
      (noted_noteUplink s packet.bytes).silences
    show ∀ silence ∈ (s.noteUplink packet.bytes).silences, _
    rw [hsame]
    exact hsilent
  | count i =>
    obtain ⟨packet, -, rfl⟩ := Option.map_eq_some_iff.mp hstep
    exact ⟨fun _ => trivial, fun _ => hsilent⟩
  | poll =>
    simp only [Uplink.step] at hstep
    split at hstep
    · cases hstep
    obtain rfl := Option.some_inj.mp hstep
    obtain ⟨hquiet, hloud, hexited⟩ := h
    unfold Silent Restarted
    rw [silences_pollOne]
    split
    · rename_i hin
      obtain ⟨henters, hdelta, hlong⟩ := hin
      constructor
      · intro hall _ _ _
        have hlast := hall _ List.mem_cons_self
        omega
      · intro hok silence hmem
        rcases List.mem_cons.mp hmem with rfl | hold
        · have hago := hok henters hdelta (by omega)
          omega
        · exact hsilent silence hold
    · rename_i hout
      refine ⟨fun _ henters hdelta hlong => absurd ⟨henters, hdelta, ?_⟩ hout, fun _ => hsilent⟩
      omega

/-- Idle mode never flaps exactly when each quiet poll that finds the timer run out finds
one that is younger than the last exit, or an exit that is as long ago. -/
theorem paused_silent_iff (c : Monitor) (m : Memory) (total packetWindowStartMs synWindowStartMs now : ℕ)
    (sequences : FlowSequencer) (bytes : ℤ) (events : List UplinkEvent) :
    Always (step c) (Silent c)
        (start m total packetWindowStartMs synWindowStartMs now sequences bytes) events ↔
      Admits (step c) (Restarted c)
        (start m total packetWindowStartMs synWindowStartMs now sequences bytes) events :=
  always_iff_admits (Q := Clocked) (fun _ _ _ h hstep => h.step hstep)
    (fun _ _ _ h hsilent hstep => h.silent_iff hsilent hstep)
    ⟨rfl, Nat.le_refl _, Nat.le_refl _⟩ (fun _ h => absurd h List.not_mem_nil)

/-- Three minutes without a packet, polled every five seconds. -/
def silence : List UplinkEvent :=
  (List.replicate 36 [UplinkEvent.pass poll, .poll]).flatten

/-- A dozen small packets, each noted and counted at once. -/
def burst : List UplinkEvent :=
  (List.replicate 12 [UplinkEvent.inject segment, .count 0]).flatten

/-- The burst comes a second after the poll that has entered.  It ends the idle mode; the
poll four seconds later has not even seen a packet-sized delta, and enters once more. -/
theorem burst_parked_again :
    let c : Monitor := ⟨2, 180 * 1000000000⟩
    let fresh := start .initial 27 0 0 0 (.withSenderId 7) 0
    (run (step c) fresh (silence ++ .pass 1000000000 :: burst)).any
        (fun s => !s.memory.active && s.memory.genOffset = 1 && s.waiting.isEmpty) ∧
      (run (step c) fresh (silence ++ .pass 1000000000 :: burst ++
        [.pass 4000000000, .poll])).any
        (fun s => s.memory.active && s.memory.limit = 2 && s.memory.genOffset = 2 &&
          s.silences.head? = some 4000000000 && ¬ Silent c s) := by
  decide +kernel

end Uplink

end Csqtt.Idle
