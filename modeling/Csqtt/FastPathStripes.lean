/-
The law of the stripes: where the k-th packet of a class goes.

With `n` workers the cursor of a class is a function of the number of its packets alone
(`cursorAt`), whatever comes in between of the other classes, and whichever tables of `n`
workers are published.

* `slots_striped` — the `k`-th packet of a class starts at the slot `k / streamChunk % n`.
-/
import Csqtt.FastPath

open Transition

namespace Csqtt.Dispatcher

open StripedScheduler FlowFrame

namespace RoundRobinCursor

/-- The cursor after `k` packets of the class. -/
def cursorAt (n : ℕ) (c : PacketClass) (k : ℕ) : RoundRobinCursor where
  currentWorker := k / c.streamChunk % n
  remaining := if k % c.streamChunk = 0 then 0 else c.streamChunk - k % c.streamChunk

theorem cursorAt_zero (n : ℕ) (c : PacketClass) : cursorAt n c 0 = {} := by
  simp only [cursorAt, Nat.zero_div, Nat.zero_mod, if_true]

/-- The worker after the last one is the first one. -/
theorem next_worker {n : ℕ} (hn : 0 < n) (q : ℕ) :
    (if q % n + 1 = n then 0 else q % n + 1) = (q + 1) % n := by
  have hlt : q % n < n := Nat.mod_lt q hn
  rw [← Nat.mod_add_mod q n 1]
  split_ifs with hlast
  · rw [hlast, Nat.mod_self]
  · exact (Nat.mod_eq_of_lt (Nat.lt_of_le_of_ne hlt hlast)).symm

theorem advance_cursorAt {n : ℕ} (hn : 0 < n) (c : PacketClass) (k : ℕ) :
    (cursorAt n c k).advance n c = cursorAt n c (k + 1) := by
  have hchunk : 1 < c.streamChunk := FastPath.streamChunk_pos c
  have hplace : k % c.streamChunk < c.streamChunk := Nat.mod_lt k (by omega)
  have hmod := Nat.mod_add_mod k c.streamChunk 1
  by_cases hlast : k % c.streamChunk + 1 = c.streamChunk
  · -- the packet ends the chunk, and the next worker has its turn
    have hzero : (k + 1) % c.streamChunk = 0 := by rw [← hmod, hlast, Nat.mod_self]
    have hdiv : (k + 1) / c.streamChunk = k / c.streamChunk + 1 := by
      rw [Nat.succ_div, if_pos (Nat.dvd_of_mod_eq_zero hzero)]
    have hinside : k % c.streamChunk ≠ 0 := by omega
    have hleft : c.streamChunk - k % c.streamChunk = 1 := by omega
    simp only [advance, cursorAt, if_neg hinside, hleft, hzero, hdiv, Nat.one_ne_zero, if_false,
      Nat.sub_self, if_true, next_worker hn]
  · have hlt : k % c.streamChunk + 1 < c.streamChunk := Nat.lt_of_le_of_ne hplace hlast
    have hsucc : (k + 1) % c.streamChunk = k % c.streamChunk + 1 := by
      rw [← hmod, Nat.mod_eq_of_lt hlt]
    have hdiv : (k + 1) / c.streamChunk = k / c.streamChunk := by
      have hndvd : ¬ c.streamChunk ∣ k + 1 := fun hdvd => by
        have hzero := Nat.mod_eq_zero_of_dvd hdvd
        omega
      rw [Nat.succ_div, if_neg hndvd, Nat.add_zero]
    have hmore : c.streamChunk - (k % c.streamChunk + 1) ≠ 0 := by omega
    by_cases hopen : k % c.streamChunk = 0
    · -- the packet opens a chunk
      rw [hopen, Nat.zero_add] at hsucc hmore
      simp only [advance, cursorAt, if_pos hopen, hsucc, hdiv, if_true, if_neg hmore,
        Nat.one_ne_zero, if_false]
    · have hinside : c.streamChunk - k % c.streamChunk ≠ 0 := by omega
      have hleft : c.streamChunk - k % c.streamChunk - 1 =
          c.streamChunk - (k % c.streamChunk + 1) := Nat.sub_sub _ _ _
      simp only [advance, cursorAt, if_neg hopen, if_neg hinside, hleft, if_neg hmore, hsucc, hdiv,
        Nat.succ_ne_zero, if_false]

end RoundRobinCursor

open RoundRobinCursor FastPathScheduler

/-! ### One ticket -/

variable {ω : Type*}

namespace FastPathScheduler

/-- The cursors are where `k c` packets of each class bring them with `n` workers. -/
structure Striped (n : ℕ) (k : PacketClass → ℕ) (s : FastPathScheduler ω) : Prop where
  cursors : ∀ c, s.cursors c = cursorAt n c (k c)
  /-- A scheduler that has not seen the workers has not seen a packet either. -/
  count : s.workerCount = n ∨ s.workerCount = 0 ∧ ∀ c, k c = 0

variable {s : FastPathScheduler ω} {n : ℕ} {k : PacketClass → ℕ}

theorem striped_new (n : ℕ) : Striped n (fun _ => 0) (new : FastPathScheduler ω) :=
  ⟨fun c => (cursorAt_zero n c).symm, .inr ⟨rfl, fun _ => rfl⟩⟩

/-- A table of `n` workers resets the cursors only where they are at their start anyway. -/
theorem Striped.syncWorkerCount (h : Striped n k s) : Striped n k (s.syncWorkerCount n) := by
  rw [FastPathScheduler.syncWorkerCount]
  split_ifs with hother
  · obtain ⟨-, hzero⟩ := h.count.resolve_left hother
    refine ⟨fun c => ?_, .inl rfl⟩
    rw [hzero c, cursorAt_zero]
  · exact h

theorem Striped.beginForClass (h : Striped n k s) (hn : 0 < n) (c : PacketClass) :
    (s.beginForClass n c).1 = some ⟨k c / c.streamChunk % n, c⟩ ∧
      Striped n (Function.update k c (k c + 1)) (s.beginForClass n c).2 := by
  have hsync := h.syncWorkerCount
  rw [FastPathScheduler.beginForClass, if_neg hn.ne']
  refine ⟨?_, fun c' => ?_, .inl (syncWorkerCount_count s n)⟩
  · show some (DispatchTicket.mk ((s.syncWorkerCount n).cursors c).currentWorker c) = _
    rw [hsync.cursors c]
    rfl
  · show Function.update (s.syncWorkerCount n).cursors c _ c' = _
    rw [hsync.cursors c, advance_cursorAt hn]
    by_cases hc : c' = c
    · subst hc
      rw [Function.update_self, Function.update_self]
    · rw [Function.update_of_ne hc, Function.update_of_ne hc]
      exact hsync.cursors c'

theorem Striped.reload (h : Striped n k s) {source : List ω} (hsource : source.length = n)
    (c : PacketClass) :
    Striped n k (s.reload source c) ∧ (s.reload source c).workerCount = n := by
  rw [FastPathScheduler.reload]
  split_ifs with hopens
  · rw [hsource]
    have hloaded : Striped n k { s with workers := source } := ⟨h.cursors, h.count⟩
    exact ⟨hloaded.syncWorkerCount, syncWorkerCount_count _ n⟩
  · -- inside a chunk there has been a packet of the class
    refine ⟨h, h.count.resolve_right fun hfresh => hopens ?_⟩
    rw [h.cursors c, hfresh.2 c, cursorAt_zero]

theorem Striped.begin (h : Striped n k s) (hn : 0 < n) {source : List ω}
    (hsource : source.length = n) (packet : Packet) :
    (s.begin source packet).1 =
        some ⟨k (packetClass packet) / (packetClass packet).streamChunk % n, packetClass packet⟩ ∧
      Striped n (Function.update k (packetClass packet) (k (packetClass packet) + 1))
        (s.begin source packet).2 := by
  obtain ⟨hreloaded, hcount⟩ := h.reload hsource (packetClass packet)
  rw [FastPathScheduler.begin]
  simp only [hcount]
  exact hreloaded.beginForClass hn (packetClass packet)

end FastPathScheduler

/-! ### A run -/

/-- A table that is published has `n` workers. -/
def Event.Keeps (n : ℕ) : Event ω → Prop
  | .publish workers => workers.length = n
  | .dispatch _ => True

namespace FastPath

/-- The slots of the tickets of a class, in the order of the packets. -/
def slots (s : FastPath ω) (c : PacketClass) : List ℕ := (s.tickets c).map (·.ticket.startSlot)

/-- The number of packets of a class. -/
def packetsOf (c : PacketClass) (events : List (Event ω)) : ℕ :=
  events.countP fun
    | .publish _ => false
    | .dispatch packet => packetClass packet = c

theorem packetsOf_dispatch (packet : Packet) (c : PacketClass) (events : List (Event ω)) :
    packetsOf c (.dispatch packet :: events) =
      if packetClass packet = c then packetsOf c events + 1 else packetsOf c events := by
  rw [packetsOf, List.countP_cons, ← packetsOf]
  by_cases hc : packetClass packet = c
  · simp only [hc, decide_true, if_true]
  · simp only [hc, decide_false, Bool.false_eq_true, if_false, Nat.add_zero]

/-- The slots that `k` packets of a class get. -/
def stripes (n : ℕ) (c : PacketClass) (k : ℕ) : List ℕ :=
  (List.range k).map fun i => i / c.streamChunk % n

theorem stripes_succ (n : ℕ) (c : PacketClass) (k : ℕ) :
    stripes n c (k + 1) = stripes n c k ++ [k / c.streamChunk % n] := by
  rw [stripes, List.range_succ, List.map_append]
  rfl

/-- The tickets so far are those of `k c` packets of each class. -/
structure Fair (n : ℕ) (k : PacketClass → ℕ) (s : FastPath ω) : Prop where
  source : s.source.length = n
  scheduler : s.scheduler.Striped n k
  slots : ∀ c, s.slots c = stripes n c (k c)

variable {s t : FastPath ω} {n : ℕ} {k : PacketClass → ℕ}

theorem Fair.dispatch (h : Fair n k s) (hn : 0 < n) (packet : Packet) :
    Fair n (Function.update k (packetClass packet) (k (packetClass packet) + 1))
      (s.dispatch packet) := by
  obtain ⟨hticket, hscheduler⟩ := h.scheduler.begin hn h.source packet
  rw [FastPath.dispatch]
  generalize s.scheduler.begin s.source packet = begun at hticket hscheduler
  obtain ⟨ticket, scheduler⟩ := begun
  cases hticket
  refine ⟨h.source, hscheduler, fun c => ?_⟩
  rw [FastPath.slots]
  simp only [Option.toList_some, List.map_cons, List.map_nil]
  rw [tickets_snoc]
  split_ifs with hc
  · subst hc
    rw [Function.update_self, stripes_succ, List.map_append, ← h.slots]
    rfl
  · rw [Function.update_of_ne (Ne.symm hc)]
    exact h.slots c

theorem Fair.run (hn : 0 < n) {events : List (Event ω)} :
    ∀ {s : FastPath ω} {k : PacketClass → ℕ}, Fair n k s → (∀ e ∈ events, e.Keeps n) →
      run step s events = some t → Fair n (fun c => k c + packetsOf c events) t := by
  induction events with
  | nil =>
    intro s k h _ hrun
    cases hrun
    exact h
  | cons e events ih =>
    intro s k h hkeeps hrun
    have hrest : ∀ e ∈ events, e.Keeps n := fun e he => hkeeps e (List.mem_cons_of_mem _ he)
    cases e with
    | publish workers =>
      have hlength : workers.length = n := hkeeps _ List.mem_cons_self
      have hpublished : Fair n k { s with source := workers } := ⟨hlength, h.scheduler, h.slots⟩
      exact ih hpublished hrest hrun
    | dispatch packet =>
      have hdone := ih (h.dispatch hn packet) hrest hrun
      have hcount : (fun c => Function.update k (packetClass packet) (k (packetClass packet) + 1) c +
          packetsOf c events) = fun c => k c + packetsOf c (.dispatch packet :: events) := by
        funext c
        rw [packetsOf_dispatch]
        split_ifs with hc
        · rw [hc, Function.update_self, Nat.add_assoc, Nat.add_comm 1]
        · rw [Function.update_of_ne (Ne.symm hc)]
      rwa [hcount] at hdone

/-- **Stripe fairness does not depend on the mix**: the `k`-th packet of a class starts at
the slot `k / streamChunk % n`, and every packet gets a slot. -/
theorem slots_striped {n : ℕ} (hn : 0 < n) {source : List ω} (hsource : source.length = n)
    {events : List (Event ω)} (hkeeps : ∀ e ∈ events, e.Keeps n) {t : FastPath ω}
    (hrun : run step (start source) events = some t) (c : PacketClass) :
    t.slots c = (List.range (packetsOf c events)).map fun k => k / c.streamChunk % n := by
  have hfresh : Fair n (fun _ => 0) (start source) := ⟨hsource, striped_new n, fun _ => rfl⟩
  have hfair := hfresh.run hn hkeeps hrun
  rw [hfair.slots c, Nat.zero_add]
  rfl

/-- Two bulk packets with a small one between them, and the table published again. -/
def mixed : List (Event ℕ) :=
  [.dispatch (List.replicate 1000 0), .dispatch [], .publish [3, 4],
    .dispatch (List.replicate 1000 0)]

theorem mixed_striped :
    ∃ t, run step (start [1, 2]) mixed = some t ∧ t.slots .bulk = [0, 0] := by
  obtain ⟨t, hrun⟩ : ∃ t, run step (start [1, 2]) mixed = some t := ⟨_, rfl⟩
  have hkeeps : ∀ e ∈ mixed, e.Keeps 2 := by
    rw [mixed]
    simp only [List.forall_mem_cons, Event.Keeps, List.length_cons, List.length_nil, true_and]
    exact List.forall_mem_nil _
  have hbulk : packetsOf .bulk mixed = 2 := by decide +kernel
  have hslots := slots_striped Nat.two_pos rfl hkeeps hrun .bulk
  rw [hbulk] at hslots
  exact ⟨t, hrun, hslots⟩

end FastPath

end Csqtt.Dispatcher
