/-
The fast path scheduler: packets of a class go to one worker a chunk at a time.

The scheduler has one cursor for each packet class, and one table of workers for all
of them.  A packet that opens a chunk of its class reloads the table, in the middle of
the chunks of the other classes.

* `chunks_steady` — along every run a chunk stays on one worker of one table, as long
  as a reload is `Undisturbing`: it brings nothing new, or no other class is inside a
  chunk;
* `interrupted_chunk_breaks` — and a reload that is not breaks the chunk it interrupts;
* `small_packet_moves_bulk_chunk` — a small packet does this to a chunk of bulk packets.
-/
import Mathlib.Logic.Function.Basic
import Csqtt.Blocks
import Csqtt.StripedScheduler
import Csqtt.TransitionRun

open Transition Blocks

namespace Csqtt.Dispatcher

open StripedScheduler FlowFrame

structure DispatchTicket where
  startSlot : ℕ
  «class» : PacketClass
  deriving DecidableEq

structure RoundRobinCursor where
  currentWorker : ℕ := 0
  remaining : ℕ := 0
  deriving DecidableEq

/-- The cursor after a ticket. -/
def RoundRobinCursor.advance (cursor : RoundRobinCursor) (workerCount : ℕ) (c : PacketClass) :
    RoundRobinCursor :=
  let remaining := (if cursor.remaining = 0 then c.streamChunk else cursor.remaining) - 1
  if remaining = 0 then
    { currentWorker :=
        if cursor.currentWorker + 1 = workerCount then 0 else cursor.currentWorker + 1
      remaining }
  else { cursor with remaining }

/-- `ω` is the type of a worker; the table is the one loaded last. -/
structure FastPathScheduler (ω : Type*) where
  workers : List ω
  workerCount : ℕ
  cursors : PacketClass → RoundRobinCursor

namespace FastPathScheduler

variable {ω : Type*}

def new : FastPathScheduler ω := { workers := [], workerCount := 0, cursors := fun _ => {} }

def syncWorkerCount (s : FastPathScheduler ω) (workerCount : ℕ) : FastPathScheduler ω :=
  if s.workerCount ≠ workerCount then { s with workerCount, cursors := fun _ => {} } else s

def beginForClass (s : FastPathScheduler ω) (workerCount : ℕ) (c : PacketClass) :
    Option DispatchTicket × FastPathScheduler ω :=
  if workerCount = 0 then (none, s)
  else
    let s := s.syncWorkerCount workerCount
    (some { startSlot := (s.cursors c).currentWorker, «class» := c },
      { s with cursors := Function.update s.cursors c ((s.cursors c).advance workerCount c) })

/-- The packet that opens a chunk of its class loads the table. -/
def reload (s : FastPathScheduler ω) (source : List ω) (c : PacketClass) : FastPathScheduler ω :=
  if (s.cursors c).remaining = 0 then { s with workers := source }.syncWorkerCount source.length
  else s

/-- `begin`. -/
def begin (s : FastPathScheduler ω) (source : List ω) (packet : Packet) :
    Option DispatchTicket × FastPathScheduler ω :=
  let s := s.reload source (packetClass packet)
  s.beginForClass s.workerCount (packetClass packet)

/-! ### One ticket -/

variable {s : FastPathScheduler ω} {source : List ω} {c : PacketClass}

/-- The count belongs to the table. -/
def Counted (s : FastPathScheduler ω) : Prop := s.workerCount = s.workers.length

theorem syncWorkerCount_workers (s : FastPathScheduler ω) (n : ℕ) :
    (s.syncWorkerCount n).workers = s.workers := by
  rw [syncWorkerCount]
  split_ifs
  · rfl
  · rfl

theorem syncWorkerCount_self (s : FastPathScheduler ω) : s.syncWorkerCount s.workerCount = s :=
  if_neg (not_not.mpr rfl)

theorem syncWorkerCount_count (s : FastPathScheduler ω) (n : ℕ) :
    (s.syncWorkerCount n).workerCount = n := by
  rw [syncWorkerCount]
  split_ifs with h
  · rfl
  · exact not_not.mp h

theorem Counted.reload (h : Counted s) (source : List ω) (c : PacketClass) :
    Counted (s.reload source c) := by
  rw [FastPathScheduler.reload]
  split_ifs
  · rw [Counted, syncWorkerCount_count, syncWorkerCount_workers]
  · exact h

/-- A table that is already in use changes nothing. -/
theorem reload_same (h : Counted s) (c : PacketClass) : s.reload s.workers c = s := by
  have hcount : s.workers.length = s.workerCount := h.symm
  rw [FastPathScheduler.reload]
  split_ifs
  · rw [hcount]
    exact syncWorkerCount_self s
  · rfl

/-- A cursor at rest stays at rest, whatever is loaded. -/
theorem reload_remaining {c' : PacketClass} (h : (s.cursors c').remaining = 0) :
    ((s.reload source c).cursors c').remaining = 0 := by
  rw [FastPathScheduler.reload]
  split_ifs
  · rw [syncWorkerCount]
    split_ifs
    · rfl
    · exact h
  · exact h

theorem beginForClass_none (h : s.workerCount = 0) (c : PacketClass) :
    s.beginForClass s.workerCount c = (none, s) := by
  rw [beginForClass, if_pos h]

theorem beginForClass_some (h : s.workerCount ≠ 0) (c : PacketClass) :
    s.beginForClass s.workerCount c =
      (some { startSlot := (s.cursors c).currentWorker, «class» := c },
        { s with cursors :=
            Function.update s.cursors c ((s.cursors c).advance s.workerCount c) }) := by
  rw [beginForClass, if_neg h, syncWorkerCount_self]

end FastPathScheduler

open FastPathScheduler

/-! ### Chunks along a run -/

/-- A ticket, with the table its slot is looked up in. -/
structure Issued (ω : Type*) where
  ticket : DispatchTicket
  workers : List ω
  deriving DecidableEq

/-- The published table, the scheduler of one reader, and the tickets so far. -/
structure FastPath (ω : Type*) where
  source : List ω
  scheduler : FastPathScheduler ω
  issued : List (Issued ω)

inductive Event (ω : Type*) where
  | publish (workers : List ω)
  | dispatch (packet : Packet)

variable {ω : Type*}

namespace FastPath

def start (source : List ω) : FastPath ω := { source, scheduler := .new, issued := [] }

/-- `begin` for one packet, and the table that `workers()` shows then. -/
def dispatch (s : FastPath ω) (packet : Packet) : FastPath ω :=
  let (ticket, scheduler) := s.scheduler.begin s.source packet
  { s with
    scheduler
    issued := s.issued ++ ticket.toList.map fun ticket => ⟨ticket, scheduler.workers⟩ }

def step (s : FastPath ω) : Event ω → Option (FastPath ω)
  | .publish workers => some { s with source := workers }
  | .dispatch packet => some (s.dispatch packet)

def tickets (s : FastPath ω) (c : PacketClass) : List (Issued ω) :=
  s.issued.filter (·.ticket.class = c)

/-- The tickets of one chunk select one worker of one table. -/
def Steady (s : FastPath ω) : Prop := ∀ c : PacketClass, Blocked c.streamChunk (s.tickets c)

/-- A reload brings nothing new, or no other class is inside a chunk. -/
def Undisturbing (s : FastPath ω) : Event ω → Prop
  | .publish _ => True
  | .dispatch packet =>
    (s.scheduler.cursors (packetClass packet)).remaining = 0 →
      s.source = s.scheduler.workers ∨
        ∀ c ≠ packetClass packet, (s.scheduler.cursors c).remaining = 0

/-- The cursor of a class stands where its tickets have brought it. -/
structure AtCursor (cursor : RoundRobinCursor) (workers : List ω) (c : PacketClass)
    (issued : List (Issued ω)) : Prop where
  steady : Blocked c.streamChunk issued
  few : cursor.remaining < c.streamChunk
  aligned : (issued.length + cursor.remaining) % c.streamChunk = 0
  last : cursor.remaining ≠ 0 →
    issued.getLast? = some ⟨⟨cursor.currentWorker, c⟩, workers⟩

structure Tracked (s : FastPath ω) : Prop where
  counted : Counted s.scheduler
  cursor : ∀ c, AtCursor (s.scheduler.cursors c) s.scheduler.workers c (s.tickets c)

variable {s : FastPath ω} {c : PacketClass} {cursor : RoundRobinCursor} {workers : List ω}
  {issued : List (Issued ω)}

theorem streamChunk_pos (c : PacketClass) : 1 < c.streamChunk := by
  cases c <;> decide

/-- A ticket in the place that the cursor shows. -/
theorem AtCursor.ticket (h : AtCursor cursor workers c issued) (workerCount : ℕ) :
    AtCursor (cursor.advance workerCount c) workers c
      (issued ++ [⟨⟨cursor.currentWorker, c⟩, workers⟩]) := by
  have hk := streamChunk_pos c
  have hfew := h.few
  have haligned := h.aligned
  have hopen : issued.length % c.streamChunk ≠ 0 → cursor.remaining ≠ 0 := by
    intro hmod hzero
    rw [hzero, Nat.add_zero] at haligned
    exact hmod haligned
  have hsteady := blocked_snoc h.steady fun hmod => h.last (hopen hmod)
  have hlength : (issued ++ [(⟨⟨cursor.currentWorker, c⟩, workers⟩ : Issued ω)]).length =
      issued.length + 1 := by
    rw [List.length_append, List.length_singleton]
  by_cases hzero : cursor.remaining = 0
  · -- the ticket opens a chunk
    have hadvance : cursor.advance workerCount c =
        { cursor with remaining := c.streamChunk - 1 } := by
      have hrest : c.streamChunk - 1 ≠ 0 := by omega
      simp only [RoundRobinCursor.advance, if_pos hzero, if_neg hrest]
    rw [hadvance]
    refine ⟨hsteady, ?_, ?_, fun _ => List.getLast?_concat⟩
    · show c.streamChunk - 1 < c.streamChunk
      omega
    · rw [hlength]
      show (issued.length + 1 + (c.streamChunk - 1)) % c.streamChunk = 0
      rw [hzero, Nat.add_zero] at haligned
      rw [show issued.length + 1 + (c.streamChunk - 1) = issued.length + c.streamChunk by omega,
        Nat.add_mod_right, haligned]
  · have hsum : issued.length + 1 + (cursor.remaining - 1) = issued.length + cursor.remaining := by
      omega
    by_cases hlast : cursor.remaining - 1 = 0
    · -- the ticket ends the chunk
      have hremaining : (cursor.advance workerCount c).remaining = 0 := by
        simp only [RoundRobinCursor.advance, if_neg hzero, hlast, if_true]
      refine ⟨hsteady, ?_, ?_, fun h => absurd hremaining h⟩
      · rw [hremaining]
        omega
      · rw [hlength, hremaining, Nat.add_zero,
          show issued.length + 1 = issued.length + cursor.remaining by omega, haligned]
    · have hadvance : cursor.advance workerCount c =
          { cursor with remaining := cursor.remaining - 1 } := by
        simp only [RoundRobinCursor.advance, if_neg hzero, if_neg hlast]
      rw [hadvance]
      refine ⟨hsteady, ?_, ?_, fun _ => List.getLast?_concat⟩
      · show cursor.remaining - 1 < c.streamChunk
        omega
      · rw [hlength, hsum, haligned]

/-- A cursor at rest belongs to any table. -/
theorem AtCursor.rest {cursor' : RoundRobinCursor} {workers' : List ω}
    (h : AtCursor cursor workers c issued) (hrest : cursor.remaining = 0)
    (hrest' : cursor'.remaining = 0) : AtCursor cursor' workers' c issued := by
  have haligned := h.aligned
  rw [hrest] at haligned
  refine ⟨h.steady, ?_, ?_, fun hne => absurd hrest' hne⟩
  · rw [hrest']
    exact Nat.lt_trans Nat.zero_lt_one (streamChunk_pos c)
  · rw [hrest']
    exact haligned

/-- The scheduler after the reload still stands where the tickets have brought it. -/
theorem Tracked.reload (h : Tracked s) (c : PacketClass)
    (hok : (s.scheduler.cursors c).remaining = 0 → s.source = s.scheduler.workers ∨
      ∀ c' ≠ c, (s.scheduler.cursors c').remaining = 0) (c' : PacketClass) :
    AtCursor ((s.scheduler.reload s.source c).cursors c') (s.scheduler.reload s.source c).workers
      c' (s.tickets c') := by
  by_cases hzero : (s.scheduler.cursors c).remaining = 0
  · rcases hok hzero with hsame | hothers
    · rw [hsame, reload_same h.counted]
      exact h.cursor c'
    · have hrest : (s.scheduler.cursors c').remaining = 0 := by
        by_cases hcc : c' = c
        · rw [hcc]
          exact hzero
        · exact hothers c' hcc
      exact (h.cursor c').rest hrest (reload_remaining hrest)
  · have hstays : s.scheduler.reload s.source c = s.scheduler := if_neg hzero
    rw [hstays]
    exact h.cursor c'

theorem dispatch_none {packet : Packet}
    (h : (s.scheduler.reload s.source (packetClass packet)).workerCount = 0) :
    s.dispatch packet = { s with scheduler := s.scheduler.reload s.source (packetClass packet) } := by
  have hbegin : s.scheduler.begin s.source packet =
      (none, s.scheduler.reload s.source (packetClass packet)) := beginForClass_none h _
  rw [FastPath.dispatch, hbegin]
  simp only [Option.toList_none, List.map_nil, List.append_nil]

theorem dispatch_some {packet : Packet} {t : FastPathScheduler ω}
    (ht : s.scheduler.reload s.source (packetClass packet) = t) (h : t.workerCount ≠ 0) :
    s.dispatch packet =
      { s with
        scheduler := { t with
          cursors := Function.update t.cursors (packetClass packet)
            ((t.cursors (packetClass packet)).advance t.workerCount (packetClass packet)) }
        issued := s.issued ++
          [⟨⟨(t.cursors (packetClass packet)).currentWorker, packetClass packet⟩, t.workers⟩] } := by
  have hbegin : s.scheduler.begin s.source packet =
      t.beginForClass t.workerCount (packetClass packet) := by
    rw [← ht]
    rfl
  rw [FastPath.dispatch, hbegin, beginForClass_some h]
  rfl

/-- A ticket joins the tickets of its class. -/
theorem tickets_snoc (s : FastPath ω) (scheduler : FastPathScheduler ω) (new : Issued ω)
    (c : PacketClass) :
    { s with scheduler, issued := s.issued ++ [new] }.tickets c =
      if new.ticket.class = c then s.tickets c ++ [new] else s.tickets c := by
  rw [tickets, List.filter_append]
  split_ifs with hc
  · simp only [List.filter_cons, hc, decide_true, if_true, List.filter_nil, tickets]
  · simp only [List.filter_cons, hc, decide_false, Bool.false_eq_true, if_false, List.filter_nil,
      List.append_nil, tickets]

theorem Tracked.dispatch (h : Tracked s) (packet : Packet)
    (hok : s.Undisturbing (.dispatch packet)) : Tracked (s.dispatch packet) := by
  have hcounted := h.counted.reload s.source (packetClass packet)
  have hreload := h.reload (packetClass packet) hok
  by_cases hnone : (s.scheduler.reload s.source (packetClass packet)).workerCount = 0
  · -- there is no worker, and no ticket
    rw [dispatch_none hnone]
    exact ⟨hcounted, hreload⟩
  · rw [dispatch_some rfl hnone]
    refine ⟨hcounted, fun c' => ?_⟩
    rw [tickets_snoc]
    by_cases hcc : packetClass packet = c'
    · subst hcc
      rw [if_pos rfl]
      simp only [Function.update_self]
      exact (hreload _).ticket _
    · rw [if_neg hcc]
      simp only [Function.update_of_ne (Ne.symm hcc)]
      exact hreload c'

theorem Tracked.step {s' : FastPath ω} {e : Event ω} (h : Tracked s) (hok : s.Undisturbing e)
    (hstep : s.step e = some s') : Tracked s' := by
  cases e with
  | publish workers =>
    rw [← Option.some_inj.mp hstep]
    exact ⟨h.counted, h.cursor⟩
  | dispatch packet =>
    rw [← Option.some_inj.mp hstep]
    exact h.dispatch packet hok

theorem tracked_start (source : List ω) : Tracked (start source) := by
  refine ⟨rfl, fun c => ⟨blocked_nil, ?_, rfl, fun h => absurd rfl h⟩⟩
  exact Nat.lt_trans Nat.zero_lt_one (streamChunk_pos c)

theorem Tracked.steady (h : Tracked s) : Steady s := fun c => (h.cursor c).steady

/-- **Stripe chunks stay on one worker** in every run whose reloads are undisturbing. -/
theorem chunks_steady (source : List ω) (events : List (Event ω))
    (hok : Admits step Undisturbing (start source) events) :
    Always step Steady (start source) events := by
  have htracked : Always step Tracked (start source) events := always_of_admits
    (fun _ _ _ hs hok hstep => hs.step hok hstep) (tracked_start source) hok
  exact htracked.mono fun _ hs => hs.steady

/-- A bulk packet, the same table published again, and a small packet. -/
def smallAfterBulk : List (Event ℕ) :=
  [.dispatch (List.replicate 1000 0), .publish [1, 2], .dispatch []]

theorem chunks_steady_small_after_bulk :
    Always step Steady (start [1, 2]) smallAfterBulk := by
  refine chunks_steady [1, 2] smallAfterBulk ?_
  rw [smallAfterBulk, admits_cons rfl, admits_cons rfl, admits_cons rfl]
  refine ⟨fun _ => .inr fun _ _ => rfl, trivial, fun _ => .inl ?_, trivial⟩
  decide +kernel

/-! ### A chunk that is interrupted -/

theorem exists_packetClass (c : PacketClass) : ∃ packet : Packet, packetClass packet = c := by
  cases c with
  | small => exact ⟨[], rfl⟩
  | medium => exact ⟨List.replicate 165 0, by decide +kernel⟩
  | bulk => exact ⟨List.replicate 1000 0, by decide +kernel⟩

/-- A reload that disturbs the chunk of another class breaks it with the next packet of
that class, if there are workers at all. -/
theorem interrupted_chunk_breaks (h : Tracked s) {packet : Packet}
    (hbad : ¬ s.Undisturbing (.dispatch packet)) (hsome : s.source ≠ []) :
    ∃ packet', ¬ Steady ((s.dispatch packet).dispatch packet') := by
  rw [Undisturbing, Classical.not_imp, not_or, not_forall] at hbad
  obtain ⟨hzero, hnew, c', hinside⟩ := hbad
  rw [Classical.not_imp] at hinside
  obtain ⟨hother, hinside⟩ := hinside
  obtain ⟨packet', hclass⟩ := exists_packetClass c'
  -- the first packet brings the new table
  set t := s.scheduler.reload s.source (packetClass packet) with ht
  have hloaded : t = { s.scheduler with workers := s.source }.syncWorkerCount s.source.length :=
    if_pos hzero
  have hworkers : t.workers = s.source := by rw [hloaded, syncWorkerCount_workers]
  have hcount : t.workerCount = s.source.length := by rw [hloaded, syncWorkerCount_count]
  have hpositive : s.source.length ≠ 0 := fun h0 => hsome (List.eq_nil_of_length_eq_zero h0)
  have hfirst := dispatch_some ht.symm (by rw [hcount]; exact hpositive)
  have htickets := tickets_snoc s { t with
    cursors := Function.update t.cursors (packetClass packet)
      ((t.cursors (packetClass packet)).advance t.workerCount (packetClass packet)) }
    ⟨⟨(t.cursors (packetClass packet)).currentWorker, packetClass packet⟩, t.workers⟩ c'
  rw [if_neg (Ne.symm hother)] at htickets
  rw [← hfirst] at htickets
  -- the second one gets a ticket of that table
  set s' := s.dispatch packet with hs'
  have hsource : s'.source = s'.scheduler.workers := by
    rw [hfirst]
    exact hworkers.symm
  have hcounted : Counted s'.scheduler := by
    rw [hfirst]
    exact hcount.trans (congrArg List.length hworkers.symm)
  have hsame : s'.scheduler.reload s'.source (packetClass packet') = s'.scheduler := by
    rw [hsource, reload_same hcounted]
  have hpositive' : s'.scheduler.workerCount ≠ 0 := by
    rw [hfirst]
    show t.workerCount ≠ 0
    rw [hcount]
    exact hpositive
  refine ⟨packet', fun hsteady => ?_⟩
  have hblocked := hsteady c'
  rw [dispatch_some hsame hpositive', tickets_snoc, if_pos hclass, htickets] at hblocked
  have hcursor := h.cursor c'
  have haligned := hcursor.aligned
  have hfew := hcursor.few
  refine not_blocked_snoc ?_ (hcursor.last hinside) ?_ hblocked
  · intro hmod
    have hsum := Nat.add_mod (s.tickets c').length (s.scheduler.cursors c').remaining c'.streamChunk
    rw [haligned, hmod, Nat.zero_add, Nat.mod_mod, Nat.mod_eq_of_lt hfew] at hsum
    exact hinside hsum.symm
  · intro heq
    have htable : s.scheduler.workers = s'.scheduler.workers := congrArg Issued.workers heq
    have hkept : s'.source = s.source := by rw [hfirst]
    rw [← hsource, hkept] at htable
    exact hnew htable.symm

/-- Two workers, a bulk packet, two others, a small packet, and a bulk packet again. -/
def smallBetweenBulk : List (Event ℕ) :=
  [.dispatch (List.replicate 1000 0), .publish [3, 4], .dispatch [], .dispatch (List.replicate 1000 0)]

/-- One small packet moves a chunk of bulk packets to another table. -/
theorem small_packet_moves_bulk_chunk :
    ¬ Always step Steady (start [1, 2]) smallBetweenBulk := by
  intro halways
  obtain ⟨t, hrun, htickets⟩ : ∃ t, run step (start [1, 2]) smallBetweenBulk = some t ∧
      t.tickets .bulk = [⟨⟨0, .bulk⟩, [1, 2]⟩, ⟨⟨0, .bulk⟩, [3, 4]⟩] :=
    ⟨_, rfl, by decide +kernel⟩
  have hsteady := always_iff_prefixes.mp halways smallBetweenBulk List.prefix_rfl t hrun .bulk
  rw [htickets] at hsteady
  have heq := hsteady 0 1 (by decide) (by decide) (by decide)
  exact absurd heq (by decide)

end FastPath

end Csqtt.Dispatcher
