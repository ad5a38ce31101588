/-
The packet pool.

Buffers are taken from a queue of retained storages, or allocated within a budget; a dropped
buffer goes back into the queue, or gives its place in the budget up.  Both are two atomic
steps, and the calls of any number of threads come in between.

* `pool_accounted` — whenever no call is in progress, what is allocated is what is live and
  what is retained; the budget and the cap of the queue always hold and the counter never
  underflows; and the range of a buffer stays in its storage, whatever its owner does.
-/
import Csqtt.PacketStorage
import Csqtt.TransitionRun
import Mathlib.Algebra.BigOperators.Group.List.Basic

open Transition

namespace Csqtt

/-- `PACKET_POOL_RETAINED_MAX`. -/
def packetPoolRetainedMax : ℕ := 2048

/-- A storage of full length. -/
abbrev Storage := {bytes : Packet // bytes.length = packetCapacity}

structure PacketPool where
  queue : List Storage
  /-- The capacity of the queue. -/
  retainedLimit : ℕ
  allocated : ℕ
  allocationLimit : ℕ

namespace PacketPool

def new (buffers : ℕ) : PacketPool where
  queue := []
  retainedLimit := min (max buffers 1) packetPoolRetainedMax
  allocated := 0
  allocationLimit := max buffers 1

/-- `allocated.fetch_sub(1)`. -/
def fetchSub (p : PacketPool) : PacketPool :=
  { p with allocated := if p.allocated = 0 then 2 ^ 64 - 1 else p.allocated - 1 }

/-- What a call does next. -/
inductive Phase where
  /-- `queue.pop()`; with the length of the source when the buffer is for `try_duplicate`. -/
  | popping (copy : Option ℕ)
  /-- `allocated.fetch_update(..)`. -/
  | budgeting (copy : Option ℕ)
  /-- `try_duplicate` has its second buffer. -/
  | copying (storage : Storage) (length : ℕ)
  /-- `release`, with what is left of the storage. -/
  | releasing (storage : Packet)
  /-- `allocated.fetch_sub(1)`. -/
  | returning
  | done

/-- The pool, the number of buffers that are out, and the calls so far. -/
structure System where
  pool : PacketPool
  live : ℕ
  calls : List Phase

inductive Event where
  | tryAcquire
  /-- Of a buffer with a range of this length. -/
  | tryDuplicate (length : ℕ)
  /-- The owner of a buffer may have changed its storage. -/
  | drop (storage : Packet)
  /-- A call takes its next step; `fresh` is what an allocation would find in the memory. -/
  | turn (call : ℕ) (fresh : Storage)

namespace System

def start (buffers : ℕ) : System := ⟨new buffers, 0, []⟩

/-- A call has taken a step. -/
def goto (s : System) (call : ℕ) (phase : Phase) : System :=
  { s with calls := s.calls.set call phase }

/-- A call has a buffer. -/
def acquired (s : System) (call : ℕ) (storage : Storage) : Option ℕ → System
  | none => { s.goto call .done with live := s.live + 1 }
  | some length => s.goto call (.copying storage length)

def turn (s : System) (call : ℕ) (fresh : Storage) : Phase → Option System
  | .popping copy =>
    match s.pool.queue with
    | storage :: queue =>
      some ({ s with pool := { s.pool with queue } }.acquired call storage copy)
    | [] => some (s.goto call (.budgeting copy))
  | .budgeting copy =>
    if s.pool.allocated < s.pool.allocationLimit then
      some ({ s with pool := { s.pool with allocated := s.pool.allocated + 1 } }.acquired call
        fresh copy)
    else some (s.goto call .done)
  | .copying storage length =>
    -- the read area is shorter than a whole storage
    if packetCapacity - packetHeadroom < length then some (s.goto call (.releasing storage.val))
    else some { s.goto call .done with live := s.live + 1 }
  | .releasing storage =>
    if h : storage.length = packetCapacity then
      if s.pool.queue.length < s.pool.retainedLimit then
        some { s.goto call .done with
          pool := { s.pool with queue := s.pool.queue ++ [⟨storage, h⟩] } }
      else some (s.goto call .returning)
    else some (s.goto call .returning)
  | .returning => some { s.goto call .done with pool := s.pool.fetchSub }
  | .done => none

def step (s : System) : Event → Option System
  | .tryAcquire => some { s with calls := s.calls ++ [.popping none] }
  | .tryDuplicate length =>
    if s.live = 0 then none else some { s with calls := s.calls ++ [.popping (some length)] }
  | .drop storage =>
    if s.live = 0 then none
    else some { s with live := s.live - 1, calls := s.calls ++ [.releasing storage] }
  | .turn call fresh => s.calls[call]?.bind (s.turn call fresh)

end System

/-! ### The books -/

/-- The buffers that a call holds. -/
def Phase.held : Phase → ℕ
  | .copying _ _ | .releasing _ | .returning => 1
  | .popping _ | .budgeting _ | .done => 0

structure Sound (buffers : ℕ) (s : System) : Prop where
  balance : s.pool.allocated = s.live + s.pool.queue.length + (s.calls.map Phase.held).sum
  within : s.pool.allocated ≤ s.pool.allocationLimit
  retained : s.pool.queue.length ≤ s.pool.retainedLimit
  limit : s.pool.allocationLimit = max buffers 1
  cap : s.pool.retainedLimit = min (max buffers 1) packetPoolRetainedMax

/-- The sum after one element has changed. -/
theorem sum_set {α : Type*} (f : α → ℕ) {l : List α} {i : ℕ} {old : α} (h : l[i]? = some old)
    (new : α) : ((l.set i new).map f).sum + f old = (l.map f).sum + f new := by
  induction l generalizing i with
  | nil => exact nomatch h
  | cons a l ih =>
    cases i with
    | zero =>
      cases Option.some.inj h
      simp only [List.set_cons_zero, List.map_cons, List.sum_cons]
      omega
    | succ i =>
      have hrest := ih (i := i) (by simpa using h)
      simp only [List.set_cons_succ, List.map_cons, List.sum_cons]
      omega

variable {buffers : ℕ} {s t : System} {call : ℕ} {phase : Phase}

theorem sound_start (buffers : ℕ) : Sound buffers (.start buffers) :=
  ⟨rfl, Nat.zero_le _, Nat.zero_le _, rfl, rfl⟩

/-- A new call, with a buffer that it takes from those that are live. -/
theorem Sound.opened (h : Sound buffers s) (phase : Phase) {live : ℕ}
    (hlive : live + phase.held = s.live) :
    Sound buffers { s with live, calls := s.calls ++ [phase] } := by
  have hbalance := h.balance
  refine ⟨?_, h.within, h.retained, h.limit, h.cap⟩
  rw [List.map_append, List.sum_append, List.map_singleton, List.sum_singleton]
  show s.pool.allocated = live + s.pool.queue.length + ((s.calls.map Phase.held).sum + phase.held)
  omega

/-- A step of a call that balances what is allocated, live, retained and held. -/
theorem Sound.moved (h : Sound buffers s) (hcall : s.calls[call]? = some phase) {phase' : Phase}
    {pool : PacketPool} {live : ℕ}
    (hbalance : pool.allocated + s.live + s.pool.queue.length + phase.held =
      s.pool.allocated + live + pool.queue.length + phase'.held)
    (hwithin : pool.allocated ≤ s.pool.allocationLimit)
    (hretained : pool.queue.length ≤ s.pool.retainedLimit)
    (hlimit : pool.allocationLimit = s.pool.allocationLimit)
    (hcap : pool.retainedLimit = s.pool.retainedLimit) :
    Sound buffers { pool, live, calls := s.calls.set call phase' } := by
  have hold := h.balance
  have hsum := sum_set Phase.held hcall phase'
  refine ⟨?_, hlimit ▸ hwithin, hcap ▸ hretained, hlimit.trans h.limit, hcap.trans h.cap⟩
  show pool.allocated = live + pool.queue.length + ((s.calls.set call phase').map Phase.held).sum
  omega

/-- A call that holds a buffer finds it in the books. -/
theorem Sound.held_le (h : Sound buffers s) (hcall : s.calls[call]? = some phase) :
    phase.held ≤ s.pool.allocated := by
  have hbalance := h.balance
  have hsum := sum_set Phase.held hcall .done
  have hdone : Phase.held .done = 0 := rfl
  omega

theorem Sound.acquired (h : Sound buffers s) (hcall : s.calls[call]? = some phase)
    (hphase : phase.held = 0) {pool : PacketPool} {storage : Storage} (copy : Option ℕ)
    (hbalance : pool.allocated + s.pool.queue.length =
      s.pool.allocated + pool.queue.length + 1)
    (hwithin : pool.allocated ≤ s.pool.allocationLimit)
    (hretained : pool.queue.length ≤ s.pool.retainedLimit)
    (hlimit : pool.allocationLimit = s.pool.allocationLimit)
    (hcap : pool.retainedLimit = s.pool.retainedLimit) :
    Sound buffers ({ s with pool }.acquired call storage copy) := by
  cases copy with
  | none =>
    refine h.moved hcall ?_ hwithin hretained hlimit hcap
    show pool.allocated + s.live + s.pool.queue.length + phase.held =
      s.pool.allocated + (s.live + 1) + pool.queue.length + 0
    omega
  | some length =>
    refine h.moved hcall ?_ hwithin hretained hlimit hcap
    show pool.allocated + s.live + s.pool.queue.length + phase.held =
      s.pool.allocated + s.live + pool.queue.length + 1
    omega

theorem Sound.turn (h : Sound buffers s) (hcall : s.calls[call]? = some phase) {fresh : Storage}
    (hturn : s.turn call fresh phase = some t) : Sound buffers t := by
  have hwithin := h.within
  have hretained := h.retained
  have hheld := h.held_le hcall
  cases phase with
  | popping copy =>
    rw [System.turn] at hturn
    split at hturn
    · next storage queue hqueue =>
      obtain rfl := Option.some.inj hturn
      have hlength : s.pool.queue.length = queue.length + 1 := by rw [hqueue, List.length_cons]
      refine h.acquired hcall rfl copy ?_ hwithin ?_ rfl rfl
      · show s.pool.allocated + s.pool.queue.length = s.pool.allocated + queue.length + 1
        omega
      · show queue.length ≤ _
        omega
    · obtain rfl := Option.some.inj hturn
      exact h.moved hcall rfl hwithin hretained rfl rfl
  | budgeting copy =>
    rw [System.turn] at hturn
    split_ifs at hturn with hroom
    · obtain rfl := Option.some.inj hturn
      refine h.acquired hcall rfl copy ?_ hroom hretained rfl rfl
      exact Nat.add_right_comm _ _ _
    · obtain rfl := Option.some.inj hturn
      exact h.moved hcall rfl hwithin hretained rfl rfl
  | copying storage length =>
    rw [System.turn] at hturn
    split_ifs at hturn
    · obtain rfl := Option.some.inj hturn
      exact h.moved hcall rfl hwithin hretained rfl rfl
    · obtain rfl := Option.some.inj hturn
      refine h.moved hcall ?_ hwithin hretained rfl rfl
      show s.pool.allocated + s.live + s.pool.queue.length + 1 =
        s.pool.allocated + (s.live + 1) + s.pool.queue.length + 0
      omega
  | releasing storage =>
    rw [System.turn] at hturn
    split_ifs at hturn with hfull hroom
    · obtain rfl := Option.some.inj hturn
      refine h.moved hcall ?_ hwithin ?_ rfl rfl
      · show s.pool.allocated + s.live + s.pool.queue.length + 1 =
          s.pool.allocated + s.live + (s.pool.queue ++ [_]).length + 0
        rw [List.length_append, List.length_singleton]
        omega
      · show (s.pool.queue ++ [_]).length ≤ _
        rw [List.length_append, List.length_singleton]
        exact hroom
    · obtain rfl := Option.some.inj hturn
      exact h.moved hcall rfl hwithin hretained rfl rfl
    · obtain rfl := Option.some.inj hturn
      exact h.moved hcall rfl hwithin hretained rfl rfl
  | returning =>
    obtain rfl := Option.some.inj hturn
    have hpos : s.pool.allocated ≠ 0 := Nat.ne_of_gt hheld
    have hsub : s.pool.fetchSub.allocated = s.pool.allocated - 1 := if_neg hpos
    refine h.moved hcall ?_ ?_ hretained rfl rfl
    · rw [hsub]
      show s.pool.allocated - 1 + s.live + s.pool.queue.length + 1 =
        s.pool.allocated + s.live + s.pool.queue.length + 0
      omega
    · rw [hsub]
      omega
  | done => exact nomatch hturn

theorem Sound.step {e : Event} (h : Sound buffers s) (hstep : s.step e = some t) :
    Sound buffers t := by
  cases e with
  | tryAcquire =>
    obtain rfl := Option.some.inj hstep
    exact h.opened (.popping none) rfl
  | tryDuplicate length =>
    rw [System.step] at hstep
    split_ifs at hstep
    obtain rfl := Option.some.inj hstep
    exact h.opened (.popping (some length)) rfl
  | drop storage =>
    rw [System.step] at hstep
    split_ifs at hstep with hnone
    obtain rfl := Option.some.inj hstep
    exact h.opened (.releasing storage) (Nat.sub_add_cancel (Nat.pos_of_ne_zero hnone))
  | turn call fresh =>
    obtain ⟨phase, hcall, hturn⟩ := Option.bind_eq_some_iff.mp hstep
    exact h.turn hcall hturn

/-- What holds at every moment. -/
structure Accounted (buffers : ℕ) (s : System) : Prop where
  /-- When no call is in progress. -/
  quiet : (∀ phase ∈ s.calls, phase = .done) →
    s.pool.allocated = s.live + s.pool.queue.length
  limit : s.pool.allocated ≤ max buffers 1
  retained : s.pool.queue.length ≤ min (max buffers 1) packetPoolRetainedMax
  /-- A call that is about to subtract finds something to subtract from. -/
  covered : .returning ∈ s.calls → 0 < s.pool.allocated

theorem Sound.accounted (h : Sound buffers s) : Accounted buffers s where
  quiet hdone := by
    have hzero : (s.calls.map Phase.held).sum = 0 := by
      refine List.sum_eq_zero fun n hn => ?_
      obtain ⟨phase, hphase, rfl⟩ := List.mem_map.mp hn
      rw [hdone phase hphase]
      rfl
    rw [h.balance, hzero, Nat.add_zero]
  limit := h.limit ▸ h.within
  retained := h.cap ▸ h.retained
  covered hmem := by
    obtain ⟨call, hcall⟩ := List.mem_iff_getElem?.mp hmem
    exact h.held_le hcall

/-- **The pool and its buffers**: the books balance in every run, and the range of a buffer
satisfies its bounds after any operations, which change nothing where they fail. -/
theorem pool_accounted :
    (∀ (buffers : ℕ) (events : List Event),
      Always System.step (Accounted buffers) (.start buffers) events) ∧
      ∀ (storage : Storage) (ops : List StoredPacket.Op),
        let b := (StoredPacket.acquired storage.val).runOps ops
        b.start ≤ b.stop ∧ b.stop ≤ packetCapacity ∧
          ∀ op error, (b.apply op).1 = .error error → (b.apply op).2 = b := by
  refine ⟨fun buffers events => ?_, fun storage => StoredPacket.range_of_ops storage.property⟩
  have hsound : Always System.step (Sound buffers) (.start buffers) events :=
    always_of_step (fun _ _ _ hs hstep => hs.step hstep) (sound_start buffers)
  exact hsound.mono fun _ hs => hs.accounted

end PacketPool

end Csqtt
