/-
What the counters of the log pipeline count.

* `lines_accounted` — in every state that is reached, whatever the order of the steps, the
  lines let in so far are exactly those written, dropped, queued or in somebody's hands; the two
  counters `outstanding` count the queued ones and those held before or after the queue, and
  `dropped` the dropped lines;
* `backlog_bounded` — so memory is bounded: by the capacities, two lines for each call in
  progress, and the lines of one repetition count.
-/
import Csqtt.Logging

open Ledger Transition

namespace Csqtt.Logging

variable {ι : Type*}

/-! ### What everybody holds -/

namespace ProducerPc

/-- Between the two updates of `producers`. -/
def inside : ProducerPc ι → ℕ
  | out | enter .. | register .. | finished => 0
  | _ => 1

/-- What the thread has added to `outstanding` and has neither queued nor taken off. -/
def owed (k : Target) : ProducerPc ι → ℕ
  | push target .. | pop target .. | drop target .. | giveUp target .. => if target = k then 1 else 0
  | uncount target .. => if target = k then 2 else 0
  | _ => 0

/-- The lines that have been let in, or popped, and are in no queue. -/
def hand (k : Target) : ProducerPc ι → Multiset (LogLine ι)
  | count target line | push target line _ | pop target line _ | giveUp target line
  | dropOwn target line => if target = k then {line} else 0
  | uncount target line old _ | drop target line old _ => if target = k then {line, old} else 0
  | _ => 0

attribute [local simp] inside owed hand

theorem owed_le (k : Target) (pc : ProducerPc ι) : pc.owed k ≤ 2 * pc.inside := by
  cases pc <;> simp only [owed, inside] <;> first
  | omega
  | (split_ifs <;> omega)

end ProducerPc

/-- In the loop that counts repetitions. -/
def WriterPc.merging : WriterPc ι → Bool
  | coalesce .. | uncountMerged .. => true
  | _ => false

/-- Between two pops, with nothing in hand but the line held back. -/
def WriterPc.idle : WriterPc ι → Bool
  | writeProtocol .. | uncountProtocol .. | coalesce .. | uncountMerged .. | writeDiagnostic ..
  | uncountDiagnostic => false
  | _ => true

theorem WriterPc.not_merging {pc : WriterPc ι} (h : pc.idle = true) : pc.merging = false := by
  cases pc <;> first | rfl | cases h

namespace Lane

/-- The lines of this lane that nobody holds. -/
def lines (l : Lane ι) : Multiset (LogLine ι) := ↑l.written + ↑l.discarded + ↑l.queue

variable {l : Lane ι} {line : LogLine ι}

@[simp] theorem lines_count : l.count.lines = l.lines := rfl
@[simp] theorem lines_uncount : l.uncount.lines = l.lines := rfl
@[simp] theorem lines_letIn : (l.letIn line).lines = l.lines := rfl

theorem accepted_letIn : (↑(l.letIn line).accepted : Multiset (LogLine ι)) = ↑l.accepted + {line} := by
  rw [letIn, ← Multiset.coe_add, Multiset.coe_singleton]

@[simp] theorem lines_drop : (l.drop line).lines = l.lines + {line} := by
  simp only [drop, lines, ← Multiset.coe_add, Multiset.coe_singleton]
  abel

@[simp] theorem lines_push : { l with queue := l.queue ++ [line] }.lines = l.lines + {line} := by
  simp only [lines, ← Multiset.coe_add, Multiset.coe_singleton]
  abel

theorem lines_pop {queue : List (LogLine ι)} (h : l.queue = line :: queue) :
    l.lines = { l with queue }.lines + {line} := by
  simp only [lines, h, ← Multiset.cons_coe, ← Multiset.singleton_add]
  abel

@[simp] theorem lines_write (merged : List (LogLine ι)) :
    (l.writeLine line merged).lines = l.lines + ↑(line :: merged) := by
  simp only [writeLine, lines, ← Multiset.coe_add]
  abel

end Lane

namespace Shared

/-- What the writer has popped and not taken off `outstanding`. -/
def writerOwed (s : Shared ι) : Target → ℕ
  | .protocol =>
    match s.writer with
    | .writeProtocol .. | .uncountProtocol .. => 1
    | _ => 0
  | .diagnostic =>
    (match s.writer with
    | .coalesce .. | .writeDiagnostic .. | .uncountDiagnostic => 1
    | .uncountMerged .. => 2
    | _ => 0) + s.pendingDiagnostic.toList.length

/-- What the writer has popped and not written, in the order of the pops. -/
def writerHand (s : Shared ι) : Target → List (LogLine ι)
  | .protocol =>
    match s.writer with
    | .writeProtocol line _ => [line]
    | _ => []
  | .diagnostic =>
    (match s.writer with
    | .coalesce line merged | .uncountMerged line merged | .writeDiagnostic line merged =>
      line :: merged
    | _ => []) ++ s.pendingDiagnostic.toList

/-- What is counted as outstanding and held by no producer. -/
def stock (s : Shared ι) (k : Target) : ℕ := (s.lane k).queue.length + s.writerOwed k

/-- The lines that no producer holds. -/
def shelf (s : Shared ι) (k : Target) : Multiset (LogLine ι) :=
  (s.lane k).lines + ↑(s.writerHand k)

theorem writerOwed_congr {s s' : Shared ι} (hwriter : s'.writer = s.writer)
    (hpending : s'.pendingDiagnostic = s.pendingDiagnostic) : s'.writerOwed = s.writerOwed := by
  funext k
  cases k <;> simp only [writerOwed, hwriter, hpending]

theorem writerHand_congr {s s' : Shared ι} (hwriter : s'.writer = s.writer)
    (hpending : s'.pendingDiagnostic = s.pendingDiagnostic) : s'.writerHand = s.writerHand := by
  funext k
  cases k <;> simp only [writerHand, hwriter, hpending]

/-- What the writer holds back. -/
def heldBack (s : Shared ι) : Target → List (LogLine ι)
  | .protocol => []
  | .diagnostic => s.pendingDiagnostic.toList

theorem writerOwed_of_idle {s : Shared ι} (h : s.writer.idle = true) (k : Target) :
    s.writerOwed k = (s.heldBack k).length := by
  cases hpc : s.writer <;> simp only [hpc, WriterPc.idle, Bool.false_eq_true] at h <;>
    cases k <;> simp [writerOwed, heldBack, hpc]

theorem writerHand_of_idle {s : Shared ι} (h : s.writer.idle = true) (k : Target) :
    s.writerHand k = s.heldBack k := by
  cases hpc : s.writer <;> simp only [hpc, WriterPc.idle, Bool.false_eq_true] at h <;>
    cases k <;> simp [writerHand, heldBack, hpc]

section Updates

variable {s : Shared ι} {target k : Target} {f : Lane ι → Lane ι}

@[simp] theorem onLane_self : (s.onLane target f).lane target = f (s.lane target) :=
  Function.update_self ..

theorem onLane_of_ne (h : k ≠ target) : (s.onLane target f).lane k = s.lane k :=
  Function.update_of_ne h ..

@[simp] theorem onLane_thread : (s.onLane target f).thread = s.thread := rfl
@[simp] theorem onLane_producers : (s.onLane target f).producers = s.producers := rfl
@[simp] theorem onLane_pending :
    (s.onLane target f).pendingDiagnostic = s.pendingDiagnostic := rfl
@[simp] theorem onLane_owed : (s.onLane target f).writerOwed = s.writerOwed := rfl
@[simp] theorem onLane_hand : (s.onLane target f).writerHand = s.writerHand := rfl

variable [DecidableEq ι] {t : ι} {pc : ProducerPc ι}

@[simp] theorem goto_lane : (s.goto t pc).lane = s.lane := rfl
@[simp] theorem goto_producers : (s.goto t pc).producers = s.producers := rfl
@[simp] theorem goto_owed : (s.goto t pc).writerOwed = s.writerOwed := rfl
@[simp] theorem goto_hand : (s.goto t pc).writerHand = s.writerHand := rfl
@[simp] theorem goto_self : (s.goto t pc).thread t = pc := Function.update_self ..

theorem goto_of_ne {i : ι} (h : i ≠ t) : (s.goto t pc).thread i = s.thread i :=
  Function.update_of_ne h ..

end Updates

/-- Every line that was let in is in one place, and the counters are exact. -/
structure Kept [Fintype ι] (s : Shared ι) : Prop where
  producers : Balanced s.producers 0 fun t => (s.thread t).inside
  outstanding : ∀ k, Balanced (s.lane k).outstanding (s.stock k) fun t => (s.thread t).owed k
  lines : ∀ k, Balanced (↑(s.lane k).accepted) (s.shelf k) fun t => (s.thread t).hand k
  dropped : ∀ k, (s.lane k).dropped = (s.lane k).discarded.length
  fits : ∀ k, (s.lane k).queue.length ≤ (s.lane k).capacity
  /-- While the writer counts repetitions, no line is held back yet. -/
  held : s.writer.merging = true → s.pendingDiagnostic = none

variable [Fintype ι] {s s' : Shared ι}

theorem kept_new (protocolCapacity diagnosticCapacity : ℕ) :
    (Shared.new ι protocolCapacity diagnosticCapacity).Kept where
  producers := balanced_start
  outstanding := by rintro (_ | _) <;> exact balanced_start
  lines := by rintro (_ | _) <;> exact balanced_start
  dropped := by rintro (_ | _) <;> rfl
  fits := by rintro (_ | _) <;> exact Nat.zero_le _
  held := fun _ => rfl

/-! ### The steps of the writer -/

theorem writerOwed_le (h : s.Kept) (k : Target) : s.writerOwed k ≤ 2 := by
  cases k with
  | protocol => cases hpc : s.writer <;> simp [writerOwed, hpc]
  | diagnostic =>
    have hlength : s.pendingDiagnostic.toList.length ≤ 1 := by
      cases s.pendingDiagnostic <;> simp
    have hheld := h.held
    cases hpc : s.writer <;> simp only [writerOwed, hpc] <;> try omega
    -- two lines are counted while a repetition is taken off, and none is held back then
    rw [hheld (by rw [hpc]; rfl)]
    simp

/-- The writer goes on, and the lanes stay as they are. -/
theorem Kept.wrote (h : s.Kept) (hthread : s'.thread = s.thread)
    (hproducers : s'.producers = s.producers) (hlane : s'.lane = s.lane)
    (howed : s'.writerOwed = s.writerOwed) (hhand : s'.writerHand = s.writerHand)
    (hheld : s'.writer.merging = true → s'.pendingDiagnostic = none) : s'.Kept := by
  refine ⟨?_, fun k => ?_, fun k => ?_, fun k => ?_, hlane ▸ h.fits, hheld⟩
  · rw [hproducers, hthread]
    exact h.producers
  · rw [stock, hlane, howed, hthread]
    exact h.outstanding k
  · rw [shelf, hlane, hhand, hthread]
    exact h.lines k
  · rw [hlane]
    exact h.dropped k

/-- The writer goes on with an update of one lane. -/
theorem Kept.wroteOn (h : s.Kept) (target : Target) (f : Lane ι → Lane ι)
    (hlane : s'.lane = (s.onLane target f).lane) (hthread : s'.thread = s.thread)
    (hproducers : s'.producers = s.producers)
    (hothers : ∀ k, k ≠ target → s'.writerOwed k = s.writerOwed k ∧ s'.writerHand k = s.writerHand k)
    (howed : (f (s.lane target)).outstanding + s.stock target =
      (s.lane target).outstanding + ((f (s.lane target)).queue.length + s'.writerOwed target))
    (hlines : (f (s.lane target)).lines + ↑(s'.writerHand target) = s.shelf target)
    (haccepted : (f (s.lane target)).accepted = (s.lane target).accepted)
    (hdropped : (f (s.lane target)).dropped = (s.lane target).dropped)
    (hdiscarded : (f (s.lane target)).discarded = (s.lane target).discarded)
    (hfits : (f (s.lane target)).queue.length ≤ (f (s.lane target)).capacity)
    (hheld : s'.writer.merging = true → s'.pendingDiagnostic = none) : s'.Kept := by
  have hself : s'.lane target = f (s.lane target) := by rw [hlane, onLane_self]
  have hother : ∀ k, k ≠ target → s'.lane k = s.lane k := fun k hk => by rw [hlane, onLane_of_ne hk]
  refine ⟨?_, fun k => ?_, fun k => ?_, fun k => ?_, fun k => ?_, hheld⟩
  · rw [hproducers, hthread]
    exact h.producers
  · by_cases hk : k = target
    · rw [hk, hthread, stock, hself]
      exact (h.outstanding target).restock howed
    · rw [hthread, stock, hother k hk, (hothers k hk).1]
      exact h.outstanding k
  · by_cases hk : k = target
    · rw [hk, hthread, shelf, hself, hlines, haccepted]
      exact h.lines target
    · rw [hthread, shelf, hother k hk, (hothers k hk).2]
      exact h.lines k
  · by_cases hk : k = target
    · rw [hk, hself, hdropped, hdiscarded]
      exact h.dropped target
    · rw [hother k hk]
      exact h.dropped k
  · by_cases hk : k = target
    · rw [hk, hself]
      exact hfits
    · rw [hother k hk]
      exact h.fits k

theorem Kept.fits_pop (h : s.Kept) {target : Target} {line : LogLine ι} {queue : List (LogLine ι)}
    (hqueue : (s.lane target).queue = line :: queue) : queue.length ≤ (s.lane target).capacity := by
  have hfits := h.fits target
  rw [hqueue, List.length_cons] at hfits
  omega

/-- The writer goes on, and neither before nor after the step it has a line in hand. -/
theorem Kept.roamed (h : s.Kept) (hidle : s.writer.idle = true) (hidle' : s'.writer.idle = true)
    (hthread : s'.thread = s.thread) (hproducers : s'.producers = s.producers)
    (hlane : s'.lane = s.lane) (hpending : s'.pendingDiagnostic = s.pendingDiagnostic) :
    s'.Kept := by
  have hheld : s'.heldBack = s.heldBack := by
    funext k
    cases k with
    | protocol => rfl
    | diagnostic => rw [heldBack, heldBack, hpending]
  refine h.wrote hthread hproducers hlane ?_ ?_ ?_
  · funext k
    rw [writerOwed_of_idle hidle, writerOwed_of_idle hidle', hheld]
  · funext k
    rw [writerHand_of_idle hidle, writerHand_of_idle hidle', hheld]
  · rw [WriterPc.not_merging hidle']
    exact fun hmerging => absurd hmerging Bool.false_ne_true

/-- The next line of the protocol queue, if there is one, is in the writer's hand. -/
theorem Kept.takeProtocol (h : s.Kept) {burst : ℕ} {empty : WriterPc ι}
    (hidle : s.writer.idle = true) (hempty : empty.idle = true) :
    (s.takeProtocol burst empty).Kept := by
  rw [Shared.takeProtocol]
  split
  · next line queue hqueue =>
    refine h.wroteOn .protocol (fun l => { l with queue }) rfl rfl rfl ?_ ?_ ?_ rfl rfl rfl
      (h.fits_pop hqueue) ?_
    · rintro (_ | _) hk
      · exact absurd rfl hk
      · rw [writerOwed_of_idle hidle, writerHand_of_idle hidle]
        simp [writerOwed, writerHand, heldBack]
    · rw [stock, writerOwed_of_idle hidle, hqueue]
      simp [writerOwed, heldBack]
    · rw [shelf, writerHand_of_idle hidle, Lane.lines_pop hqueue]
      simp [writerHand, heldBack]
    · simp [WriterPc.merging]
  · exact h.roamed hidle hempty rfl rfl rfl rfl

/-- The same for the diagnostic queue. -/
theorem Kept.takeDiagnostic (h : s.Kept) (hidle : s.writer.idle = true)
    (hpending : s.pendingDiagnostic = none) {line : LogLine ι} {queue : List (LogLine ι)}
    (hqueue : (s.lane .diagnostic).queue = line :: queue) :
    { s.onLane .diagnostic fun l => { l with queue } with writer := .coalesce line [] }.Kept := by
  refine h.wroteOn .diagnostic (fun l => { l with queue }) rfl rfl rfl ?_ ?_ ?_ rfl rfl rfl
    (h.fits_pop hqueue)
    fun _ => hpending
  · rintro (_ | _) hk
    · rw [writerOwed_of_idle hidle, writerHand_of_idle hidle]
      exact ⟨rfl, rfl⟩
    · exact absurd rfl hk
  · rw [stock, writerOwed_of_idle hidle, hqueue]
    simp [writerOwed, heldBack, hpending]
  · rw [shelf, writerHand_of_idle hidle, Lane.lines_pop hqueue]
    simp [writerHand, heldBack, hpending]

theorem Kept.writerStep (h : s.Kept) (hstep : s.writerStep = some s') : s'.Kept := by
  have hidle : ∀ pc, s.writer = pc → pc.idle = true → s.writer.idle = true := fun _ hpc hpc' =>
    hpc ▸ hpc'
  cases hpc : s.writer with
  | top =>
    simp only [Shared.writerStep, hpc] at hstep
    split_ifs at hstep
    · obtain rfl := Option.some_inj.mp hstep
      exact h.takeProtocol (hidle _ hpc rfl) rfl
    · obtain rfl := Option.some_inj.mp hstep
      exact h.roamed (hidle _ hpc rfl) rfl rfl rfl rfl rfl
  | again =>
    simp only [Shared.writerStep, hpc] at hstep
    obtain rfl := Option.some_inj.mp hstep
    exact h.takeProtocol (hidle _ hpc rfl) rfl
  | writeProtocol line burst =>
    simp only [Shared.writerStep, hpc] at hstep
    obtain rfl := Option.some_inj.mp hstep
    refine h.wroteOn .protocol (·.writeLine line []) rfl rfl rfl ?_ ?_ ?_ rfl rfl rfl (h.fits _) ?_
    · rintro (_ | _) hk
      · exact absurd rfl hk
      · simp [writerOwed, writerHand, hpc]
    · simp [stock, writerOwed, hpc, Lane.writeLine]
    · simp [shelf, writerHand, hpc]
    · simp [WriterPc.merging]
  | uncountProtocol burst =>
    have hle : s.stock .protocol ≤ (s.lane .protocol).outstanding := by
      rw [(h.outstanding .protocol : _ = _)]
      exact Nat.le_add_right ..
    simp only [Shared.writerStep, hpc] at hstep
    obtain rfl := Option.some_inj.mp hstep
    refine h.wroteOn .protocol Lane.uncount rfl rfl rfl ?_ ?_ ?_ rfl rfl rfl (h.fits _) ?_
    · rintro (_ | _) hk
      · exact absurd rfl hk
      · simp [writerOwed, writerHand, hpc]
    · simp only [stock, writerOwed, hpc, Lane.uncount] at hle ⊢
      omega
    · simp [shelf, writerHand, hpc]
    · simp [WriterPc.merging]
  | diagnostic =>
    simp only [Shared.writerStep, hpc] at hstep
    split at hstep
    · next line hpending =>
      obtain rfl := Option.some_inj.mp hstep
      refine h.wrote rfl rfl rfl ?_ ?_ fun _ => rfl
      · funext k
        rw [writerOwed_of_idle (hidle _ hpc rfl)]
        cases k <;> simp [writerOwed, heldBack, hpending]
      · funext k
        rw [writerHand_of_idle (hidle _ hpc rfl)]
        cases k <;> simp [writerHand, heldBack, hpending]
    · next line queue hpending hqueue =>
      obtain rfl := Option.some_inj.mp hstep
      exact h.takeDiagnostic (hidle _ hpc rfl) hpending hqueue
    · obtain rfl := Option.some_inj.mp hstep
      exact h.roamed (hidle _ hpc rfl) rfl rfl rfl rfl rfl
  | coalesce line merged =>
    have hpending := h.held (by rw [hpc]; rfl)
    simp only [Shared.writerStep, hpc] at hstep
    have hwrite : { s with writer := .writeDiagnostic line merged }.Kept := by
      refine h.wrote rfl rfl rfl ?_ ?_ fun _ => hpending
      · funext k
        cases k <;> simp [writerOwed, hpc]
      · funext k
        cases k <;> simp [writerHand, hpc]
    split_ifs at hstep
    · split at hstep
      · next next queue hqueue =>
        split_ifs at hstep
        · obtain rfl := Option.some_inj.mp hstep
          refine h.wroteOn .diagnostic (fun l => { l with queue }) rfl rfl rfl ?_ ?_ ?_ rfl rfl rfl
            (h.fits_pop hqueue)
            fun _ => hpending
          · rintro (_ | _) hk
            · simp [writerOwed, writerHand, hpc]
            · exact absurd rfl hk
          · simp [stock, writerOwed, hpc, hqueue, hpending]
          · rw [shelf, Lane.lines_pop hqueue]
            simp [writerHand, hpc, hpending, ← Multiset.cons_coe, ← Multiset.coe_add,
              ← Multiset.singleton_add]
            abel
        · obtain rfl := Option.some_inj.mp hstep
          refine h.wroteOn .diagnostic (fun l => { l with queue }) rfl rfl rfl ?_ ?_ ?_ rfl rfl rfl
            (h.fits_pop hqueue) ?_
          · rintro (_ | _) hk
            · simp [writerOwed, writerHand, hpc]
            · exact absurd rfl hk
          · simp [stock, writerOwed, hpc, hqueue, hpending]
          · rw [shelf, Lane.lines_pop hqueue]
            simp [writerHand, hpc, hpending, ← Multiset.cons_coe, ← Multiset.coe_add,
              ← Multiset.singleton_add]
            abel
          · simp [WriterPc.merging]
      · exact Option.some_inj.mp hstep ▸ hwrite
    · exact Option.some_inj.mp hstep ▸ hwrite
  | uncountMerged line merged =>
    have hle : s.stock .diagnostic ≤ (s.lane .diagnostic).outstanding := by
      rw [(h.outstanding .diagnostic : _ = _)]
      exact Nat.le_add_right ..
    have hpending := h.held (by rw [hpc]; rfl)
    simp only [Shared.writerStep, hpc] at hstep
    obtain rfl := Option.some_inj.mp hstep
    refine h.wroteOn .diagnostic Lane.uncount rfl rfl rfl ?_ ?_ ?_ rfl rfl rfl (h.fits _)
      fun _ => hpending
    · rintro (_ | _) hk
      · simp [writerOwed, writerHand, hpc]
      · exact absurd rfl hk
    · simp only [stock, writerOwed, hpc, Lane.uncount, onLane_pending] at hle ⊢
      omega
    · simp [shelf, writerHand, hpc]
  | writeDiagnostic line merged =>
    simp only [Shared.writerStep, hpc] at hstep
    obtain rfl := Option.some_inj.mp hstep
    refine h.wroteOn .diagnostic (·.writeLine line merged) rfl rfl rfl ?_ ?_ ?_ rfl rfl rfl
      (h.fits _) ?_
    · rintro (_ | _) hk
      · simp [writerOwed, writerHand, hpc]
      · exact absurd rfl hk
    · simp [stock, writerOwed, hpc, Lane.writeLine]
    · simp [shelf, writerHand, hpc, ← Multiset.cons_coe, ← Multiset.coe_add, add_assoc]
    · simp [WriterPc.merging]
  | uncountDiagnostic =>
    have hle : s.stock .diagnostic ≤ (s.lane .diagnostic).outstanding := by
      rw [(h.outstanding .diagnostic : _ = _)]
      exact Nat.le_add_right ..
    simp only [Shared.writerStep, hpc] at hstep
    obtain rfl := Option.some_inj.mp hstep
    refine h.wroteOn .diagnostic Lane.uncount rfl rfl rfl ?_ ?_ ?_ rfl rfl rfl (h.fits _) ?_
    · rintro (_ | _) hk
      · simp [writerOwed, writerHand, hpc]
      · exact absurd rfl hk
    · simp only [stock, writerOwed, hpc, Lane.uncount, onLane_pending] at hle ⊢
      omega
    · simp [shelf, writerHand, hpc]
    · simp [WriterPc.merging]
  | returned => simp [Shared.writerStep, hpc] at hstep
  | idleProtocol | idleDiagnostic | idleProducers | shutdown =>
    simp only [Shared.writerStep, hpc] at hstep
    obtain rfl := Option.some_inj.mp hstep
    refine h.roamed (hidle _ hpc rfl) ?_ rfl rfl rfl rfl
    simp only [idleLoad]
    split_ifs <;> rfl
  | flushRequested | flushCompleted requested | wait =>
    simp only [Shared.writerStep, hpc] at hstep
    obtain rfl := Option.some_inj.mp hstep
    exact h.roamed (hidle _ hpc rfl) rfl rfl rfl rfl rfl

/-! ### The steps of the producers -/

variable [DecidableEq ι] {t : ι} {pc pc' : ProducerPc ι}

/-- A thread moves on, and the lanes stay as they are. -/
theorem Kept.moved (h : s.Kept) (hpc : s.thread t = pc)
    (hthread : s'.thread = Function.update s.thread t pc') (hlane : s'.lane = s.lane)
    (hwriter : s'.writer = s.writer) (hpending : s'.pendingDiagnostic = s.pendingDiagnostic)
    (hproducers : s'.producers + pc.inside = s.producers + pc'.inside)
    (hheld : ∀ k, pc.owed k = pc'.owed k ∧ pc.hand k = pc'.hand k) : s'.Kept := by
  have hself : s'.thread t = pc' := by rw [hthread, Function.update_self]
  have hothers : ∀ i, i ≠ t → s'.thread i = s.thread i := fun i hi => by
    rw [hthread, Function.update_of_ne hi]
  have hstock : ∀ k, s'.stock k = s.stock k := fun k => by
    rw [stock, stock, hlane, writerOwed_congr hwriter hpending]
  have hshelf : ∀ k, s'.shelf k = s.shelf k := fun k => by
    rw [shelf, shelf, hlane, writerHand_congr hwriter hpending]
  refine ⟨?_, fun k => ?_, fun k => ?_, fun k => ?_, hlane ▸ h.fits,
    hwriter ▸ hpending ▸ h.held⟩
  · refine h.producers.move t (fun i hi => by rw [hothers i hi]) ?_
    rw [hself, hpc, zero_add, zero_add]
    exact hproducers
  · refine (h.outstanding k).move t (fun i hi => by rw [hothers i hi]) ?_
    rw [hself, hpc, hlane, hstock, (hheld k).1]
  · refine (h.lines k).move t (fun i hi => by rw [hothers i hi]) ?_
    rw [hself, hpc, hlane, hshelf, (hheld k).2]
  · rw [hlane]
    exact h.dropped k

/-- A thread moves on with an update of one lane. -/
theorem Kept.movedOn (h : s.Kept) (hpc : s.thread t = pc) {target : Target}
    {f : Lane ι → Lane ι} (hinside : pc.inside = pc'.inside)
    (hothers : ∀ k, target ≠ k → pc.owed k = pc'.owed k ∧ pc.hand k = pc'.hand k)
    (howed : (f (s.lane target)).outstanding + ((s.lane target).queue.length + pc.owed target) =
      (s.lane target).outstanding + ((f (s.lane target)).queue.length + pc'.owed target))
    (hlines : (↑(f (s.lane target)).accepted : Multiset (LogLine ι)) +
        ((s.lane target).lines + pc.hand target) =
      ↑(s.lane target).accepted + ((f (s.lane target)).lines + pc'.hand target))
    (hdropped : (f (s.lane target)).dropped + (s.lane target).discarded.length =
      (s.lane target).dropped + (f (s.lane target)).discarded.length)
    (hfits : (f (s.lane target)).queue.length ≤ (f (s.lane target)).capacity) :
    ((s.onLane target f).goto t pc').Kept := by
  have hmoved : ∀ i, i ≠ t → ((s.onLane target f).goto t pc').thread i = s.thread i := fun i hi =>
    goto_of_ne hi
  refine ⟨?_, fun k => ?_, fun k => ?_, fun k => ?_, fun k => ?_, h.held⟩
  · refine h.producers.move t (fun i hi => by rw [hmoved i hi]) ?_
    rw [goto_self, hpc, hinside]
    rfl
  · refine (h.outstanding k).move t (fun i hi => by rw [hmoved i hi]) ?_
    rw [goto_self, hpc, stock, stock, goto_lane, goto_owed, onLane_owed]
    by_cases hk : target = k
    · rw [← hk, onLane_self]
      omega
    · rw [onLane_of_ne (Ne.symm hk), (hothers k hk).1]
  · refine (h.lines k).move t (fun i hi => by rw [hmoved i hi]) ?_
    rw [goto_self, hpc, shelf, shelf, goto_lane, goto_hand, onLane_hand]
    by_cases hk : target = k
    · rw [← hk, onLane_self, add_right_comm (s.lane target).lines,
        add_right_comm (f (s.lane target)).lines,
        ← add_assoc (↑(f (s.lane target)).accepted : Multiset (LogLine ι)), hlines, add_assoc]
    · rw [onLane_of_ne (Ne.symm hk), (hothers k hk).2]
  · by_cases hk : target = k
    · have hbefore := h.dropped target
      rw [← hk, goto_lane, onLane_self]
      omega
    · rw [goto_lane, onLane_of_ne (Ne.symm hk)]
      exact h.dropped k
  · by_cases hk : target = k
    · rw [← hk, goto_lane, onLane_self]
      exact hfits
    · rw [goto_lane, onLane_of_ne (Ne.symm hk)]
      exact h.fits k

theorem Kept.producerStep (h : s.Kept) (hstep : s.producerStep t = some s') : s'.Kept := by
  cases hpc : s.thread t with
  | out => simp [Shared.producerStep, hpc] at hstep
  | enter target line =>
    simp only [Shared.producerStep, hpc] at hstep
    obtain rfl := Option.some_inj.mp hstep
    split_ifs
    · exact h.moved hpc rfl rfl rfl rfl rfl fun _ => ⟨rfl, rfl⟩
    · exact h.moved hpc rfl rfl rfl rfl rfl fun _ => ⟨rfl, rfl⟩
  | register target line =>
    simp only [Shared.producerStep, hpc] at hstep
    obtain rfl := Option.some_inj.mp hstep
    exact h.moved hpc rfl rfl rfl rfl rfl fun _ => ⟨rfl, rfl⟩
  | recheck target line =>
    have hrefused : (s.goto t .finish).Kept :=
      h.moved hpc rfl rfl rfl rfl rfl fun _ => ⟨rfl, rfl⟩
    simp only [Shared.producerStep, hpc] at hstep
    split_ifs at hstep
    · cases line with
      | none => exact Option.some_inj.mp hstep ▸ hrefused
      | some line =>
        obtain rfl := Option.some_inj.mp hstep
        refine h.movedOn hpc rfl (fun k hk => ?_) rfl ?_ rfl (h.fits _)
        · simp [ProducerPc.owed, ProducerPc.hand, hk]
        · rw [Lane.accepted_letIn, Lane.lines_letIn]
          simp only [ProducerPc.hand, if_true]
          abel
    · exact Option.some_inj.mp hstep ▸ hrefused
  | count target line =>
    simp only [Shared.producerStep, hpc] at hstep
    obtain rfl := Option.some_inj.mp hstep
    refine h.movedOn hpc rfl (fun k hk => ?_) ?_ rfl rfl (h.fits _)
    · simp [ProducerPc.owed, ProducerPc.hand, hk]
    · simp only [ProducerPc.owed, Lane.count, if_true]
      omega
  | push target line tries =>
    simp only [Shared.producerStep, hpc] at hstep
    split_ifs at hstep with htries hroom
    · obtain rfl := Option.some_inj.mp hstep
      exact h.moved hpc rfl rfl rfl rfl rfl fun _ => ⟨rfl, rfl⟩
    · obtain rfl := Option.some_inj.mp hstep
      refine h.movedOn hpc rfl (fun k hk => ?_) ?_ ?_ rfl ?_
      · simp [ProducerPc.owed, ProducerPc.hand, hk]
      · simp [ProducerPc.owed]
      · rw [Lane.lines_push]
        simp only [ProducerPc.hand, if_true]
        abel
      · rw [List.length_append]
        exact hroom
    · obtain rfl := Option.some_inj.mp hstep
      exact h.moved hpc rfl rfl rfl rfl rfl fun _ => ⟨rfl, rfl⟩
  | pop target line tries =>
    simp only [Shared.producerStep, hpc] at hstep
    split at hstep
    · next old queue hqueue =>
      obtain rfl := Option.some_inj.mp hstep
      refine h.movedOn hpc rfl (fun k hk => ?_) ?_ ?_ rfl (h.fits_pop hqueue)
      · simp [ProducerPc.owed, ProducerPc.hand, hk]
      · simp [ProducerPc.owed, hqueue, Nat.add_assoc]
      · rw [Lane.lines_pop hqueue]
        simp only [ProducerPc.hand, if_true, Multiset.insert_eq_cons, ← Multiset.singleton_add]
        abel
    · obtain rfl := Option.some_inj.mp hstep
      exact h.moved hpc rfl rfl rfl rfl rfl fun _ => ⟨rfl, rfl⟩
  | uncount target line old tries =>
    -- both lines are counted, so the counter is not zero
    have hle := (h.outstanding target).le t
    simp only [Shared.producerStep, hpc] at hstep
    obtain rfl := Option.some_inj.mp hstep
    refine h.movedOn hpc rfl (fun k hk => ?_) ?_ rfl rfl (h.fits _)
    · simp [ProducerPc.owed, ProducerPc.hand, hk]
    · simp only [hpc, ProducerPc.owed, Lane.uncount, if_true] at hle ⊢
      omega
  | drop target line old tries =>
    simp only [Shared.producerStep, hpc] at hstep
    obtain rfl := Option.some_inj.mp hstep
    refine h.movedOn hpc rfl (fun k hk => ?_) rfl ?_ ?_ (h.fits _)
    · simp [ProducerPc.owed, ProducerPc.hand, hk]
    · rw [Lane.lines_drop, Lane.drop]
      simp only [ProducerPc.hand, if_true, Multiset.insert_eq_cons, ← Multiset.singleton_add]
      abel
    · simp [Lane.drop]
      omega
  | giveUp target line =>
    have hle := (h.outstanding target).le t
    simp only [Shared.producerStep, hpc] at hstep
    obtain rfl := Option.some_inj.mp hstep
    refine h.movedOn hpc rfl (fun k hk => ?_) ?_ rfl rfl (h.fits _)
    · simp [ProducerPc.owed, ProducerPc.hand, hk]
    · simp only [hpc, ProducerPc.owed, Lane.uncount, if_true] at hle ⊢
      omega
  | dropOwn target line =>
    simp only [Shared.producerStep, hpc] at hstep
    obtain rfl := Option.some_inj.mp hstep
    refine h.movedOn hpc rfl (fun k hk => ?_) rfl ?_ ?_ (h.fits _)
    · simp [ProducerPc.owed, ProducerPc.hand, hk]
    · rw [Lane.lines_drop, Lane.drop]
      simp only [ProducerPc.hand, if_true]
      abel
    · simp only [Lane.drop, List.length_append, List.length_singleton]
      omega
  | notify =>
    simp only [Shared.producerStep, hpc] at hstep
    obtain rfl := Option.some_inj.mp hstep
    exact h.moved hpc rfl rfl rfl rfl rfl fun _ => ⟨rfl, rfl⟩
  | finish =>
    have hle := h.producers.le t
    simp only [Shared.producerStep, hpc] at hstep
    obtain rfl := Option.some_inj.mp hstep
    refine h.moved hpc rfl rfl rfl rfl ?_ fun _ => ⟨rfl, rfl⟩
    simp only [hpc, ProducerPc.inside, goto_producers] at hle ⊢
    omega
  | finished =>
    simp only [Shared.producerStep, hpc] at hstep
    obtain rfl := Option.some_inj.mp hstep
    exact h.moved hpc rfl rfl rfl rfl rfl fun _ => ⟨rfl, rfl⟩

/-! ### Every run -/

theorem Kept.step (h : s.Kept) {label : Label ι} (hstep : s.step label = some s') : s'.Kept := by
  cases label with
  | call t target text =>
    simp only [Shared.step] at hstep
    split at hstep
    · next hpc =>
      obtain rfl := Option.some_inj.mp hstep
      exact h.moved hpc rfl rfl rfl rfl rfl fun _ => ⟨rfl, rfl⟩
    · cases hstep
  | producer t => exact h.producerStep hstep
  | writer => exact h.writerStep hstep
  | flush | refuse =>
    simp only [Shared.step] at hstep
    obtain rfl := Option.some_inj.mp hstep
    exact h.wrote rfl rfl rfl rfl rfl h.held
  | shutdown =>
    simp only [Shared.step] at hstep
    split_ifs at hstep
    obtain rfl := Option.some_inj.mp hstep
    exact h.wrote rfl rfl rfl rfl rfl h.held

theorem kept_run {protocolCapacity diagnosticCapacity : ℕ} {labels : List (Label ι)}
    (hrun : run Shared.step (Shared.new ι protocolCapacity diagnosticCapacity) labels = some s) :
    s.Kept :=
  run_of_step (fun _ _ _ h hstep => h.step hstep) (kept_new ..) hrun

/-- One call from its start to its end. -/
def enqueue (target : Target) (text : String) : List (Label Unit) :=
  .call () target (some text) :: List.replicate 8 (.producer ())

/-- Memory is bounded: what is counted fits into the queue but for two lines of the writer
and two of each call in progress. -/
theorem backlog_bounded {protocolCapacity diagnosticCapacity : ℕ} {labels : List (Label ι)}
    (hrun : run Shared.step (Shared.new ι protocolCapacity diagnosticCapacity) labels = some s)
    (k : Target) :
    (s.lane k).outstanding ≤ (s.lane k).capacity + 2 + 2 * s.producers := by
  have h := kept_run hrun
  have hcount : (s.lane k).outstanding = s.stock k + ∑ t, (s.thread t).owed k := h.outstanding k
  have hinside : s.producers = 0 + ∑ t, (s.thread t).inside := h.producers
  have howed : ∑ t, (s.thread t).owed k ≤ ∑ t, 2 * (s.thread t).inside :=
    Finset.sum_le_sum fun t _ => (s.thread t).owed_le k
  rw [← Finset.mul_sum] at howed
  have hfits := h.fits k
  have hwriter := writerOwed_le h k
  rw [stock] at hcount
  omega

theorem backlog_bounded_event :
    ∃ s, run Shared.step (Shared.new Unit 128 512) (enqueue .diagnostic "event") = some s ∧
      (s.lane .diagnostic).outstanding ≤ (s.lane .diagnostic).capacity + 2 + 2 * s.producers := by
  obtain ⟨s, hrun⟩ := Option.isSome_iff_exists.mp
    (rfl : (run Shared.step (Shared.new Unit 128 512) (enqueue .diagnostic "event")).isSome = true)
  exact ⟨s, hrun, backlog_bounded hrun .diagnostic⟩

end Shared

end Csqtt.Logging
