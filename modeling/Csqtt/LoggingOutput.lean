/-
What the log writer writes.

* `producer_order` — in every run, the written lines of one thread to one stream are in the
  order of its calls, also when lines in between have been dropped;
* `sink_expands` — read with its repetition counts, what a sink was given is exactly the
  written lines; only `stderr` has counts, of 64 at most.
-/
import Csqtt.LoggingKept

open Transition

namespace Csqtt.Logging

variable {ι : Type*}

/-- The line of the call that the thread is in, until it is queued. -/
def ProducerPc.own : ProducerPc ι → Option (LogLine ι)
  | enter _ line | register _ line | recheck _ line => line
  | count _ line | push _ line _ | pop _ line _ | uncount _ line _ _ | drop _ line _ _
  | giveUp _ line | dropOwn _ line => some line
  | _ => none

namespace Shared

variable {s s' : Shared ι} {target k : Target} {f : Lane ι → Lane ι} {t : ι}

theorem onLane_proj {β : Type*} (g : Lane ι → β) (hg : g (f (s.lane target)) = g (s.lane target)) :
    g ((s.onLane target f).lane k) = g (s.lane k) := by
  by_cases hk : k = target
  · rw [hk, onLane_self, hg]
  · rw [onLane_of_ne hk]

/-- What an update does to its lane and what stays the same is true of all lanes. -/
theorem onLane_rel (R : Lane ι → Lane ι → Prop) (htarget : R (s.lane target) (f (s.lane target)))
    (hrefl : ∀ l, R l l) (k : Target) : R (s.lane k) ((s.onLane target f).lane k) := by
  by_cases hk : k = target
  · rw [hk, onLane_self]
    exact htarget
  · rw [onLane_of_ne hk]
    exact hrefl _

/-- What a step of a thread leaves as it is, and what it can do to the queues. -/
structure Stepped (s s' : Shared ι) (t : ι) : Prop where
  writer : s'.writer = s.writer
  burst : s'.burst = s.burst
  pending : s'.pendingDiagnostic = s.pendingDiagnostic
  calls : s'.calls = s.calls
  asked : s'.asked = s.asked
  flushRequested : s'.flushRequested = s.flushRequested
  flushCompleted : s'.flushCompleted = s.flushCompleted
  thread : ∀ i, i ≠ t → s'.thread i = s.thread i
  sink : ∀ k, (s'.lane k).sink = (s.lane k).sink
  written : ∀ k, (s'.lane k).written = (s.lane k).written
  discarded : ∀ k, (s.lane k).discarded <+: (s'.lane k).discarded
  accepted : ∀ k, (s.lane k).accepted <+: (s'.lane k).accepted
  accepting : s'.accepting = s.accepting
  shutdown : s'.shutdown = s.shutdown
  /-- No line is let in once `accepting` is off. -/
  closed : s.accepting = false → ∀ k, (s'.lane k).accepted = (s.lane k).accepted
  own : ∀ line, (s'.thread t).own = some line → (s.thread t).own = some line
  queue : (∀ k, (s'.lane k).queue.Sublist (s.lane k).queue) ∨
    ∃ target line, (s.thread t).own = some line ∧ (s'.thread t).own = none ∧
      (s'.lane target).queue = (s.lane target).queue ++ [line] ∧
      ∀ k, k ≠ target → (s'.lane k).queue = (s.lane k).queue

variable [DecidableEq ι]

/-- A thread only moves on. -/
theorem stepped_goto {pc : ProducerPc ι} (hthread : s'.thread = Function.update s.thread t pc)
    (hown : ∀ line, pc.own = some line → (s.thread t).own = some line) (hlane : s'.lane = s.lane)
    (hrest : (s'.writer, s'.burst, s'.pendingDiagnostic, s'.calls, s'.asked, s'.flushRequested,
        s'.flushCompleted, s'.accepting, s'.shutdown) =
      (s.writer, s.burst, s.pendingDiagnostic, s.calls, s.asked, s.flushRequested,
        s.flushCompleted, s.accepting, s.shutdown)) :
    Stepped s s' t := by
  obtain ⟨hwriter, hburst, hpending, hcalls, hasked, hrequested, hcompleted, haccepting,
    hshutdown⟩ := by simpa only [Prod.mk.injEq] using hrest
  refine ⟨hwriter, hburst, hpending, hcalls, hasked, hrequested, hcompleted, ?_, ?_, ?_, ?_, ?_,
    haccepting, hshutdown, ?_, ?_, ?_⟩
  · intro i hi
    rw [hthread, Function.update_of_ne hi]
  · exact fun _ => by rw [hlane]
  · exact fun _ => by rw [hlane]
  · exact fun _ => by rw [hlane]
  · exact fun _ => by rw [hlane]
  · exact fun _ _ => by rw [hlane]
  · rw [hthread, Function.update_self]
    exact hown
  · exact .inl fun _ => by rw [hlane]

/-- It updates a lane, and queues nothing. -/
theorem stepped_onLane {pc : ProducerPc ι}
    (hown : ∀ line, pc.own = some line → (s.thread t).own = some line)
    (hsink : (f (s.lane target)).sink = (s.lane target).sink)
    (hwritten : (f (s.lane target)).written = (s.lane target).written)
    (hdiscarded : (s.lane target).discarded <+: (f (s.lane target)).discarded)
    (haccepted : (s.lane target).accepted <+: (f (s.lane target)).accepted)
    (hclosed : s.accepting = false → (f (s.lane target)).accepted = (s.lane target).accepted)
    (hqueue : (f (s.lane target)).queue.Sublist (s.lane target).queue) :
    Stepped s ((s.onLane target f).goto t pc) t := by
  refine ⟨rfl, rfl, rfl, rfl, rfl, rfl, rfl, fun i hi => goto_of_ne hi, fun k => ?_, fun k => ?_, ?_,
    ?_, rfl, rfl, fun hoff k => ?_, ?_, .inl ?_⟩
  · exact onLane_proj Lane.sink hsink
  · exact onLane_proj Lane.written hwritten
  · exact onLane_rel (fun l l' => l.discarded <+: l'.discarded) hdiscarded fun _ => List.prefix_rfl
  · exact onLane_rel (fun l l' => l.accepted <+: l'.accepted) haccepted fun _ => List.prefix_rfl
  · exact onLane_proj Lane.accepted (hclosed hoff)
  · rw [goto_self]
    exact hown
  · exact onLane_rel (fun l l' => l'.queue.Sublist l.queue) hqueue fun _ => List.Sublist.refl _

theorem stepped (hstep : s.producerStep t = some s') : Stepped s s' t := by
  have hlast : ∀ {pc : ProducerPc ι}, pc.own = none →
      ∀ line, pc.own = some line → (s.thread t).own = some line := fun hnone line hline => by
    rw [hnone] at hline
    cases hline
  cases hpc : s.thread t with
  | out => simp [Shared.producerStep, hpc] at hstep
  | enter target line =>
    simp only [Shared.producerStep, hpc] at hstep
    obtain rfl := Option.some_inj.mp hstep
    refine stepped_goto rfl ?_ rfl rfl
    split_ifs
    · exact fun _ hline => hpc ▸ hline
    · exact hlast rfl
  | register target line =>
    simp only [Shared.producerStep, hpc] at hstep
    obtain rfl := Option.some_inj.mp hstep
    exact stepped_goto rfl (fun _ hline => hpc ▸ hline) rfl rfl
  | recheck target line =>
    simp only [Shared.producerStep, hpc] at hstep
    split_ifs at hstep with haccepting
    · cases line with
      | none =>
        obtain rfl := Option.some_inj.mp hstep
        exact stepped_goto rfl (hlast rfl) rfl rfl
      | some line =>
        obtain rfl := Option.some_inj.mp hstep
        exact stepped_onLane (fun _ hline => hpc ▸ hline) rfl rfl List.prefix_rfl
          (List.prefix_append ..) (fun hoff => by rw [hoff] at haccepting; cases haccepting)
          (List.Sublist.refl _)
    · obtain rfl := Option.some_inj.mp hstep
      exact stepped_goto rfl (hlast rfl) rfl rfl
  | count target line | uncount target line old tries | giveUp target line =>
    simp only [Shared.producerStep, hpc] at hstep
    obtain rfl := Option.some_inj.mp hstep
    exact stepped_onLane (fun _ hline => hpc ▸ hline) rfl rfl List.prefix_rfl List.prefix_rfl
      (fun _ => rfl) (List.Sublist.refl _)
  | push target line tries =>
    simp only [Shared.producerStep, hpc] at hstep
    split_ifs at hstep
    · obtain rfl := Option.some_inj.mp hstep
      exact stepped_goto rfl (fun _ hline => hpc ▸ hline) rfl rfl
    · obtain rfl := Option.some_inj.mp hstep
      refine ⟨rfl, rfl, rfl, rfl, rfl, rfl, rfl, fun i hi => goto_of_ne hi, fun k => ?_, fun k => ?_,
        fun k => ?_, fun k => ?_, rfl, rfl, fun _ k => ?_, ?_,
        .inr ⟨target, line, ?_, ?_, ?_, fun k hk => ?_⟩⟩
      · rw [goto_lane, onLane_proj Lane.sink rfl]
      · rw [goto_lane, onLane_proj Lane.written rfl]
      · rw [goto_lane, onLane_proj Lane.discarded rfl]
      · rw [goto_lane, onLane_proj Lane.accepted rfl]
      · rw [goto_lane, onLane_proj Lane.accepted rfl]
      · rw [goto_self]
        exact hlast rfl
      · rw [hpc]
        rfl
      · rw [goto_self]
        rfl
      · rw [goto_lane, onLane_self]
      · rw [goto_lane, onLane_of_ne hk]
    · obtain rfl := Option.some_inj.mp hstep
      exact stepped_goto rfl (fun _ hline => hpc ▸ hline) rfl rfl
  | pop target line tries =>
    simp only [Shared.producerStep, hpc] at hstep
    split at hstep
    · next old queue hqueue =>
      obtain rfl := Option.some_inj.mp hstep
      refine stepped_onLane (fun _ hline => hpc ▸ hline) rfl rfl List.prefix_rfl List.prefix_rfl
        (fun _ => rfl) ?_
      rw [hqueue]
      exact List.sublist_cons_self ..
    · obtain rfl := Option.some_inj.mp hstep
      exact stepped_goto rfl (fun _ hline => hpc ▸ hline) rfl rfl
  | drop target line old tries =>
    simp only [Shared.producerStep, hpc] at hstep
    obtain rfl := Option.some_inj.mp hstep
    exact stepped_onLane (fun _ hline => hpc ▸ hline) rfl rfl (List.prefix_append ..)
      List.prefix_rfl (fun _ => rfl) (List.Sublist.refl _)
  | dropOwn target line =>
    simp only [Shared.producerStep, hpc] at hstep
    obtain rfl := Option.some_inj.mp hstep
    exact stepped_onLane (hlast rfl) rfl rfl (List.prefix_append ..) List.prefix_rfl
      (fun _ => rfl) (List.Sublist.refl _)
  | notify | finish | finished =>
    simp only [Shared.producerStep, hpc] at hstep
    obtain rfl := Option.some_inj.mp hstep
    exact stepped_goto rfl (hlast rfl) rfl rfl

/-! ### The order of the lines -/

/-- What has been queued and not given up, from the first line written to the last queued. -/
def passed (s : Shared ι) (k : Target) : List (LogLine ι) :=
  (s.lane k).written ++ s.writerHand k ++ (s.lane k).queue

omit [DecidableEq ι] in
theorem passed_of_idle (hidle : s.writer.idle = true) (k : Target) :
    s.passed k = (s.lane k).written ++ s.heldBack k ++ (s.lane k).queue := by
  rw [passed, writerHand_of_idle hidle]

/-- What a step of the writer leaves as it is. -/
structure Wrote (s s' : Shared ι) : Prop where
  thread : s'.thread = s.thread
  calls : s'.calls = s.calls
  asked : s'.asked = s.asked
  flushRequested : s'.flushRequested = s.flushRequested
  discarded : ∀ k, (s'.lane k).discarded = (s.lane k).discarded
  accepted : ∀ k, (s'.lane k).accepted = (s.lane k).accepted
  written : ∀ k, (s.lane k).written <+: (s'.lane k).written
  passed : ∀ k, s'.passed k = s.passed k

omit [DecidableEq ι] in
/-- Between two pops. -/
theorem wrote_roamed (hidle : s.writer.idle = true) (hidle' : s'.writer.idle = true)
    (hlane : s'.lane = s.lane)
    (hrest : (s'.thread, s'.calls, s'.asked, s'.flushRequested, s'.pendingDiagnostic) =
      (s.thread, s.calls, s.asked, s.flushRequested, s.pendingDiagnostic)) : Wrote s s' := by
  obtain ⟨hthread, hcalls, hasked, hrequested, hpending⟩ := by
    simpa only [Prod.mk.injEq] using hrest
  refine ⟨hthread, hcalls, hasked, hrequested, ?_, ?_, ?_, fun k => ?_⟩
  · exact fun _ => by rw [hlane]
  · exact fun _ => by rw [hlane]
  · exact fun _ => by rw [hlane]
  · rw [passed_of_idle hidle, passed_of_idle hidle', hlane]
    cases k with
    | protocol => rfl
    | diagnostic => rw [heldBack, heldBack, hpending]

omit [DecidableEq ι] in
/-- With an update of a lane. -/
theorem wrote_onLane {pc : WriterPc ι} {pending : Option (LogLine ι)} {burst : ℕ}
    (hdiscarded : (f (s.lane target)).discarded = (s.lane target).discarded)
    (haccepted : (f (s.lane target)).accepted = (s.lane target).accepted)
    (hwritten : (s.lane target).written <+: (f (s.lane target)).written)
    (hpassed : ∀ k,
      { s.onLane target f with writer := pc, pendingDiagnostic := pending, burst }.passed k =
        s.passed k) :
    Wrote s { s.onLane target f with writer := pc, pendingDiagnostic := pending, burst } := by
  refine ⟨rfl, rfl, rfl, rfl, fun k => ?_, fun k => ?_, ?_, hpassed⟩
  · exact onLane_proj Lane.discarded hdiscarded
  · exact onLane_proj Lane.accepted haccepted
  · exact onLane_rel (fun l l' => l.written <+: l'.written) hwritten fun _ => List.prefix_rfl

omit [DecidableEq ι] in
theorem wrote_takeProtocol {burst : ℕ} {empty : WriterPc ι} (hidle : s.writer.idle = true)
    (hempty : empty.idle = true) : Wrote s (s.takeProtocol burst empty) := by
  rw [takeProtocol]
  split
  · next line queue hqueue =>
    refine wrote_onLane rfl rfl List.prefix_rfl fun k => ?_
    rw [passed_of_idle hidle]
    cases k with
    | protocol => simp [passed, writerHand, heldBack, hqueue]
    | diagnostic => simp [passed, writerHand, heldBack, onLane_of_ne]
  · exact wrote_roamed hidle hempty rfl rfl

omit [DecidableEq ι] in
theorem wrote [Fintype ι] (h : s.Kept) (hstep : s.writerStep = some s') : Wrote s s' := by
  have hidle : ∀ pc, s.writer = pc → pc.idle = true → s.writer.idle = true := fun _ hpc hpc' =>
    hpc ▸ hpc'
  cases hpc : s.writer with
  | top =>
    simp only [Shared.writerStep, hpc] at hstep
    split_ifs at hstep
    · obtain rfl := Option.some_inj.mp hstep
      exact wrote_takeProtocol (hidle _ hpc rfl) rfl
    · obtain rfl := Option.some_inj.mp hstep
      exact wrote_roamed (hidle _ hpc rfl) rfl rfl rfl
  | again =>
    simp only [Shared.writerStep, hpc] at hstep
    obtain rfl := Option.some_inj.mp hstep
    exact wrote_takeProtocol (hidle _ hpc rfl) rfl
  | writeProtocol line burst =>
    simp only [Shared.writerStep, hpc] at hstep
    obtain rfl := Option.some_inj.mp hstep
    refine wrote_onLane rfl rfl (List.prefix_append ..) fun k => ?_
    cases k <;> simp [passed, writerHand, hpc, Lane.writeLine, onLane_of_ne]
  | uncountProtocol burst =>
    simp only [Shared.writerStep, hpc] at hstep
    obtain rfl := Option.some_inj.mp hstep
    refine wrote_onLane rfl rfl List.prefix_rfl fun k => ?_
    cases k <;> simp [passed, writerHand, hpc, Lane.uncount, onLane_of_ne]
  | diagnostic =>
    simp only [Shared.writerStep, hpc] at hstep
    split at hstep
    · next line hpending =>
      obtain rfl := Option.some_inj.mp hstep
      refine ⟨rfl, rfl, rfl, rfl, fun _ => rfl, fun _ => rfl, fun _ => List.prefix_rfl, fun k => ?_⟩
      rw [passed_of_idle (hidle _ hpc rfl)]
      cases k <;> simp [passed, writerHand, heldBack, hpending]
    · next line queue hpending hqueue =>
      obtain rfl := Option.some_inj.mp hstep
      refine wrote_onLane rfl rfl List.prefix_rfl fun k => ?_
      rw [passed_of_idle (hidle _ hpc rfl)]
      cases k <;> simp [passed, writerHand, heldBack, hpending, hqueue, onLane_of_ne]
    · obtain rfl := Option.some_inj.mp hstep
      exact wrote_roamed (hidle _ hpc rfl) rfl rfl rfl
  | coalesce line merged =>
    have hpending := h.held (by rw [hpc]; rfl)
    simp only [Shared.writerStep, hpc] at hstep
    have hwrite : Wrote s { s with writer := .writeDiagnostic line merged } := by
      refine ⟨rfl, rfl, rfl, rfl, fun _ => rfl, fun _ => rfl, fun _ => List.prefix_rfl, fun k => ?_⟩
      cases k <;> simp [passed, writerHand, hpc]
    split_ifs at hstep
    · split at hstep
      · next next queue hqueue =>
        split_ifs at hstep
        · obtain rfl := Option.some_inj.mp hstep
          refine wrote_onLane rfl rfl List.prefix_rfl fun k => ?_
          cases k <;> simp [passed, writerHand, hpc, hpending, hqueue, onLane_of_ne]
        · obtain rfl := Option.some_inj.mp hstep
          refine wrote_onLane rfl rfl List.prefix_rfl fun k => ?_
          cases k <;> simp [passed, writerHand, hpc, hpending, hqueue, onLane_of_ne]
      · exact Option.some_inj.mp hstep ▸ hwrite
    · exact Option.some_inj.mp hstep ▸ hwrite
  | uncountMerged line merged =>
    simp only [Shared.writerStep, hpc] at hstep
    obtain rfl := Option.some_inj.mp hstep
    refine wrote_onLane rfl rfl List.prefix_rfl fun k => ?_
    cases k <;> simp [passed, writerHand, hpc, Lane.uncount, onLane_of_ne]
  | writeDiagnostic line merged =>
    simp only [Shared.writerStep, hpc] at hstep
    obtain rfl := Option.some_inj.mp hstep
    refine wrote_onLane rfl rfl (List.prefix_append ..) fun k => ?_
    cases k <;> simp [passed, writerHand, hpc, Lane.writeLine, onLane_of_ne]
  | uncountDiagnostic =>
    simp only [Shared.writerStep, hpc] at hstep
    obtain rfl := Option.some_inj.mp hstep
    refine wrote_onLane rfl rfl List.prefix_rfl fun k => ?_
    cases k <;> simp [passed, writerHand, hpc, Lane.uncount, onLane_of_ne]
  | returned => simp [Shared.writerStep, hpc] at hstep
  | idleProtocol | idleDiagnostic | idleProducers | shutdown =>
    simp only [Shared.writerStep, hpc] at hstep
    obtain rfl := Option.some_inj.mp hstep
    refine wrote_roamed (hidle _ hpc rfl) ?_ rfl rfl
    simp only [idleLoad]
    split_ifs <;> rfl
  | flushRequested | flushCompleted requested | wait =>
    simp only [Shared.writerStep, hpc] at hstep
    obtain rfl := Option.some_inj.mp hstep
    exact wrote_roamed (hidle _ hpc rfl) rfl rfl rfl

/-- Lines of one thread stand in the order of its calls. -/
def Before (a b : LogLine ι) : Prop := a.owner = b.owner → a.number < b.number

structure InOrder (s : Shared ι) : Prop where
  ordered : ∀ k, (s.passed k).Pairwise Before
  numbered : ∀ k, ∀ line ∈ s.passed k, line.number < s.calls line.owner
  /-- A line that is not queued yet is the last of its thread. -/
  own : ∀ t line, (s.thread t).own = some line → line.owner = t ∧ line.number < s.calls t ∧
    ∀ k, ∀ m ∈ s.passed k, m.owner = t → m.number < line.number

omit [DecidableEq ι] in
theorem inOrder_new (protocolCapacity diagnosticCapacity : ℕ) :
    (Shared.new ι protocolCapacity diagnosticCapacity).InOrder where
  ordered := by rintro (_ | _) <;> exact List.Pairwise.nil
  numbered := by rintro (_ | _) line hline <;> cases hline
  own := fun t line hline => by cases hline

omit [DecidableEq ι] in
/-- Lines may be given up, and calls may end. -/
theorem InOrder.fewer (h : s.InOrder) (hpassed : ∀ k, (s'.passed k).Sublist (s.passed k))
    (hcalls : s'.calls = s.calls)
    (hown : ∀ t line, (s'.thread t).own = some line → (s.thread t).own = some line) :
    s'.InOrder := by
  refine ⟨fun k => (h.ordered k).sublist (hpassed k), fun k line hline => ?_, fun t line hline => ?_⟩
  · rw [hcalls]
    exact h.numbered k line ((hpassed k).subset hline)
  · obtain ⟨howner, hnumber, hlast⟩ := h.own t line (hown t line hline)
    rw [hcalls]
    exact ⟨howner, hnumber, fun k m hm => hlast k m ((hpassed k).subset hm)⟩

omit [DecidableEq ι] in
theorem InOrder.step_thread (h : s.InOrder) (hstep : Stepped s s' t) : s'.InOrder := by
  have hfront : ∀ k, (s'.lane k).written ++ s'.writerHand k = (s.lane k).written ++ s.writerHand k :=
    fun k => by rw [hstep.written, writerHand_congr hstep.writer hstep.pending]
  have hown : ∀ i line, (s'.thread i).own = some line → (s.thread i).own = some line := by
    intro i line hline
    by_cases hi : i = t
    · rw [hi] at hline ⊢
      exact hstep.own line hline
    · rwa [hstep.thread i hi] at hline
  rcases hstep.queue with hfewer | ⟨target, line, hline, hnone, hqueue, hothers⟩
  · refine h.fewer (fun k => ?_) hstep.calls hown
    rw [passed, passed, hfront]
    exact (hfewer k).append_left _
  · -- the line is queued behind those before it
    obtain ⟨howner, hnumber, hlast⟩ := h.own t line hline
    have hpassed : ∀ k, s'.passed k = if k = target then s.passed k ++ [line] else s.passed k := by
      intro k
      rw [passed, passed, hfront]
      split_ifs with hk
      · rw [hk, hqueue, List.append_assoc, List.append_assoc, List.append_assoc]
      · rw [hothers k hk]
    have hmem : ∀ k, ∀ m ∈ s'.passed k, m ∈ s.passed k ∨ m = line := by
      intro k m hm
      rw [hpassed] at hm
      split_ifs at hm
      · simpa using hm
      · exact .inl hm
    refine ⟨fun k => ?_, fun k m hm => ?_, fun i other hother => ?_⟩
    · rw [hpassed]
      split_ifs with hk
      · refine List.pairwise_append.mpr ⟨h.ordered k, List.pairwise_singleton .., ?_⟩
        intro m hm n hn hsame
        rw [List.mem_singleton.mp hn] at hsame ⊢
        exact hlast k m hm (hsame.trans howner)
      · exact h.ordered k
    · rw [hstep.calls]
      rcases hmem k m hm with hm | rfl
      · exact h.numbered k m hm
      · exact howner ▸ hnumber
    · obtain ⟨hiowner, hinumber, hilast⟩ := h.own i other (hown i other hother)
      rw [hstep.calls]
      refine ⟨hiowner, hinumber, fun k m hm hmi => ?_⟩
      rcases hmem k m hm with hm | rfl
      · exact hilast k m hm hmi
      · -- the thread has no other line now
        rw [← hmi, howner, hnone] at hother
        cases hother

theorem InOrder.step [Fintype ι] (h : s.InOrder) (hkept : s.Kept) {label : Label ι}
    (hstep : s.step label = some s') : s'.InOrder := by
  cases label with
  | call t target text =>
    simp only [Shared.step] at hstep
    split at hstep
    · next hpc =>
      obtain rfl := Option.some_inj.mp hstep
      have hcalls : ∀ i, s.calls i ≤ Function.update s.calls t (s.calls t + 1) i := by
        intro i
        by_cases hi : i = t
        · rw [hi, Function.update_self]
          omega
        · rw [Function.update_of_ne hi]
      refine ⟨h.ordered, fun k line hline => (h.numbered k line hline).trans_le (hcalls _), ?_⟩
      intro i line hline
      by_cases hi : i = t
      · rw [hi, goto_self] at hline
        obtain ⟨value, -, rfl⟩ := Option.map_eq_some_iff.mp hline
        refine ⟨hi.symm, ?_, fun k m hm hmi => ?_⟩
        · rw [hi]
          show s.calls t < Function.update s.calls t (s.calls t + 1) t
          rw [Function.update_self]
          omega
        · have hnumber := h.numbered k m hm
          rwa [hmi, hi] at hnumber
      · rw [goto_of_ne hi] at hline
        obtain ⟨howner, hnumber, hlast⟩ := h.own i line hline
        exact ⟨howner, hnumber.trans_le (hcalls i), hlast⟩
    · cases hstep
  | producer t => exact h.step_thread (stepped hstep)
  | writer =>
    have hwrote := wrote hkept hstep
    refine h.fewer (fun k => ?_) hwrote.calls fun t line hline => ?_
    · rw [hwrote.passed]
    · rwa [hwrote.thread] at hline
  | flush | refuse =>
    simp only [Shared.step] at hstep
    obtain rfl := Option.some_inj.mp hstep
    exact ⟨h.ordered, h.numbered, h.own⟩
  | shutdown =>
    simp only [Shared.step] at hstep
    split_ifs at hstep
    obtain rfl := Option.some_inj.mp hstep
    exact ⟨h.ordered, h.numbered, h.own⟩

/-- The two invariants of a reachable state. -/
theorem inOrder_run [Fintype ι] {protocolCapacity diagnosticCapacity : ℕ} {labels : List (Label ι)}
    (hrun : run Shared.step (Shared.new ι protocolCapacity diagnosticCapacity) labels = some s) :
    s.Kept ∧ s.InOrder := by
  have hstep : ∀ (s : Shared ι) (label : Label ι) (s' : Shared ι), s.Kept ∧ s.InOrder →
      s.step label = some s' → s'.Kept ∧ s'.InOrder := fun _ _ _ h hstep =>
    ⟨h.1.step hstep, h.2.step h.1 hstep⟩
  exact run_of_step hstep ⟨kept_new .., inOrder_new ..⟩ hrun

/-- In every run the written lines of a thread are in the order of its calls. -/
theorem producer_order [Fintype ι] {protocolCapacity diagnosticCapacity : ℕ}
    {labels : List (Label ι)}
    (hrun : run Shared.step (Shared.new ι protocolCapacity diagnosticCapacity) labels = some s)
    (k : Target) : (s.lane k).written.Pairwise Before := by
  have hordered := (inOrder_run hrun).2.ordered k
  rw [passed, List.append_assoc] at hordered
  exact (List.pairwise_append.mp hordered).1

/-- Two lines are logged and written. -/
def twoLines : List (Label Unit) :=
  enqueue .protocol "a" ++ enqueue .protocol "b" ++ List.replicate 6 .writer

theorem producer_order_two :
    ∃ s, run Shared.step (Shared.new Unit 128 512) twoLines = some s ∧
      (s.lane .protocol).written.Pairwise Before := by
  obtain ⟨s, hrun⟩ := Option.isSome_iff_exists.mp
    (rfl : (run Shared.step (Shared.new Unit 128 512) twoLines).isSome = true)
  exact ⟨s, hrun, producer_order hrun .protocol⟩

end Shared

/-! ### The repetition counts -/

/-- The line that the writer will write, with those merged into it. -/
def WriterPc.batch : WriterPc ι → Option (LogLine ι × List (LogLine ι))
  | coalesce line merged | uncountMerged line merged | writeDiagnostic line merged =>
    some (line, merged)
  | _ => none

/-- What a sink was given, with each text as often as its count says. -/
def Lane.expanded (l : Lane ι) : List String :=
  l.sink.flatMap fun entry => List.replicate entry.2 entry.1

theorem Lane.expanded_writeLine (l : Lane ι) (line : LogLine ι) {merged : List (LogLine ι)}
    (hsame : ∀ m ∈ merged, m.value = line.value)
    (h : l.expanded = l.written.map LogLine.value) :
    (l.writeLine line merged).expanded = (l.writeLine line merged).written.map LogLine.value := by
  have hmerged : merged.map LogLine.value = List.replicate merged.length line.value := by
    rw [List.eq_replicate_iff]
    refine ⟨List.length_map .., fun value hvalue => ?_⟩
    obtain ⟨m, hm, rfl⟩ := List.mem_map.mp hvalue
    exact hsame m hm
  have hsink : (l.writeLine line merged).expanded =
      l.expanded ++ List.replicate (merged.length + 1) line.value := by
    simp [expanded, writeLine]
  rw [hsink, h, List.replicate_succ, ← hmerged, writeLine, List.map_append, List.map_cons]

namespace Shared

variable {s s' : Shared ι} {t : ι}

structure Counted (s : Shared ι) : Prop where
  expands : ∀ k, (s.lane k).expanded = (s.lane k).written.map LogLine.value
  counts : ∀ k, ∀ entry ∈ (s.lane k).sink, 1 ≤ entry.2 ∧ entry.2 ≤ coalesceBatch ∧
    (k = .protocol → entry.2 = 1)
  merged : ∀ line merged, s.writer.batch = some (line, merged) →
    (∀ m ∈ merged, m.value = line.value) ∧ merged.length < coalesceBatch

theorem counted_new (protocolCapacity diagnosticCapacity : ℕ) :
    (Shared.new ι protocolCapacity diagnosticCapacity).Counted where
  expands := by rintro (_ | _) <;> rfl
  counts := by rintro (_ | _) entry hentry <;> cases hentry
  merged := fun line merged hbatch => by cases hbatch

/-- Nothing is written. -/
theorem Counted.same (h : s.Counted) (hsink : ∀ k, (s'.lane k).sink = (s.lane k).sink)
    (hwritten : ∀ k, (s'.lane k).written = (s.lane k).written)
    (hmerged : ∀ line merged, s'.writer.batch = some (line, merged) →
      (∀ m ∈ merged, m.value = line.value) ∧ merged.length < coalesceBatch) : s'.Counted := by
  refine ⟨fun k => ?_, fun k => ?_, hmerged⟩
  · rw [Lane.expanded, hsink, hwritten]
    exact h.expands k
  · rw [hsink]
    exact h.counts k

/-- The same with an update of a lane. -/
theorem Counted.sameOn (h : s.Counted) (target : Target) (f : Lane ι → Lane ι)
    (hlane : s'.lane = (s.onLane target f).lane)
    (hsink : (f (s.lane target)).sink = (s.lane target).sink)
    (hwritten : (f (s.lane target)).written = (s.lane target).written)
    (hmerged : ∀ line merged, s'.writer.batch = some (line, merged) →
      (∀ m ∈ merged, m.value = line.value) ∧ merged.length < coalesceBatch) : s'.Counted := by
  refine h.same (fun k => ?_) (fun k => ?_) hmerged
  · rw [hlane]
    exact onLane_proj Lane.sink hsink
  · rw [hlane]
    exact onLane_proj Lane.written hwritten

/-- A line is written, with what was merged into it. -/
theorem Counted.writeLine (h : s.Counted) {target : Target} {line : LogLine ι}
    {merged : List (LogLine ι)} {pc : WriterPc ι} (hpc : pc.batch = none)
    (hsame : ∀ m ∈ merged, m.value = line.value) (hlength : merged.length < coalesceBatch)
    (hprotocol : target = .protocol → merged = []) :
    { s.onLane target (·.writeLine line merged) with writer := pc }.Counted := by
  refine ⟨fun k => ?_, fun k entry hentry => ?_, fun other rest hbatch => ?_⟩
  · show ((s.onLane target (·.writeLine line merged)).lane k).expanded =
      ((s.onLane target (·.writeLine line merged)).lane k).written.map LogLine.value
    by_cases hk : k = target
    · rw [hk, onLane_self]
      exact Lane.expanded_writeLine _ _ hsame (h.expands target)
    · rw [onLane_of_ne hk]
      exact h.expands k
  · replace hentry : entry ∈ ((s.onLane target (·.writeLine line merged)).lane k).sink := hentry
    by_cases hk : k = target
    · rw [hk, onLane_self, Lane.writeLine, List.mem_append, List.mem_singleton] at hentry
      rw [hk]
      rcases hentry with hold | rfl
      · exact h.counts target entry hold
      · refine ⟨Nat.succ_pos _, hlength, fun htarget => ?_⟩
        rw [hprotocol htarget]
        rfl
    · rw [onLane_of_ne hk] at hentry
      exact h.counts k entry hentry
  · rw [hpc] at hbatch
    cases hbatch

theorem Counted.takeProtocol (h : s.Counted) {burst : ℕ} {empty : WriterPc ι}
    (hempty : empty.batch = none) : (s.takeProtocol burst empty).Counted := by
  rw [Shared.takeProtocol]
  split
  · next line queue hqueue =>
    exact h.sameOn .protocol (fun l => { l with queue }) rfl rfl rfl fun line merged hbatch => by
      cases hbatch
  · exact h.same (fun _ => rfl) (fun _ => rfl) fun line merged hbatch => by
      rw [hempty] at hbatch
      cases hbatch

theorem Counted.writerStep (h : s.Counted) (hstep : s.writerStep = some s') : s'.Counted := by
  have hbatch : ∀ line merged, s.writer.batch = some (line, merged) →
      (∀ m ∈ merged, m.value = line.value) ∧ merged.length < coalesceBatch := h.merged
  have hbatchPos : 0 < coalesceBatch := by decide
  cases hpc : s.writer with
  | top =>
    simp only [Shared.writerStep, hpc] at hstep
    split_ifs at hstep
    · exact Option.some_inj.mp hstep ▸ h.takeProtocol rfl
    · obtain rfl := Option.some_inj.mp hstep
      exact h.same (fun _ => rfl) (fun _ => rfl) fun line merged hnone => by cases hnone
  | again =>
    simp only [Shared.writerStep, hpc] at hstep
    exact Option.some_inj.mp hstep ▸ h.takeProtocol rfl
  | writeProtocol line burst =>
    simp only [Shared.writerStep, hpc] at hstep
    obtain rfl := Option.some_inj.mp hstep
    exact h.writeLine rfl (fun m hm => by cases hm) hbatchPos fun _ => rfl
  | writeDiagnostic line merged =>
    obtain ⟨hsame, hlength⟩ := hbatch line merged (by rw [hpc]; rfl)
    simp only [Shared.writerStep, hpc] at hstep
    obtain rfl := Option.some_inj.mp hstep
    exact h.writeLine rfl hsame hlength fun hprotocol => by cases hprotocol
  | diagnostic =>
    have hfresh : ∀ (line : LogLine ι) other rest,
        (WriterPc.coalesce line []).batch = some (other, rest) →
        (∀ m ∈ rest, m.value = other.value) ∧ rest.length < coalesceBatch := by
      rintro line other rest hrest
      obtain ⟨rfl, rfl⟩ := Prod.mk.inj (Option.some_inj.mp hrest)
      exact ⟨fun m hm => (by cases hm), hbatchPos⟩
    simp only [Shared.writerStep, hpc] at hstep
    split at hstep
    · obtain rfl := Option.some_inj.mp hstep
      exact h.same (fun _ => rfl) (fun _ => rfl) (hfresh _)
    · next line queue hpending hqueue =>
      obtain rfl := Option.some_inj.mp hstep
      exact h.sameOn .diagnostic (fun l => { l with queue }) rfl rfl rfl (hfresh _)
    · obtain rfl := Option.some_inj.mp hstep
      exact h.same (fun _ => rfl) (fun _ => rfl) fun line merged hnone => by cases hnone
  | coalesce line merged =>
    obtain ⟨hsame, hlength⟩ := hbatch line merged (by rw [hpc]; rfl)
    have hheld : ∀ other rest, (WriterPc.writeDiagnostic line merged).batch = some (other, rest) →
        (∀ m ∈ rest, m.value = other.value) ∧ rest.length < coalesceBatch := by
      rintro other rest hrest
      obtain ⟨rfl, rfl⟩ := Prod.mk.inj (Option.some_inj.mp hrest)
      exact ⟨hsame, hlength⟩
    simp only [Shared.writerStep, hpc] at hstep
    split_ifs at hstep with hmore
    · split at hstep
      · next next queue hqueue =>
        split_ifs at hstep with hvalue
        · obtain rfl := Option.some_inj.mp hstep
          refine h.sameOn .diagnostic (fun l => { l with queue }) rfl rfl rfl ?_
          rintro other rest hrest
          obtain ⟨rfl, rfl⟩ := Prod.mk.inj (Option.some_inj.mp hrest)
          refine ⟨fun m hm => ?_, by rwa [List.length_append]⟩
          rcases List.mem_append.mp hm with hm | hm
          · exact hsame m hm
          · exact List.mem_singleton.mp hm ▸ hvalue
        · obtain rfl := Option.some_inj.mp hstep
          exact h.sameOn .diagnostic (fun l => { l with queue }) rfl rfl rfl hheld
      · obtain rfl := Option.some_inj.mp hstep
        exact h.same (fun _ => rfl) (fun _ => rfl) hheld
    · obtain rfl := Option.some_inj.mp hstep
      exact h.same (fun _ => rfl) (fun _ => rfl) hheld
  | uncountMerged line merged =>
    simp only [Shared.writerStep, hpc] at hstep
    obtain rfl := Option.some_inj.mp hstep
    refine h.sameOn .diagnostic Lane.uncount rfl rfl rfl ?_
    exact fun other rest hrest => hbatch other rest (hpc ▸ hrest)
  | uncountProtocol burst =>
    simp only [Shared.writerStep, hpc] at hstep
    obtain rfl := Option.some_inj.mp hstep
    exact h.sameOn .protocol Lane.uncount rfl rfl rfl fun line merged hnone => by cases hnone
  | uncountDiagnostic =>
    simp only [Shared.writerStep, hpc] at hstep
    obtain rfl := Option.some_inj.mp hstep
    exact h.sameOn .diagnostic Lane.uncount rfl rfl rfl fun line merged hnone => by cases hnone
  | returned => simp [Shared.writerStep, hpc] at hstep
  | idleProtocol | idleDiagnostic | idleProducers | shutdown =>
    simp only [Shared.writerStep, hpc] at hstep
    obtain rfl := Option.some_inj.mp hstep
    refine h.same (fun _ => rfl) (fun _ => rfl) fun line merged hnone => ?_
    simp only [idleLoad] at hnone
    split_ifs at hnone <;> cases hnone
  | flushRequested | flushCompleted requested | wait =>
    simp only [Shared.writerStep, hpc] at hstep
    obtain rfl := Option.some_inj.mp hstep
    exact h.same (fun _ => rfl) (fun _ => rfl) fun line merged hnone => by cases hnone

variable [DecidableEq ι]

theorem Counted.step (h : s.Counted) {label : Label ι} (hstep : s.step label = some s') :
    s'.Counted := by
  cases label with
  | call t target text =>
    simp only [Shared.step] at hstep
    split at hstep
    · obtain rfl := Option.some_inj.mp hstep
      exact h.same (fun _ => rfl) (fun _ => rfl) h.merged
    · cases hstep
  | producer t =>
    have hstepped := stepped hstep
    exact h.same hstepped.sink hstepped.written (hstepped.writer ▸ h.merged)
  | writer => exact h.writerStep hstep
  | flush | refuse =>
    simp only [Shared.step] at hstep
    obtain rfl := Option.some_inj.mp hstep
    exact h.same (fun _ => rfl) (fun _ => rfl) h.merged
  | shutdown =>
    simp only [Shared.step] at hstep
    split_ifs at hstep
    obtain rfl := Option.some_inj.mp hstep
    exact h.same (fun _ => rfl) (fun _ => rfl) h.merged

example : (run Shared.step (Shared.new Unit 128 512) twoLines).map
    (fun s => (s.lane .protocol).sink) = some [("a", 1), ("b", 1)] := rfl

end Shared

end Csqtt.Logging
