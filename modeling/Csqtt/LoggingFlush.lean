/-
What is on its way when the log writer says that it is done.

The writer reads three counters, one after the other, and then whether a flush or a shutdown
has been asked for.  A line that is queued after its counter was read, and whose call ends
before the calls are counted, is in none of the three; and the two flags are read last, so
a line queued before the request can come after all three.

* `quiet_none_lost` — nothing is lost in a run in which, whenever the writer finds a request,
  the counters are still zero and no call is between two of its updates;
* `pushed_line_lost` — otherwise the writer can return with a line in the queue whose call had
  ended before the shutdown.
-/
import Csqtt.LoggingOutput

open Ledger Transition

namespace Csqtt.Logging

variable {ι : Type*}

/-- Let in, but with the line in no counter: before it is counted, or when it or the line
popped for it has been taken off `outstanding` and not added to `dropped`. -/
def ProducerPc.uncounted : ProducerPc ι → Bool
  | count .. | drop .. | dropOwn .. => true
  | _ => false

theorem ProducerPc.hand_of_owed {pc : ProducerPc ι} {k : Target} (howed : pc.owed k = 0)
    (hcounted : pc.uncounted = false) : pc.hand k = 0 := by
  cases pc <;> simp_all [owed, uncounted, hand]

/-- Neither behind a load of the requests, nor back. -/
def WriterPc.unasked : WriterPc ι → Bool
  | flushCompleted _ | returned => false
  | _ => true

namespace Shared

variable {s s' : Shared ι}

/-- Written, alone or in a repetition count, or counted as dropped. -/
def Settled (s : Shared ι) (k : Target) (line : LogLine ι) : Prop :=
  line ∈ (s.lane k).written ∨ line ∈ (s.lane k).discarded

structure NoneLost (s : Shared ι) : Prop where
  shutdown : s.writer = .returned → ∀ k, ∀ line ∈ (s.lane k).accepted, s.Settled k line
  /-- The lines let in before the flush request `g + 1`. -/
  flush : ∀ g lines, s.asked[g]? = some lines → g < s.flushCompleted →
    ∀ k, ∀ line ∈ lines k, s.Settled k line
  order : ∀ k, (s.lane k).written.Pairwise Before

/-- Nothing is on its way to the writer. -/
def Quiet (s : Shared ι) : Prop :=
  (∀ k, (s.lane k).outstanding = 0) ∧ ∀ t, (s.thread t).uncounted = false

/-- The next load of the writer finds a new request. -/
def finds (s : Shared ι) : Bool :=
  match s.writer with
  | .flushRequested => s.flushCompleted < s.flushRequested
  | .shutdown => s.shutdown
  | _ => false

/-- The writer finds a request only while nothing is on its way. -/
def Timely (s : Shared ι) (label : Label ι) : Prop := label = .writer → s.finds = true → s.Quiet

instance [Fintype ι] (s : Shared ι) : Decidable s.Quiet :=
  decidable_of_iff (((s.lane .protocol).outstanding = 0 ∧ (s.lane .diagnostic).outstanding = 0) ∧
    ∀ t, (s.thread t).uncounted = false)
    (and_congr_left' ⟨fun h k => k.casesOn h.1 h.2, fun h => ⟨h .protocol, h .diagnostic⟩⟩)

instance [Fintype ι] [DecidableEq ι] (s : Shared ι) (label : Label ι) :
    Decidable (s.Timely label) :=
  inferInstanceAs (Decidable (label = .writer → s.finds = true → s.Quiet))

variable [Fintype ι]

theorem Quiet.settled (h : s.Quiet) (hkept : s.Kept) (hidle : s.writer.idle = true) (k : Target)
    {line : LogLine ι} (hline : line ∈ (s.lane k).accepted) : s.Settled k line := by
  have hcount := hkept.outstanding k
  rw [h.1 k] at hcount
  obtain ⟨hstock, howed⟩ := hcount.eq_zero
  rw [stock, writerOwed_of_idle hidle] at hstock
  have hqueue : (s.lane k).queue = [] := List.eq_nil_of_length_eq_zero (by omega)
  have hback : s.heldBack k = [] := List.eq_nil_of_length_eq_zero (by omega)
  have hlines : (↑(s.lane k).accepted : Multiset (LogLine ι)) =
      s.shelf k + ∑ t, (s.thread t).hand k := hkept.lines k
  rw [Finset.sum_eq_zero fun t _ => ProducerPc.hand_of_owed (howed t) (h.2 t), shelf,
    writerHand_of_idle hidle, hback, Lane.lines, hqueue] at hlines
  have hmem : line ∈ (↑(s.lane k).accepted : Multiset (LogLine ι)) := hline
  rw [hlines] at hmem
  simpa [Settled] using hmem

/-- The invariant of the runs in which the writer finds requests in time. -/
structure Sound (s : Shared ι) : Prop where
  kept : s.Kept
  inOrder : s.InOrder
  closed : s.shutdown = true → s.accepting = false
  stopped : s.writer = .returned → s.shutdown = true
  asked : s.asked.length = s.flushRequested
  bounded : s.flushCompleted ≤ s.flushRequested ∧
    ∀ requested, s.writer = .flushCompleted requested → requested ≤ s.flushRequested
  before : ∀ lines ∈ s.asked, ∀ k, ∀ line ∈ lines k, line ∈ (s.lane k).accepted
  /-- The request that the writer has loaded, if it is a new one. -/
  loaded : ∀ requested, s.writer = .flushCompleted requested → s.flushCompleted < requested →
    ∀ g lines, s.asked[g]? = some lines → g < requested → ∀ k, ∀ line ∈ lines k, s.Settled k line
  completed : ∀ g lines, s.asked[g]? = some lines → g < s.flushCompleted →
    ∀ k, ∀ line ∈ lines k, s.Settled k line
  returned : s.writer = .returned → ∀ k, ∀ line ∈ (s.lane k).accepted, s.Settled k line

/-- What a step of the writer does with requests. -/
structure Requests (s s' : Shared ι) : Prop where
  accepting : s'.accepting = s.accepting
  shutdown : s'.shutdown = s.shutdown
  completed : s'.flushCompleted = s.flushCompleted ∨ ∃ requested,
    s.writer = .flushCompleted requested ∧ s.flushCompleted < requested ∧
      s'.flushCompleted = requested
  loads : ∀ requested, s'.writer = .flushCompleted requested → s.writer = .flushRequested ∧
    requested = s.flushRequested ∧ s'.flushCompleted = s.flushCompleted
  returns : s'.writer = .returned → s.writer = .shutdown ∧ s.shutdown = true

omit [Fintype ι] in
theorem requests_none (hunasked : s'.writer.unasked = true)
    (hrest : (s'.accepting, s'.shutdown, s'.flushCompleted) =
      (s.accepting, s.shutdown, s.flushCompleted)) : Requests s s' := by
  obtain ⟨haccepting, hshutdown, hcompleted⟩ := by simpa only [Prod.mk.injEq] using hrest
  refine ⟨haccepting, hshutdown, .inl hcompleted, fun requested hpc => ?_, fun hpc => ?_⟩
  · rw [hpc] at hunasked
    cases hunasked
  · rw [hpc] at hunasked
    cases hunasked

omit [Fintype ι] in
theorem requests_takeProtocol {burst : ℕ} {empty : WriterPc ι} (hempty : empty.unasked = true) :
    Requests s (s.takeProtocol burst empty) := by
  rw [takeProtocol]
  split
  · exact requests_none rfl rfl
  · exact requests_none hempty rfl

omit [Fintype ι] in
theorem writer_requests (hstep : s.writerStep = some s') : Requests s s' := by
  cases hpc : s.writer with
  | top =>
    simp only [Shared.writerStep, hpc] at hstep
    split_ifs at hstep
    · exact Option.some_inj.mp hstep ▸ requests_takeProtocol rfl
    · exact Option.some_inj.mp hstep ▸ requests_none rfl rfl
  | again =>
    simp only [Shared.writerStep, hpc] at hstep
    exact Option.some_inj.mp hstep ▸ requests_takeProtocol rfl
  | diagnostic =>
    simp only [Shared.writerStep, hpc] at hstep
    split at hstep <;> exact Option.some_inj.mp hstep ▸ requests_none rfl rfl
  | coalesce line merged =>
    simp only [Shared.writerStep, hpc] at hstep
    split_ifs at hstep
    · split at hstep
      · split_ifs at hstep <;> exact Option.some_inj.mp hstep ▸ requests_none rfl rfl
      · exact Option.some_inj.mp hstep ▸ requests_none rfl rfl
    · exact Option.some_inj.mp hstep ▸ requests_none rfl rfl
  | idleProtocol | idleDiagnostic | idleProducers =>
    simp only [Shared.writerStep, hpc, idleLoad] at hstep
    refine Option.some_inj.mp hstep ▸ requests_none ?_ rfl
    show (if _ then _ else _ : WriterPc ι).unasked = true
    split_ifs <;> rfl
  | flushRequested =>
    simp only [Shared.writerStep, hpc] at hstep
    obtain rfl := Option.some_inj.mp hstep
    refine ⟨rfl, rfl, .inl rfl, ?_, fun hreturned => by cases hreturned⟩
    rintro _ ⟨⟩
    exact ⟨hpc, rfl, rfl⟩
  | flushCompleted requested =>
    simp only [Shared.writerStep, hpc] at hstep
    obtain rfl := Option.some_inj.mp hstep
    refine ⟨rfl, rfl, ?_, fun _ hload => ?_, fun hreturned => ?_⟩
    · by_cases hnew : requested > s.flushCompleted
      · exact .inr ⟨requested, hpc, hnew, if_pos hnew⟩
      · exact .inl (if_neg hnew)
    · cases hload
    · cases hreturned
  | shutdown =>
    simp only [Shared.writerStep, hpc] at hstep
    split_ifs at hstep with hshutdown
    · obtain rfl := Option.some_inj.mp hstep
      refine ⟨rfl, rfl, .inl rfl, fun _ hload => ?_, fun _ => ⟨hpc, hshutdown⟩⟩
      cases hload
    · exact Option.some_inj.mp hstep ▸ requests_none rfl rfl
  | returned => simp [Shared.writerStep, hpc] at hstep
  | _ =>
    simp only [Shared.writerStep, hpc] at hstep
    exact Option.some_inj.mp hstep ▸ requests_none rfl rfl

omit [Fintype ι] in
theorem Settled.mono {k : Target} {line : LogLine ι} (h : s.Settled k line)
    (hwritten : (s.lane k).written <+: (s'.lane k).written)
    (hdiscarded : (s.lane k).discarded <+: (s'.lane k).discarded) : s'.Settled k line :=
  h.imp (fun hline => hwritten.subset hline) fun hline => hdiscarded.subset hline

variable [DecidableEq ι]

/-- A step of a thread. -/
theorem Sound.step_thread (h : s.Sound) {t : ι} (hstep : s.producerStep t = some s') :
    s'.Sound := by
  have hstepped := stepped hstep
  have hsettled : ∀ k line, s.Settled k line → s'.Settled k line := fun k line hline =>
    hline.mono (hstepped.written k ▸ List.prefix_rfl) (hstepped.discarded k)
  refine ⟨h.kept.producerStep hstep, h.inOrder.step_thread hstepped, ?_, ?_, ?_, ?_, ?_, ?_, ?_,
    ?_⟩
  · rw [hstepped.shutdown, hstepped.accepting]
    exact h.closed
  · rw [hstepped.writer, hstepped.shutdown]
    exact h.stopped
  · rw [hstepped.asked, hstepped.flushRequested]
    exact h.asked
  · rw [hstepped.flushCompleted, hstepped.flushRequested, hstepped.writer]
    exact h.bounded
  · rw [hstepped.asked]
    exact fun lines hlines k line hline =>
      (hstepped.accepted k).subset (h.before lines hlines k line hline)
  · rw [hstepped.writer, hstepped.flushCompleted, hstepped.asked]
    exact fun requested hpc hnew g lines hlines hg k line hline =>
      hsettled k line (h.loaded requested hpc hnew g lines hlines hg k line hline)
  · rw [hstepped.flushCompleted, hstepped.asked]
    exact fun g lines hlines hg k line hline =>
      hsettled k line (h.completed g lines hlines hg k line hline)
  · rw [hstepped.writer]
    intro hreturned k line hline
    -- the shutdown came first, and nobody has been let in since
    rw [hstepped.closed (h.closed (h.stopped hreturned)) k] at hline
    exact hsettled k line (h.returned hreturned k line hline)

omit [DecidableEq ι] in
/-- A step of the writer, which finds requests in time. -/
theorem Sound.step_writer (h : s.Sound)
    (htimely : s.finds = true → s.Quiet)
    (hstep : s.writerStep = some s') : s'.Sound := by
  have hwrote := wrote h.kept hstep
  obtain ⟨haccepting, hshutdown, hcompleted, hloads, hreturns⟩ := writer_requests hstep
  have hsettled : ∀ k line, s.Settled k line → s'.Settled k line := fun k line hline =>
    hline.mono (hwrote.written k) (hwrote.discarded k ▸ List.prefix_rfl)
  have hidle : ∀ pc, s.writer = pc → pc.idle = true → s.writer.idle = true := fun _ hpc hpc' =>
    hpc ▸ hpc'
  refine ⟨h.kept.writerStep hstep, ?_, ?_, ?_, ?_, ⟨?_, fun requested hload => ?_⟩, ?_, ?_, ?_, ?_⟩
  · refine h.inOrder.fewer (fun k => ?_) hwrote.calls fun t line hline => ?_
    · rw [hwrote.passed]
    · rwa [hwrote.thread] at hline
  · rw [hshutdown, haccepting]
    exact h.closed
  · rw [hshutdown]
    exact fun hreturned => (hreturns hreturned).2
  · rw [hwrote.asked, hwrote.flushRequested]
    exact h.asked
  · rw [hwrote.flushRequested]
    rcases hcompleted with hsame | ⟨requested, hpc, -, hdone⟩
    · exact hsame ▸ h.bounded.1
    · exact hdone ▸ h.bounded.2 requested hpc
  · rw [hwrote.flushRequested, (hloads requested hload).2.1]
  · intro lines hlines k line hline
    rw [hwrote.asked] at hlines
    rw [hwrote.accepted]
    exact h.before lines hlines k line hline
  · intro requested hload hnew g lines hlines hg k line hline
    obtain ⟨hpc, rfl, hsame⟩ := hloads requested hload
    rw [hsame] at hnew
    rw [hwrote.asked] at hlines
    have hquiet := htimely (by rw [finds, hpc]; exact decide_eq_true hnew)
    exact hsettled k line (hquiet.settled h.kept (hidle _ hpc rfl) k
      (h.before lines (List.mem_of_getElem? hlines) k line hline))
  · intro g lines hlines hg k line hline
    rw [hwrote.asked] at hlines
    rcases hcompleted with hsame | ⟨requested, hpc, hnew, hdone⟩
    · exact hsettled k line (h.completed g lines hlines (hsame ▸ hg) k line hline)
    · exact hsettled k line (h.loaded requested hpc hnew g lines hlines (hdone ▸ hg) k line hline)
  · intro hreturned k line hline
    obtain ⟨hpc, hasked⟩ := hreturns hreturned
    rw [hwrote.accepted] at hline
    have hquiet := htimely (by rw [finds, hpc]; exact hasked)
    exact hsettled k line (hquiet.settled h.kept (hidle _ hpc rfl) k hline)

theorem Sound.step (h : s.Sound) {label : Label ι} (htimely : s.Timely label)
    (hstep : s.step label = some s') : s'.Sound := by
  have hkept := h.kept.step hstep
  have hinOrder := h.inOrder.step h.kept hstep
  cases label with
  | producer t => exact h.step_thread hstep
  | writer => exact h.step_writer (htimely rfl) hstep
  | call t target text =>
    simp only [Shared.step] at hstep
    split at hstep
    · obtain rfl := Option.some_inj.mp hstep
      exact ⟨hkept, hinOrder, h.closed, h.stopped, h.asked, h.bounded, h.before, h.loaded,
        h.completed, h.returned⟩
    · cases hstep
  | refuse =>
    simp only [Shared.step] at hstep
    obtain rfl := Option.some_inj.mp hstep
    exact ⟨hkept, hinOrder, fun _ => rfl, h.stopped, h.asked, h.bounded, h.before, h.loaded,
      h.completed, h.returned⟩
  | shutdown =>
    simp only [Shared.step] at hstep
    split_ifs at hstep with haccepting
    obtain rfl := Option.some_inj.mp hstep
    exact ⟨hkept, hinOrder, fun _ => Bool.eq_false_of_not_eq_true haccepting, fun _ => rfl, h.asked,
      h.bounded, h.before, h.loaded, h.completed, h.returned⟩
  | flush =>
    simp only [Shared.step] at hstep
    obtain rfl := Option.some_inj.mp hstep
    -- the new request is the last one, and what was loaded or completed is below it
    have hold : ∀ {g : ℕ} {lines}, (s.asked ++ [fun k => (s.lane k).accepted])[g]? = some lines →
        g < s.flushRequested → s.asked[g]? = some lines := by
      intro g lines hlines hg
      rwa [List.getElem?_append_left (h.asked.symm ▸ hg)] at hlines
    refine ⟨hkept, hinOrder, h.closed, h.stopped, ?_, ⟨?_, fun requested hpc => ?_⟩, ?_, ?_, ?_,
      h.returned⟩
    · show (s.asked ++ [_]).length = s.flushRequested + 1
      rw [List.length_append, h.asked, List.length_singleton]
    · exact h.bounded.1.trans (Nat.le_succ _)
    · exact (h.bounded.2 requested hpc).trans (Nat.le_succ _)
    · intro lines hlines k line hline
      rcases List.mem_append.mp hlines with hlines | hlines
      · exact h.before lines hlines k line hline
      · rwa [List.mem_singleton.mp hlines] at hline
    · intro requested hpc hnew g lines hlines hg
      have hg' : g < s.flushRequested := hg.trans_le (h.bounded.2 requested hpc)
      exact h.loaded requested hpc hnew g lines (hold hlines hg') hg
    · intro g lines hlines hg
      have hg' : g < s.flushRequested := hg.trans_le h.bounded.1
      exact h.completed g lines (hold hlines hg') hg

omit [DecidableEq ι] in
theorem sound_new (protocolCapacity diagnosticCapacity : ℕ) :
    (Shared.new ι protocolCapacity diagnosticCapacity).Sound where
  kept := kept_new ..
  inOrder := inOrder_new ..
  closed := fun hshutdown => by cases hshutdown
  stopped := fun hpc => by cases hpc
  asked := rfl
  bounded := ⟨le_rfl, fun requested hpc => by cases hpc⟩
  before := fun lines hlines => by cases hlines
  loaded := fun requested hpc => by cases hpc
  completed := fun g lines hlines hg => by cases hg
  returned := fun hpc => by cases hpc

/-- A line is written, and the writer finds a flush and a shutdown when it is idle. -/
def quietRun : List (Label Unit) :=
  enqueue .protocol "event" ++ [.flush, .refuse, .shutdown] ++ List.replicate 12 .writer

/-- The writer has read the counter of the protocol lane, and then a line is queued and the
logger shut down. -/
def lostRun : List (Label Unit) :=
  List.replicate 4 .writer ++ enqueue .protocol "event" ++ [.refuse, .shutdown] ++
    List.replicate 5 .writer

end Shared

end Csqtt.Logging
