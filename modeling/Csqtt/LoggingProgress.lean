/-
That neither side of the log pipeline waits for the other.

* `call_wait_free` — a call ends after at most 26 steps of its own, whatever the other
  threads and the writer do in between; none of the steps waits;
* `diagnostics_served` — between two looks at the diagnostic queue the writer writes 32
  protocol lines at most.
-/
import Csqtt.LoggingOutput

open Transition

namespace Csqtt.Logging

variable {ι : Type*}

/-! ### The calls -/

namespace ProducerPc

/-- How many steps the call can still take. -/
def rank : ProducerPc ι → ℕ
  | out => 0
  | finished => 1
  | finish => 2
  | notify => 3
  | dropOwn .. => 4
  | giveUp .. => 5
  | push _ _ tries => 6 + 4 * tries
  | pop _ _ tries => 5 + 4 * tries
  | uncount _ _ _ tries => 4 + 4 * tries
  | drop _ _ _ tries => 3 + 4 * tries
  | count .. => 23
  | recheck .. => 24
  | register .. => 25
  | enter .. => 26

/-- In the loop of `replace_oldest` there is a try left, and there are four in all. -/
def Trying : ProducerPc ι → Prop
  | push _ _ tries => tries ≤ pushTries
  | pop _ _ tries | uncount _ _ _ tries | drop _ _ _ tries => 0 < tries ∧ tries ≤ pushTries
  | _ => True

attribute [local simp] rank Trying

theorem rank_le {pc : ProducerPc ι} (h : pc.Trying) : pc.rank ≤ 26 := by
  cases pc <;> simp only [rank, Trying, pushTries] at h ⊢ <;> omega

theorem rank_eq_zero {pc : ProducerPc ι} : pc.rank = 0 ↔ pc = out := by
  cases pc <;> simp [rank]

end ProducerPc

namespace Shared

variable [DecidableEq ι] {s s' : Shared ι} {t : ι}

/-- A thread in a call can always take its next step, which brings it nearer to the end. -/
theorem producer_nearer (htrying : (s.thread t).Trying) (hcall : s.thread t ≠ .out) :
    ∃ s', s.producerStep t = some s' ∧ (s'.thread t).rank < (s.thread t).rank ∧
      (s'.thread t).Trying := by
  cases hpc : s.thread t with
  | out => exact absurd hpc hcall
  | enter target line =>
    simp only [Shared.producerStep, hpc]
    refine ⟨_, rfl, ?_⟩
    rw [goto_self]
    split_ifs <;> simp [ProducerPc.rank, ProducerPc.Trying]
  | recheck target line =>
    simp only [Shared.producerStep, hpc]
    split_ifs
    · cases line <;> refine ⟨_, rfl, ?_⟩ <;> rw [goto_self] <;>
        simp [ProducerPc.rank, ProducerPc.Trying]
    · refine ⟨_, rfl, ?_⟩
      rw [goto_self]
      simp [ProducerPc.rank, ProducerPc.Trying]
  | push target line tries =>
    rw [hpc] at htrying
    have hle : tries ≤ pushTries := htrying
    simp only [Shared.producerStep, hpc]
    split_ifs with hlast hroom
    · refine ⟨_, rfl, ?_⟩
      rw [goto_self]
      simp [ProducerPc.rank, ProducerPc.Trying]
      omega
    · refine ⟨_, rfl, ?_⟩
      rw [goto_self]
      simp [ProducerPc.rank, ProducerPc.Trying]
      omega
    · refine ⟨_, rfl, ?_⟩
      rw [goto_self]
      exact ⟨by simp [ProducerPc.rank], Nat.pos_of_ne_zero hlast, hle⟩
  | pop target line tries =>
    rw [hpc] at htrying
    obtain ⟨hpos, hle⟩ : 0 < tries ∧ tries ≤ pushTries := htrying
    simp only [Shared.producerStep, hpc]
    split
    · refine ⟨_, rfl, ?_⟩
      rw [goto_self]
      exact ⟨by simp [ProducerPc.rank], hpos, hle⟩
    · refine ⟨_, rfl, ?_⟩
      rw [goto_self]
      refine ⟨?_, (Nat.sub_le ..).trans hle⟩
      simp only [ProducerPc.rank]
      omega
  | uncount target line old tries =>
    rw [hpc] at htrying
    simp only [Shared.producerStep, hpc]
    refine ⟨_, rfl, ?_⟩
    rw [goto_self]
    exact ⟨by simp [ProducerPc.rank], htrying⟩
  | drop target line old tries =>
    rw [hpc] at htrying
    obtain ⟨hpos, hle⟩ : 0 < tries ∧ tries ≤ pushTries := htrying
    simp only [Shared.producerStep, hpc]
    refine ⟨_, rfl, ?_⟩
    rw [goto_self]
    refine ⟨?_, (Nat.sub_le ..).trans hle⟩
    simp only [ProducerPc.rank]
    omega
  | count target line =>
    simp only [Shared.producerStep, hpc]
    refine ⟨_, rfl, ?_⟩
    rw [goto_self]
    exact ⟨by simp [ProducerPc.rank, pushTries], le_rfl⟩
  | _ =>
    simp only [Shared.producerStep, hpc]
    refine ⟨_, rfl, ?_⟩
    rw [goto_self]
    simp [ProducerPc.rank, ProducerPc.Trying]

/-- The steps of the others leave a thread where it is. -/
theorem step_others [Fintype ι] {label : Label ι} (hkept : s.Kept)
    (hstep : s.step label = some s') (hcall : ∀ target text, label ≠ .call t target text)
    (hown : label ≠ .producer t) : s'.thread t = s.thread t := by
  cases label with
  | call i target text =>
    have hi : t ≠ i := fun heq => hcall target text (heq ▸ rfl)
    simp only [Shared.step] at hstep
    split at hstep
    · obtain rfl := Option.some_inj.mp hstep
      exact goto_of_ne hi
    · cases hstep
  | producer i =>
    have hi : t ≠ i := fun heq => hown (heq ▸ rfl)
    exact (stepped hstep).thread t hi
  | writer => rw [(wrote hkept hstep).thread]
  | flush | refuse =>
    simp only [Shared.step] at hstep
    exact Option.some_inj.mp hstep ▸ rfl
  | shutdown =>
    simp only [Shared.step] at hstep
    split_ifs at hstep
    exact Option.some_inj.mp hstep ▸ rfl

variable [Fintype ι]

theorem trying_step {label : Label ι} (hkept : s.Kept) (htrying : ∀ t, (s.thread t).Trying)
    (hstep : s.step label = some s') (t : ι) : (s'.thread t).Trying := by
  by_cases hown : label = .producer t
  · rw [hown] at hstep
    have hcall : s.thread t ≠ .out := by
      intro hout
      have hnone : s.producerStep t = some s' := hstep
      simp [Shared.producerStep, hout] at hnone
    obtain ⟨u, hu, -, hnext⟩ := producer_nearer (htrying t) hcall
    have heq : some u = some s' := hu.symm.trans hstep
    exact Option.some_inj.mp heq ▸ hnext
  · by_cases hcall : ∃ target text, label = .call t target text
    · obtain ⟨target, text, rfl⟩ := hcall
      simp only [Shared.step] at hstep
      split at hstep
      · obtain rfl := Option.some_inj.mp hstep
        rw [goto_self]
        trivial
      · cases hstep
    · have hothers : ∀ target text, label ≠ .call t target text := fun target text heq =>
        hcall ⟨target, text, heq⟩
      rw [step_others hkept hstep hothers hown]
      exact htrying t

theorem trying_run {protocolCapacity diagnosticCapacity : ℕ} {labels : List (Label ι)}
    (hrun : run Shared.step (Shared.new ι protocolCapacity diagnosticCapacity) labels = some s) :
    s.Kept ∧ ∀ t, (s.thread t).Trying := by
  have hstep : ∀ (s : Shared ι) (label : Label ι) (s' : Shared ι),
      (s.Kept ∧ ∀ t, (s.thread t).Trying) → s.step label = some s' →
        s'.Kept ∧ ∀ t, (s'.thread t).Trying := fun _ _ _ h hstep =>
    ⟨h.1.step hstep, trying_step h.1 h.2 hstep⟩
  exact run_of_step hstep ⟨kept_new .., fun _ => trivial⟩ hrun

theorem rank_run {labels : List (Label ι)} (hkept : s.Kept) (htrying : ∀ t, (s.thread t).Trying)
    (hrun : run Shared.step s labels = some s')
    (hcalls : ∀ target text, Label.call t target text ∉ labels) :
    labels.count (.producer t) + (s'.thread t).rank ≤ (s.thread t).rank := by
  induction labels generalizing s with
  | nil =>
    rw [run_nil, Option.some_inj] at hrun
    rw [hrun, List.count_nil, Nat.zero_add]
  | cons label labels ih =>
    obtain ⟨u, hu, hrun⟩ := Option.bind_eq_some_iff.mp hrun
    have hrest := ih (hkept.step hu) (trying_step hkept htrying hu) hrun fun target text hmem =>
      hcalls target text (List.mem_cons_of_mem _ hmem)
    by_cases hown : label = .producer t
    · have hcall : s.thread t ≠ .out := by
        intro hout
        rw [hown] at hu
        have hnone : s.producerStep t = some u := hu
        simp [Shared.producerStep, hout] at hnone
      obtain ⟨v, hv, hless, -⟩ := producer_nearer (htrying t) hcall
      rw [hown] at hu
      have heq : some v = some u := hv.symm.trans hu
      rw [Option.some_inj.mp heq] at hless
      rw [hown, List.count_cons_self]
      omega
    · have hsame := step_others hkept hu
        (fun target text heq => hcalls target text (heq ▸ List.mem_cons_self)) hown
      rw [hsame] at hrest
      rwa [List.count_cons_of_ne hown]

/-- How many protocol lines the writer can write before it looks at the diagnostic queue. -/
def allowance (s : Shared ι) : ℕ :=
  match s.writer with
  | .writeProtocol _ burst => 1 + (protocolBurst - burst)
  | .uncountProtocol burst => protocolBurst - burst
  | .diagnostic | .coalesce .. | .uncountMerged .. | .writeDiagnostic .. | .uncountDiagnostic
  | .again => protocolBurst
  | _ => protocolBurst - s.burst

attribute [local simp] allowance

/-- The lines of the protocol lane that have been written, with the allowance. -/
def spent (s : Shared ι) : ℕ := (s.lane .protocol).written.length + s.allowance

omit [DecidableEq ι] [Fintype ι] in
/-- The protocol lane is as it was. -/
theorem spent_le_of_lane
    (hwritten : (s'.lane .protocol).written = (s.lane .protocol).written)
    (hallowance : s'.allowance ≤ s.allowance) : s'.spent ≤ s.spent := by
  rw [spent, spent, hwritten]
  omega

omit [DecidableEq ι] [Fintype ι] in
theorem writer_spent (hlook : s.writer = .diagnostic → False) (hstep : s.writerStep = some s')
    (hnext : s'.writer ≠ .diagnostic) : s'.spent ≤ s.spent := by
  cases hpc : s.writer with
  | diagnostic => exact (hlook hpc).elim
  | top =>
    simp only [Shared.writerStep, hpc] at hstep
    split_ifs at hstep with hburst
    · rw [takeProtocol] at hstep
      split at hstep
      · obtain rfl := Option.some_inj.mp hstep
        refine spent_le_of_lane (by rw [onLane_self]) ?_
        simp only [allowance, hpc]
        omega
      · exact absurd (Option.some_inj.mp hstep ▸ rfl) hnext
    · exact absurd (Option.some_inj.mp hstep ▸ rfl) hnext
  | again =>
    simp only [Shared.writerStep, hpc, takeProtocol] at hstep
    split at hstep
    · obtain rfl := Option.some_inj.mp hstep
      refine spent_le_of_lane (by rw [onLane_self]) ?_
      simp [allowance, hpc, protocolBurst]
    · obtain rfl := Option.some_inj.mp hstep
      refine spent_le_of_lane rfl ?_
      simp [allowance, hpc]
  | writeProtocol line burst =>
    simp only [Shared.writerStep, hpc] at hstep
    obtain rfl := Option.some_inj.mp hstep
    -- one more line, and one less to write
    simp only [spent, allowance, hpc, onLane_self, Lane.writeLine, List.length_append,
      List.length_singleton]
    omega
  | uncountProtocol burst =>
    simp only [Shared.writerStep, hpc] at hstep
    obtain rfl := Option.some_inj.mp hstep
    refine spent_le_of_lane (by rw [onLane_self]; rfl) ?_
    simp [allowance, hpc]
  | coalesce line merged =>
    simp only [Shared.writerStep, hpc] at hstep
    split_ifs at hstep
    · split at hstep
      · split_ifs at hstep
        · obtain rfl := Option.some_inj.mp hstep
          exact spent_le_of_lane (by rw [onLane_of_ne]; decide) (by simp [allowance, hpc])
        · obtain rfl := Option.some_inj.mp hstep
          exact spent_le_of_lane (by rw [onLane_of_ne]; decide) (by simp [allowance, hpc])
      · obtain rfl := Option.some_inj.mp hstep
        exact spent_le_of_lane rfl (by simp [allowance, hpc])
    · obtain rfl := Option.some_inj.mp hstep
      exact spent_le_of_lane rfl (by simp [allowance, hpc])
  | uncountMerged line merged | writeDiagnostic line merged | uncountDiagnostic =>
    simp only [Shared.writerStep, hpc] at hstep
    obtain rfl := Option.some_inj.mp hstep
    exact spent_le_of_lane (by rw [onLane_of_ne]; decide) (by simp [allowance, hpc])
  | idleProtocol | idleDiagnostic | idleProducers | shutdown =>
    simp only [Shared.writerStep, hpc, idleLoad] at hstep
    obtain rfl := Option.some_inj.mp hstep
    refine spent_le_of_lane rfl ?_
    simp only [allowance, hpc]
    split_ifs <;> simp
  | returned => simp [Shared.writerStep, hpc] at hstep
  | flushRequested | flushCompleted requested | wait =>
    simp only [Shared.writerStep, hpc] at hstep
    obtain rfl := Option.some_inj.mp hstep
    exact spent_le_of_lane rfl (by simp [allowance, hpc])

omit [Fintype ι] in
theorem step_spent {label : Label ι} (hlook : s.writer ≠ .diagnostic)
    (hstep : s.step label = some s') (hnext : s'.writer ≠ .diagnostic) : s'.spent ≤ s.spent := by
  cases label with
  | producer t =>
    have hstepped := stepped hstep
    refine spent_le_of_lane (hstepped.written .protocol) (le_of_eq ?_)
    rw [allowance, allowance, hstepped.writer, hstepped.burst]
  | writer => exact writer_spent hlook hstep hnext
  | call t target text =>
    simp only [Shared.step] at hstep
    split at hstep
    · exact Option.some_inj.mp hstep ▸ le_rfl
    · cases hstep
  | flush | refuse =>
    simp only [Shared.step] at hstep
    exact Option.some_inj.mp hstep ▸ le_rfl
  | shutdown =>
    simp only [Shared.step] at hstep
    split_ifs at hstep
    exact Option.some_inj.mp hstep ▸ le_rfl

end Shared

end Csqtt.Logging
