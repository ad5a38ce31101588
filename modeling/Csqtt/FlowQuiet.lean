/-
Flows that go quiet behind a gap.

The deadline of a gap is read by a push to its own flow only, twice: before the value
is placed and after it has been stored.  Nothing else looks at the clock, neither the
pushes to other flows nor the consumer of the queue.

* `quiet_overdue` — 1 of one flow, and twelve milliseconds later 0 of another: the first
  is still held, past its release limit;
* `quiet_untouched` — every flow of the table is what its own last push has left, and no gap
  was overdue when that push was done.
-/
import Csqtt.FlowGap

open Containers SerialNumber Transition

namespace Csqtt.FlowFrame

variable {T : Type*} {s : FlowState T} {nowMs : ℕ}

/-- Something waits behind a gap that is as old as the release limit. -/
def Overdue (nowMs : ℕ) (s : FlowState T) : Prop :=
  s.pending ≠ [] ∧ ∃ started, s.gapStartedMs = some started ∧ started + gapReleaseAfterMs ≤ nowMs

theorem Overdue.gapExpired (h : Overdue nowMs s) : gapExpired nowMs s = true := by
  obtain ⟨-, started, hgap, hold⟩ := h
  rw [FlowFrame.gapExpired, hgap, Option.any_some, decide_eq_true_eq]
  omega

/-! ### One push to its own flow -/

/-- A gap that starts now has not aged. -/
theorem gapExpired_now (expected : BitVec 32) (pending : List (Pending T)) :
    gapExpired nowMs ⟨expected, some nowMs, pending⟩ = false := by
  rw [gapExpired, Option.any_some, Nat.sub_self]
  rfl

theorem gapExpired_of_none (h : s.gapStartedMs = none) : gapExpired nowMs s = false := by
  rw [gapExpired, h, Option.any_none]

/-- A release starts the clock anew, or stops it. -/
theorem releaseLowest_young (nowMs : ℕ) (s : FlowState T) (output : List T) :
    gapExpired nowMs (releaseLowest nowMs s output).1 = false := by
  cases h : lowest s with
  | none =>
    rw [releaseLowest_of_none h]
    exact gapExpired_of_none rfl
  | some q =>
    rw [releaseLowest_of_some h nowMs output rfl]
    simp only
    split
    · exact gapExpired_of_none rfl
    · exact gapExpired_now _ _

theorem releaseExpired_young (nowMs : ℕ) (s : FlowState T) (output : List T) :
    gapExpired nowMs (releaseExpired nowMs s output).1 = false := by
  rw [releaseExpired]
  split
  case isTrue => exact releaseLowest_young nowMs s output
  case isFalse hyoung => exact Bool.eq_false_of_not_eq_true hyoung

namespace Work

variable {w : Work T}

/-- The deadline is looked at again once the value has been stored. -/
theorem store_young (sequence : BitVec 32) (value : T) (nowMs : ℕ) (w : Work T) :
    gapExpired nowMs (w.store sequence value nowMs).state = false := by
  rw [store_eq_steps]
  exact releaseExpired_young nowMs _ _

theorem place_young (sequence : BitVec 32) (value : T)
    (hyoung : gapExpired nowMs w.state = false) :
    gapExpired nowMs (w.place sequence value nowMs).state = false := by
  unfold place
  split
  · -- a value that is due stops the clock, and the drain leaves it so
    exact gapExpired_of_none (drainLoop_gap ..)
  split
  · exact hyoung
  · -- the lowest gap may be released first; what follows ends in `store` or without a clock
    have hrest : ∀ v : Work T, gapExpired nowMs
        (if v.pendingTotal = maxPendingTotal then
          if v.state.pending.isEmpty then
            ({ v with
              state := { v.state with expected := sequence + 1, gapStartedMs := none }
              output := v.output ++ [value] } : Work T)
          else (v.counted (releaseLowest nowMs)).store sequence value nowMs
        else v.store sequence value nowMs).state = false := by
      intro v
      split
      · split
        · exact gapExpired_of_none rfl
        · exact store_young sequence value nowMs _
      · exact store_young sequence value nowMs _
    exact hrest _

/-- Whatever a push does, the gap of its flow is not overdue when it returns. -/
theorem push_young (sequence : BitVec 32) (value : T) (nowMs : ℕ) (w : Work T) :
    gapExpired nowMs (w.push sequence value nowMs).state = false :=
  place_young sequence value (releaseExpired_young nowMs w.state w.output)

end Work

/-! ### The table -/

theorem pushAt_own (r : FlowReassembler T) (p : Push T)
    (h : (r.pushAt p.header p.value p.nowMs p.output).1.flows.lookup p.header.key = some s) :
    ¬ Overdue p.nowMs s := by
  rw [FlowReassembler.pushAt, AList.lookup_insert] at h
  obtain rfl := Option.some_inj.mp h
  intro hold
  have hyoung := Work.push_young p.header.sequence p.value p.nowMs
    ⟨(r.makeRoom p.header.key).flow p.header.key, (r.makeRoom p.header.key).pendingTotal, p.output⟩
  exact absurd (hyoung.symm.trans hold.gapExpired) Bool.false_ne_true

/-- What a push leaves of another flow was there before it. -/
theorem lookup_of_pushAt {r : FlowReassembler T} {p : Push T} {key : ReassemblyKey}
    (hkey : key ≠ p.header.key)
    (h : (r.pushAt p.header p.value p.nowMs p.output).1.flows.lookup key = some s) :
    r.flows.lookup key = some s := by
  rw [FlowReassembler.pushAt, AList.lookup_insert_ne hkey] at h
  unfold FlowReassembler.makeRoom at h
  split at h
  · -- the table has been cleared
    exact absurd h.symm (Option.some_ne_none s)
  · exact h

/-- The claim on the whole table: no gap of any flow is overdue. -/
def NoneOverdue (nowMs : ℕ) (r : FlowReassembler T) : Prop :=
  ∀ key s, r.flows.lookup key = some s → ¬ Overdue nowMs s

/-- 1 of one flow, and 0 of another when the first gap has aged. -/
def quietPushes : List (Push ℕ) :=
  [⟨⟨17, 23, 1⟩, 11, 0, []⟩, ⟨⟨17, 24, 0⟩, 20, gapReleaseAfterMs, []⟩]

/-- The clock does not go back, and the flow that went quiet is overdue after the second push. -/
theorem quiet_overdue : quietPushes.Pairwise (fun p q => p.nowMs ≤ q.nowMs) ∧
    ∃ r, run step FlowReassembler.new quietPushes = some r ∧ ¬ NoneOverdue gapReleaseAfterMs r := by
  have hrun : ∃ r, run step FlowReassembler.new quietPushes = some r ∧
      r.flows.lookup ⟨17, 23⟩ = some ⟨0, some 0, [⟨1, 11⟩]⟩ := ⟨_, rfl, rfl⟩
  obtain ⟨r, hr, hl⟩ := hrun
  refine ⟨by simp [quietPushes], r, hr, fun h => h _ _ hl ⟨List.cons_ne_nil _ _, 0, rfl, ?_⟩⟩
  omega

/-- Each flow of the table is as its own last push has left it, and when that push was done
its gap was not overdue.  The pushes to other flows in between did not look at it. -/
theorem quiet_untouched (ps : List (Push T)) {r : FlowReassembler T}
    (hrun : run step FlowReassembler.new ps = some r) {key : ReassemblyKey} {s : FlowState T}
    (hs : r.flows.lookup key = some s) :
    ∃ before p after, ps = before ++ p :: after ∧ p.header.key = key ∧
      (∀ q ∈ after, q.header.key ≠ key) ∧ ¬ Overdue p.nowMs s ∧
      ∃ r', run step FlowReassembler.new (before ++ [p]) = some r' ∧
        r'.flows.lookup key = some s := by
  induction ps using List.reverseRecOn generalizing r with
  | nil =>
    obtain rfl := Option.some_inj.mp hrun
    exact absurd hs.symm (Option.some_ne_none s)
  | append_singleton ps p ih =>
    have hrun' := hrun
    rw [run_append] at hrun
    obtain ⟨r', hr', hstep⟩ := Option.bind_eq_some_iff.mp hrun
    obtain rfl := Option.some_inj.mp hstep
    by_cases hkey : key = p.header.key
    · subst hkey
      refine ⟨ps, p, [], rfl, rfl, by simp, pushAt_own r' p hs, _, hrun', hs⟩
    · obtain ⟨before, q, after, rfl, hq, hafter, hyoung, hleft⟩ :=
        ih hr' (lookup_of_pushAt hkey hs)
      refine ⟨before, q, after ++ [p], by simp, hq, fun e he => ?_, hyoung, hleft⟩
      rcases List.mem_append.mp he with he | he
      · exact hafter e he
      · rw [List.mem_singleton.mp he]
        exact fun h => hkey h.symm

/-- The quiet flow of `quietPushes`. -/
theorem quiet_untouched_pushes : ∃ r s, run step FlowReassembler.new quietPushes = some r ∧
    r.flows.lookup ⟨17, 23⟩ = some s ∧
    ∃ before p after, quietPushes = before ++ p :: after ∧ p.header.key = ⟨17, 23⟩ ∧
      (∀ q ∈ after, q.header.key ≠ ⟨17, 23⟩) ∧ ¬ Overdue p.nowMs s ∧
      ∃ r', run step FlowReassembler.new (before ++ [p]) = some r' ∧
        r'.flows.lookup ⟨17, 23⟩ = some s :=
  ⟨_, _, rfl, rfl, quiet_untouched quietPushes rfl rfl⟩

end Csqtt.FlowFrame
