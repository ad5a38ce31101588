/-
The reorder invariant of the flow reassembler, and exactly when it holds.

`push_at` checks that the value lies ahead of `expected` once; the two capacity
branches then move `expected` on before the value is stored.

* `full_flow_strands` — 96 pending values and the next one: the value lands *at*
  `expected`, where nothing can ever release it;
* `reordered_iff` — along a run from the empty reassembler the invariant holds
  in every state exactly when each push keeps clear of that (`StaysAhead`).

All distances are measured from the `expected` of the moment before the push:
`drain_spec` and `releaseLowest_spec` say where the loop leaves `expected` in
those terms, and `Ordered.push_iff` compares it with the pushed value.
-/
import Csqtt.FlowFrame
import Csqtt.TransitionRun

open Containers SerialNumber Transition

namespace Csqtt.FlowFrame

variable {T : Type*} {state : FlowState T}

/-! ### The invariant -/

/-- The pending values of a flow lie ahead of `expected`, each once. -/
structure Ordered (state : FlowState T) : Prop where
  forward : ∀ p ∈ state.pending, isForward p.sequence state.expected = true
  distinct : (state.pending.map Pending.sequence).Nodup

/-- The reorder invariant. -/
structure Reordered (r : FlowReassembler T) : Prop where
  ordered : ∀ key state, r.flows.lookup key = some state → Ordered state
  bounded : ∀ key state, r.flows.lookup key = some state →
    state.pending.length ≤ maxPendingPerFlow
  counted : r.pendingTotal = total (fun state => state.pending.length) r.flows
  total_le : r.pendingTotal ≤ maxPendingTotal

/-- No pending value of the flow has this sequence number. -/
def Absent (state : FlowState T) (sequence : BitVec 32) : Prop :=
  ∀ p ∈ state.pending, p.sequence ≠ sequence

/-- A sequence number behind which some value is already pending. -/
def Missing (state : FlowState T) (sequence : BitVec 32) : Prop :=
  Absent state sequence ∧
    ∃ p ∈ state.pending, dist state.expected p.sequence < dist state.expected sequence

/-- A value ahead of `expected` that a full flow or a full table is to store has
another missing one between the lowest pending value and itself. -/
def StoredAhead (state : FlowState T) (pendingTotal : ℕ) (sequence : BitVec 32) : Prop :=
  isForward sequence state.expected = true → Absent state sequence →
    (state.pending.length = maxPendingPerFlow ∨
      pendingTotal = maxPendingTotal ∧ state.pending ≠ []) →
    ∃ m, Missing state m ∧ dist state.expected m < dist state.expected sequence

/-- The same for a call of `push_at`; a gap that has aged has made room before. -/
def StaysAhead (r : FlowReassembler T) (p : Push T) : Prop :=
  gapExpired p.nowMs (r.flow p.header.key) = false →
    StoredAhead (r.flow p.header.key) r.pendingTotal p.header.sequence

theorem isForward_iff {sequence expected : BitVec 32} :
    isForward sequence expected = true ↔
      0 < dist expected sequence ∧ dist expected sequence < 2 ^ 31 := by
  rw [isForward, Bool.and_eq_true, decide_eq_true_eq, decide_eq_true_eq, dist_pos]

/-! ### Draining -/

/-- What `drain_contiguous` does, with distances from a base `b` at or behind
`expected`. -/
structure Drained (b : BitVec 32) (s s' : FlowState T) : Prop where
  gap : s'.gapStartedMs = s.gapStartedMs
  sub : ∀ p ∈ s'.pending, p ∈ s.pending
  ahead : ∀ p ∈ s'.pending, dist b s'.expected < dist b p.sequence
  distinct : (s'.pending.map Pending.sequence).Nodup
  length_le : s'.pending.length ≤ s.pending.length
  le : dist b s.expected ≤ dist b s'.expected
  near : dist b s'.expected ≤ 2 ^ 31
  rest : ∀ p ∈ s.pending, p ∈ s'.pending ∨ dist b p.sequence < dist b s'.expected
  passed : ∀ x, dist b s.expected ≤ dist b x → dist b x < dist b s'.expected →
    ∃ p ∈ s.pending, p.sequence = x

private theorem exists_mem_zipIdx {p : Pending T} {l : List (Pending T)} (hp : p ∈ l) :
    ∃ i, (p, i) ∈ l.zipIdx :=
  (List.getElem?_of_mem hp).imp fun _ hi => List.mem_zipIdx_iff_getElem?.mpr hi

/-- The other pending values, and their sequence numbers, after one is taken. -/
private theorem swapRemove_spec {s : FlowState T} {q : Pending T} {i : ℕ}
    (hq : s.pending[i]? = some q) (hnodup : (s.pending.map Pending.sequence).Nodup) :
    (∀ p ∈ s.pending, p = q ∨ p ∈ swapRemove s.pending i) ∧
    (∀ p ∈ swapRemove s.pending i, p.sequence ≠ q.sequence) ∧
    ((swapRemove s.pending i).map Pending.sequence).Nodup := by
  have hperm := cons_swapRemove_perm hq
  have hcons := (hperm.map Pending.sequence).nodup_iff.mpr hnodup
  rw [List.map_cons, List.nodup_cons] at hcons
  refine ⟨fun p hp => List.mem_cons.mp (hperm.symm.subset hp), fun p hp heq => ?_, hcons.2⟩
  exact hcons.1 (heq ▸ List.mem_map_of_mem hp)

theorem drainLoop_spec (b : BitVec 32) : ∀ (fuel : ℕ) (s : FlowState T) (output : List T),
    s.pending.length ≤ fuel → dist b s.expected ≤ 2 ^ 31 →
    (∀ p ∈ s.pending, dist b s.expected ≤ dist b p.sequence ∧ dist b p.sequence < 2 ^ 31) →
    (s.pending.map Pending.sequence).Nodup → Drained b s (drainLoop fuel s output).1 := by
  -- nothing pending is due: the loop stops here
  have stop : ∀ s : FlowState T, dist b s.expected ≤ 2 ^ 31 →
      (∀ p ∈ s.pending, dist b s.expected ≤ dist b p.sequence) →
      (∀ p ∈ s.pending, p.sequence ≠ s.expected) →
      (s.pending.map Pending.sequence).Nodup → Drained b s s := by
    intro s hnear hahead hdue hnodup
    refine ⟨rfl, fun _ hp => hp, fun p hp => ?_, hnodup, Nat.le_refl _, Nat.le_refl _, hnear,
      fun _ hp => .inl hp, fun x h₁ h₂ => absurd h₁ (by omega)⟩
    exact Nat.lt_of_le_of_ne (hahead p hp) fun h => hdue p hp (dist_inj.mp h).symm
  intro fuel
  induction fuel with
  | zero =>
    intro s output hfuel hnear hahead hnodup
    have hnil : s.pending = [] := List.eq_nil_of_length_eq_zero (Nat.le_zero.mp hfuel)
    exact stop s hnear (fun p hp => (hahead p hp).1) (by simp [hnil]) hnodup
  | succ fuel ih =>
    intro s output hfuel hnear hahead hnodup
    rw [drainLoop]
    split
    case h_1 hnone =>
      refine stop s hnear (fun p hp => (hahead p hp).1) (fun p hp heq => ?_) hnodup
      obtain ⟨i, hi⟩ := exists_mem_zipIdx hp
      exact List.find?_eq_none.mp hnone _ hi (by simpa using heq)
    case h_2 q i hsome =>
      have hq : s.pending[i]? = some q :=
        List.mem_zipIdx_iff_getElem?.mp (List.mem_of_find?_eq_some hsome)
      have hseq : q.sequence = s.expected := by simpa using List.find?_some hsome
      have hdue := hahead q (List.mem_of_getElem? hq)
      rw [hseq] at hdue
      have hlen := length_swapRemove hq
      obtain ⟨hothers, hne, hnodup'⟩ := swapRemove_spec hq hnodup
      have hnext : dist b (s.expected + 1) = dist b s.expected + 1 :=
        dist_add_one (by omega)
      have h := ih ⟨s.expected + 1, s.gapStartedMs, swapRemove s.pending i⟩
        (output ++ [q.value]) (by simp only; omega) (by simp only; omega)
        (fun p hp => by
          have hp' := hahead p (mem_of_mem_swapRemove hq hp)
          have hpne : dist b p.sequence ≠ dist b s.expected := fun heq =>
            hne p hp ((dist_inj.mp heq).trans hseq.symm)
          exact ⟨by simp only; omega, hp'.2⟩)
        hnodup'
      refine ⟨h.gap, fun p hp => mem_of_mem_swapRemove hq (h.sub p hp), h.ahead, h.distinct, ?_,
        ?_, h.near, ?_, ?_⟩
      · have := h.length_le
        simp only at this
        omega
      · have := h.le
        simp only at this
        omega
      · intro p hp
        rcases hothers p hp with rfl | hp
        · have := h.le
          simp only at this
          exact .inr (by rw [hseq]; omega)
        · exact h.rest p hp
      · intro x h₁ h₂
        rcases Nat.lt_or_eq_of_le h₁ with hlt | heq
        · obtain ⟨p, hp, hpx⟩ := h.passed x (by simp only; omega) h₂
          exact ⟨p, mem_of_mem_swapRemove hq hp, hpx⟩
        · exact ⟨q, List.mem_of_getElem? hq, hseq.trans (dist_inj.mp heq)⟩

/-! ### Releasing the lowest gap -/

/-- The first sequence number behind the lowest pending value that is absent. -/
structure FirstMissing (s : FlowState T) (m : BitVec 32) : Prop where
  missing : Missing s m
  least : ∀ x, Missing s x → dist s.expected m ≤ dist s.expected x
  near : dist s.expected m ≤ 2 ^ 31

/-- What `release_lowest` does to a flow with pending values. -/
structure Released (nowMs : ℕ) (s s' : FlowState T) : Prop where
  ordered : Ordered s'
  first : FirstMissing s s'.expected
  sub : ∀ p ∈ s'.pending, p ∈ s.pending
  length_lt : s'.pending.length < s.pending.length
  fresh : gapExpired nowMs s' = false

theorem lowest_spec {s : FlowState T} (h : Ordered s) (hne : s.pending ≠ []) :
    ∃ q i, lowest s = some (q, i) ∧ s.pending[i]? = some q ∧
      ∀ p ∈ s.pending, dist s.expected q.sequence ≤ dist s.expected p.sequence := by
  have hall : s.pending.zipIdx.filter (fun p => isForward p.1.sequence s.expected) =
      s.pending.zipIdx :=
    List.filter_eq_self.mpr fun p hp => h.forward p.1 (List.fst_mem_of_mem_zipIdx hp)
  unfold lowest
  rw [hall]
  cases hmin : s.pending.zipIdx.argmin fun p => dist s.expected p.1.sequence with
  | none => exact absurd (List.argmin_eq_none.mp hmin) (by simpa using hne)
  | some qi =>
    refine ⟨qi.1, qi.2, rfl, List.mem_zipIdx_iff_getElem?.mp (List.argmin_mem hmin), ?_⟩
    intro p hp
    obtain ⟨j, hj⟩ := exists_mem_zipIdx hp
    exact List.le_of_mem_argmin (f := fun p : Pending T × ℕ => dist s.expected p.1.sequence) hj hmin

/-- What is behind the lowest pending value is drained once that one has left. -/
theorem lowest_drained {s : FlowState T} (h : Ordered s) {q : Pending T} {i : ℕ}
    (hq : s.pending[i]? = some q)
    (hmin : ∀ p ∈ s.pending, dist s.expected q.sequence ≤ dist s.expected p.sequence)
    (output : List T) :
    Drained s.expected ⟨q.sequence + 1, none, swapRemove s.pending i⟩
      (drainContiguous ⟨q.sequence + 1, none, swapRemove s.pending i⟩ output).1 := by
  obtain ⟨-, hseq, hnodup⟩ := swapRemove_spec hq h.distinct
  have hqf := isForward_iff.mp (h.forward q (List.mem_of_getElem? hq))
  have hnext : dist s.expected (q.sequence + 1) = dist s.expected q.sequence + 1 :=
    dist_add_one (by omega)
  refine drainLoop_spec s.expected _ _ _ (Nat.le_refl _) (by simp only; omega) ?_ hnodup
  intro p hp
  have hpmem := mem_of_mem_swapRemove hq hp
  have hle := hmin p hpmem
  have hpne : dist s.expected p.sequence ≠ dist s.expected q.sequence := fun heq =>
    hseq p hp (dist_inj.mp heq)
  exact ⟨by simp only; omega, (isForward_iff.mp (h.forward p hpmem)).2⟩

theorem gapExpired_restart (nowMs : ℕ) (s : FlowState T) (h : s.gapStartedMs = none) :
    gapExpired nowMs (if s.pending.isEmpty then s else { s with gapStartedMs := some nowMs }) =
      false := by
  split <;> simp [gapExpired, h, gapReleaseAfterMs]

theorem releaseLowest_spec {s : FlowState T} (h : Ordered s) (hne : s.pending ≠ []) (nowMs : ℕ)
    (output : List T) : Released nowMs s (releaseLowest nowMs s output).1 := by
  obtain ⟨q, i, hlow, hq, hmin⟩ := lowest_spec h hne
  obtain ⟨hothers, -, -⟩ := swapRemove_spec hq h.distinct
  have hqmem := List.mem_of_getElem? hq
  have hqf := isForward_iff.mp (h.forward q hqmem)
  have hlen := length_swapRemove hq
  have hnext : dist s.expected (q.sequence + 1) = dist s.expected q.sequence + 1 :=
    dist_add_one (by omega)
  have hd := lowest_drained h hq hmin (output ++ [q.value])
  rw [releaseLowest, hlow]
  simp only
  generalize (drainContiguous ⟨q.sequence + 1, none, swapRemove s.pending i⟩
    (output ++ [q.value])).1 = d at hd ⊢
  have hle := hd.le
  have hdlen := hd.length_le
  simp only at hle hdlen
  -- restarting the gap's clock touches neither `expected` nor `pending`
  have hexp : (if d.pending.isEmpty then d else { d with gapStartedMs := some nowMs }).expected =
      d.expected := by split <;> rfl
  have hpend : (if d.pending.isEmpty then d else { d with gapStartedMs := some nowMs }).pending =
      d.pending := by split <;> rfl
  refine ⟨⟨?_, ?_⟩, ?_, ?_, ?_, gapExpired_restart nowMs d hd.gap⟩
  · rw [hexp, hpend]
    intro p hp
    have hahead := hd.ahead p hp
    have hpf := isForward_iff.mp (h.forward p (mem_of_mem_swapRemove hq (hd.sub p hp)))
    rw [isForward_iff, dist_rebase (Nat.le_of_lt hahead)]
    omega
  · rw [hpend]
    exact hd.distinct
  · rw [hexp]
    refine ⟨⟨fun p hp heq => ?_, q, hqmem, by omega⟩, ?_, hd.near⟩
    · rcases hothers p hp with rfl | hp
      · rw [← heq] at hle
        omega
      · rcases hd.rest p hp with hp | hlt
        · exact absurd (hd.ahead p hp) (by rw [heq]; exact Nat.lt_irrefl _)
        · rw [heq] at hlt
          exact Nat.lt_irrefl _ hlt
    · rintro x ⟨habsent, p, hp, hpx⟩
      by_contra hlt
      have := hmin p hp
      obtain ⟨p', hp', hpx'⟩ := hd.passed x (by simp only; omega) (by omega)
      exact habsent p' (mem_of_mem_swapRemove hq hp') hpx'
  · rw [hpend]
    exact fun p hp => mem_of_mem_swapRemove hq (hd.sub p hp)
  · rw [hpend]
    omega

/-- After the release the value still lies ahead exactly when the first missing
one comes before it. -/
theorem FirstMissing.isForward_iff {s : FlowState T} {m sequence : BitVec 32}
    (hm : FirstMissing s m) (hseq : isForward sequence s.expected = true) :
    isForward sequence m = true ↔
      ∃ x, Missing s x ∧ dist s.expected x < dist s.expected sequence := by
  have hs := FlowFrame.isForward_iff.mp hseq
  have hnear := hm.near
  rw [FlowFrame.isForward_iff]
  constructor
  · intro hf
    refine ⟨m, hm.missing, ?_⟩
    by_contra hle
    rcases Nat.lt_or_eq_of_le (Nat.le_of_not_lt hle) with hlt | heq
    · rw [dist_rebase_of_lt hlt] at hf
      omega
    · rw [dist_inj.mp heq, dist_self] at hf
      exact Nat.lt_irrefl _ hf.1
  · rintro ⟨x, hx, hlt⟩
    have hle := hm.least x hx
    have hlt' : dist s.expected m < dist s.expected sequence := Nat.lt_of_le_of_lt hle hlt
    rw [dist_rebase (Nat.le_of_lt hlt')]
    omega

/-! ### One call on its flow -/

/-- The bookkeeping of a flow in hand, with `rest` values pending elsewhere. -/
structure Work.Fits (rest : ℕ) (w : Work T) : Prop where
  bounded : w.state.pending.length ≤ maxPendingPerFlow
  total_eq : w.pendingTotal = w.state.pending.length + rest
  total_le : w.pendingTotal ≤ maxPendingTotal

namespace Work

variable {w : Work T} {rest nowMs : ℕ} {sequence : BitVec 32} {value : T}

theorem Fits.counted (h : w.Fits rest) (op : FlowState T → List T → FlowState T × List T)
    (hop : (op w.state w.output).1.pending.length ≤ w.state.pending.length) :
    (w.counted op).Fits rest := by
  have hb := h.bounded
  have hc := h.total_eq
  have ht := h.total_le
  refine ⟨?_, ?_, ?_⟩ <;> simp only [Work.counted] <;> omega

theorem store_eq (hroom : w.pendingTotal < maxPendingTotal)
    (hfresh : gapExpired nowMs w.state = false) : w.store sequence value nowMs =
      ⟨⟨w.state.expected, some (w.state.gapStartedMs.getD nowMs),
        w.state.pending ++ [⟨sequence, value⟩]⟩, w.pendingTotal + 1, w.output⟩ := by
  obtain ⟨⟨expected, gap, pending⟩, total, output⟩ := w
  have hnot : ¬ maxPendingTotal < total + 1 := Nat.not_lt.mpr hroom
  cases gap with
  | none => simp [store, hnot, Work.counted, releaseExpired, gapExpired, gapReleaseAfterMs]
  | some started =>
    have hlt : ¬ gapReleaseAfterMs ≤ nowMs - started := by simpa [gapExpired] using hfresh
    simp [store, hnot, Work.counted, releaseExpired, gapExpired, hlt]

theorem store_spec (hord : Ordered w.state) (hfits : w.Fits rest)
    (hlen : w.state.pending.length < maxPendingPerFlow)
    (hroom : w.pendingTotal < maxPendingTotal) (hfresh : gapExpired nowMs w.state = false)
    (habsent : Absent w.state sequence) :
    (w.store sequence value nowMs).Fits rest ∧
      (Ordered (w.store sequence value nowMs).state ↔
        isForward sequence w.state.expected = true) := by
  have hc := hfits.total_eq
  rw [store_eq hroom hfresh]
  refine ⟨⟨?_, ?_, hroom⟩, fun h => h.forward _ (List.mem_append_right _ (.head _)), fun h => ?_⟩
  · simpa [Nat.succ_le_iff] using hlen
  · simp only [List.length_append, List.length_singleton]
    omega
  · refine ⟨fun p hp => ?_, ?_⟩
    · rcases List.mem_append.mp hp with hp | hp
      · exact hord.forward p hp
      · rw [List.mem_singleton.mp hp]
        exact h
    · rw [List.map_append, List.nodup_append]
      refine ⟨hord.distinct, List.nodup_singleton _, fun a ha b hb => ?_⟩
      obtain ⟨p, hp, rfl⟩ := List.mem_map.mp ha
      rw [List.mem_singleton.mp hb]
      exact habsent p hp

/-- The two capacity branches: `release_lowest`, then store. -/
theorem release_store_spec (hord : Ordered w.state) (hfits : w.Fits rest)
    (hne : w.state.pending ≠ []) (hforward : isForward sequence w.state.expected = true)
    (habsent : Absent w.state sequence) :
    ((w.counted (releaseLowest nowMs)).store sequence value nowMs).Fits rest ∧
      (Ordered ((w.counted (releaseLowest nowMs)).store sequence value nowMs).state ↔
        ∃ m, Missing w.state m ∧ dist w.state.expected m < dist w.state.expected sequence) := by
  have hrel := releaseLowest_spec hord hne nowMs w.output
  have hlt := hrel.length_lt
  have hfits' := hfits.counted (releaseLowest nowMs) (Nat.le_of_lt hlt)
  have hb := hfits.bounded
  have hc := hfits.total_eq
  have ht := hfits.total_le
  have hc' := hfits'.total_eq
  rw [← hrel.first.isForward_iff hforward]
  refine store_spec hrel.ordered hfits' (Nat.lt_of_lt_of_le hlt hb) ?_ hrel.fresh
    fun p hp => habsent p (hrel.sub p hp)
  have : (w.counted (releaseLowest nowMs)).state.pending.length < w.state.pending.length := hlt
  omega

theorem place_spec (hord : Ordered w.state) (hfits : w.Fits rest)
    (hfresh : gapExpired nowMs w.state = false) :
    (w.place sequence value nowMs).Fits rest ∧
      (Ordered (w.place sequence value nowMs).state ↔
        StoredAhead w.state w.pendingTotal sequence) := by
  have hb := hfits.bounded
  have ht := hfits.total_le
  have hcount := hfits.total_eq
  unfold place
  by_cases hdue : sequence = w.state.expected
  · -- the value leaves, and what waits right behind it
    rw [if_pos hdue]
    have hone : dist w.state.expected (w.state.expected + 1) = 1 := by
      rw [dist_add_one (by simp), dist_self]
    have hd : Drained w.state.expected ⟨w.state.expected + 1, none, w.state.pending⟩
        (drainContiguous ⟨w.state.expected + 1, none, w.state.pending⟩
          (w.output ++ [value])).1 := by
      refine drainLoop_spec _ _ _ _ (Nat.le_refl _) (hone.trans_le (by omega)) ?_ hord.distinct
      intro p hp
      have hpf := isForward_iff.mp (hord.forward p hp)
      exact ⟨hone.trans_le hpf.1, hpf.2⟩
    have hfits' : Fits rest ⟨⟨w.state.expected + 1, none, w.state.pending⟩, w.pendingTotal,
        w.output ++ [value]⟩ := ⟨hb, hcount, ht⟩
    refine ⟨hfits'.counted _ hd.length_le, fun _ hf => ?_, fun _ => ⟨?_, hd.distinct⟩⟩
    · rw [hdue, FlowFrame.isForward_iff, dist_self] at hf
      exact absurd hf.1 (Nat.lt_irrefl _)
    · intro p hp
      have hahead := hd.ahead p hp
      have hpf := isForward_iff.mp (hord.forward p (hd.sub p hp))
      rw [Work.counted, isForward_iff, dist_rebase (Nat.le_of_lt hahead)]
      omega
  rw [if_neg hdue]
  by_cases hdrop : (!isForward sequence w.state.expected
      || w.state.pending.any (·.sequence == sequence)) = true
  · -- a value behind `expected`, or one that waits already, is dropped
    rw [if_pos hdrop]
    refine ⟨hfits, fun _ hf habsent => ?_, fun _ => hord⟩
    rw [hf] at hdrop
    obtain ⟨p, hp, hpe⟩ := List.any_eq_true.mp hdrop
    exact absurd (beq_iff_eq.mp hpe) (habsent p hp)
  rw [if_neg hdrop]
  rw [Bool.or_eq_true, not_or, Bool.not_eq_true', Bool.not_eq_false, List.any_eq_true] at hdrop
  obtain ⟨hforward, hany⟩ := hdrop
  have habsent : Absent w.state sequence := fun p hp heq => hany ⟨p, hp, beq_iff_eq.mpr heq⟩
  by_cases hfull : w.state.pending.length = maxPendingPerFlow
  · -- the release makes room in the table as well, so the second check fails
    have hne : w.state.pending ≠ [] := by
      rintro hnil
      rw [hnil] at hfull
      cases hfull
    have hlt := (releaseLowest_spec hord hne nowMs w.output).length_lt
    have hc' := (hfits.counted (releaseLowest nowMs) (Nat.le_of_lt hlt)).total_eq
    have hlt' : (w.counted (releaseLowest nowMs)).state.pending.length <
      w.state.pending.length := hlt
    have hroom : (w.counted (releaseLowest nowMs)).pendingTotal ≠ maxPendingTotal := by omega
    simp only [if_pos hfull, if_neg hroom]
    refine (release_store_spec hord hfits hne hforward habsent).imp_right fun h => h.trans ?_
    exact ⟨fun hm _ _ _ => hm, fun hm => hm hforward habsent (.inl hfull)⟩
  simp only [if_neg hfull]
  by_cases htotal : w.pendingTotal = maxPendingTotal
  · -- a full table releases from this flow, if it has anything
    rw [if_pos htotal]
    by_cases hnil : w.state.pending = []
    · simp only [hnil, List.isEmpty_nil, if_true]
      refine ⟨⟨Nat.zero_le _, ?_, ht⟩, fun _ _ _ hcap => ?_, fun _ => ⟨nofun, .nil⟩⟩
      · rw [hnil] at hcount
        exact hcount
      · rcases hcap with hcap | ⟨-, hcap⟩
        · exact absurd hcap hfull
        · exact absurd hnil hcap
    · rw [if_neg (by simpa using hnil)]
      refine (release_store_spec hord hfits hnil hforward habsent).imp_right fun h => h.trans ?_
      exact ⟨fun hm _ _ _ => hm, fun hm => hm hforward habsent (.inr ⟨htotal, hnil⟩)⟩
  · rw [if_neg htotal]
    refine (store_spec hord hfits (by omega) (by omega) hfresh habsent).imp_right fun h => ?_
    refine ⟨fun _ _ _ hcap => ?_, fun _ => h.mpr hforward⟩
    rcases hcap with hcap | ⟨hcap, -⟩
    · exact absurd hcap hfull
    · exact absurd hcap htotal

/-- Below both capacities nothing needs to be missing. -/
theorem storedAhead_of_room {s : FlowState T} {pendingTotal : ℕ}
    (h : s.pending = [] ∨
      s.pending.length < maxPendingPerFlow ∧ pendingTotal < maxPendingTotal) :
    StoredAhead s pendingTotal sequence := by
  rintro - - (hfull | ⟨htotal, hne⟩)
  · rcases h with hnil | ⟨hlen, -⟩
    · rw [hnil] at hfull
      cases hfull
    · omega
  · rcases h with hnil | ⟨-, hroom⟩
    · exact absurd hnil hne
    · omega

theorem push_spec (sequence : BitVec 32) (value : T) (nowMs : ℕ) (hord : Ordered w.state)
    (hfits : w.Fits rest) :
    (w.push sequence value nowMs).Fits rest ∧
      (Ordered (w.push sequence value nowMs).state ↔
        (gapExpired nowMs w.state = false → StoredAhead w.state w.pendingTotal sequence)) := by
  unfold push
  cases hexp : gapExpired nowMs w.state with
  | false =>
    have hsame : w.counted (releaseExpired nowMs) = w := by
      simp [Work.counted, releaseExpired, hexp]
    rw [hsame]
    exact (place_spec hord hfits hexp).imp_right fun h => h.trans ⟨fun h _ => h, fun h => h rfl⟩
  | true =>
    have hop : releaseExpired nowMs w.state w.output = releaseLowest nowMs w.state w.output :=
      if_pos hexp
    -- after a release there is room, so the value is stored ahead
    suffices h : Ordered (w.counted (releaseExpired nowMs)).state ∧
        (w.counted (releaseExpired nowMs)).Fits rest ∧
        gapExpired nowMs (w.counted (releaseExpired nowMs)).state = false ∧
        StoredAhead (w.counted (releaseExpired nowMs)).state
          (w.counted (releaseExpired nowMs)).pendingTotal sequence by
      obtain ⟨hord', hfits', hfresh, hahead⟩ := h
      refine (place_spec hord' hfits' hfresh).imp_right fun h => ?_
      exact h.trans ⟨fun _ hf => (Bool.noConfusion hf), fun _ => hahead⟩
    by_cases hne : w.state.pending = []
    · have hstate : (releaseExpired nowMs w.state w.output).1 =
          { w.state with gapStartedMs := none } := by
        simp [hop, releaseLowest, lowest, hne]
      refine ⟨?_, hfits.counted _ (by rw [hstate]), ?_, storedAhead_of_room (.inl ?_)⟩
      · rw [Work.counted, hstate]
        exact ⟨hord.forward, hord.distinct⟩
      · rw [Work.counted, hstate]
        rfl
      · rw [Work.counted, hstate]
        exact hne
    · have hrel := releaseLowest_spec hord hne nowMs w.output
      rw [← hop] at hrel
      have hlt := hrel.length_lt
      have hfits' := hfits.counted _ (Nat.le_of_lt hlt)
      have hb := hfits.bounded
      have ht := hfits.total_le
      have hc := hfits.total_eq
      have hc' := hfits'.total_eq
      have hlt' : (w.counted (releaseExpired nowMs)).state.pending.length <
        w.state.pending.length := hlt
      exact ⟨hrel.ordered, hfits', hrel.fresh, storedAhead_of_room (.inr ⟨by omega, by omega⟩)⟩

end Work

/-! ### The whole table -/

theorem flow_makeRoom (r : FlowReassembler T) (key : ReassemblyKey) :
    (r.makeRoom key).flow key = r.flow key := by
  unfold FlowReassembler.makeRoom
  split
  case isTrue h =>
    rw [FlowReassembler.flow, FlowReassembler.flow, AList.lookup_eq_none.mpr h.2]
    rfl
  case isFalse => rfl

theorem Reordered.new : Reordered (FlowReassembler.new : FlowReassembler T) :=
  ⟨fun _ _ h => by simp [FlowReassembler.new] at h, fun _ _ h => by simp [FlowReassembler.new] at h,
    rfl, Nat.zero_le _⟩

theorem Reordered.makeRoom {r : FlowReassembler T} (h : Reordered r) (key : ReassemblyKey) :
    Reordered (r.makeRoom key) := by
  unfold FlowReassembler.makeRoom
  split
  · exact Reordered.new
  · exact h

theorem storedAhead_makeRoom {r : FlowReassembler T} {key : ReassemblyKey}
    {sequence : BitVec 32} :
    StoredAhead (r.flow key) (r.makeRoom key).pendingTotal sequence ↔
      StoredAhead (r.flow key) r.pendingTotal sequence := by
  unfold FlowReassembler.makeRoom
  split
  case isTrue h =>
    have hnil : (r.flow key).pending = [] := by
      rw [FlowReassembler.flow, AList.lookup_eq_none.mpr h.2]
      rfl
    exact ⟨fun _ => Work.storedAhead_of_room (.inl hnil),
      fun _ => Work.storedAhead_of_room (.inl hnil)⟩
  case isFalse => exact Iff.rfl

/-- Putting a flow back: only its own order is in question. -/
theorem Reordered.insert_iff {r : FlowReassembler T} (h : Reordered r) {key : ReassemblyKey}
    {w : Work T} (hfits : w.Fits (total (fun s => s.pending.length) (r.flows.erase key))) :
    Reordered ⟨r.flows.insert key w.state, w.pendingTotal⟩ ↔ Ordered w.state := by
  refine ⟨fun hr => hr.ordered key _ (AList.lookup_insert _), fun hord => ⟨?_, ?_, ?_, ?_⟩⟩
  · intro key' state hs
    by_cases hk : key' = key
    · subst hk
      rw [AList.lookup_insert, Option.some_inj] at hs
      exact hs ▸ hord
    · rw [AList.lookup_insert_ne hk] at hs
      exact h.ordered key' state hs
  · intro key' state hs
    by_cases hk : key' = key
    · subst hk
      rw [AList.lookup_insert, Option.some_inj] at hs
      exact hs ▸ hfits.bounded
    · rw [AList.lookup_insert_ne hk] at hs
      exact h.bounded key' state hs
  · rw [total_insert]
    exact hfits.total_eq
  · exact hfits.total_le

theorem Reordered.flow {r : FlowReassembler T} (h : Reordered r) (key : ReassemblyKey) :
    Ordered (r.flow key) ∧ (r.flow key).pending.length ≤ maxPendingPerFlow := by
  unfold FlowReassembler.flow
  cases hl : r.flows.lookup key with
  | none => exact ⟨⟨nofun, .nil⟩, Nat.zero_le _⟩
  | some state => exact ⟨h.ordered _ _ hl, h.bounded _ _ hl⟩

/-- The flow in hand at the start of a call. -/
theorem Reordered.fits {r : FlowReassembler T} (h : Reordered r) (key : ReassemblyKey)
    (output : List T) :
    Work.Fits (total (fun s => s.pending.length) ((r.makeRoom key).flows.erase key))
      ⟨r.flow key, (r.makeRoom key).pendingTotal, output⟩ := by
  have hroom := h.makeRoom key
  have htotal := hroom.counted.trans (total_eq_add_erase _ _ key (d := FlowState.new) rfl)
  refine ⟨(h.flow key).2, ?_, hroom.total_le⟩
  rw [← flow_makeRoom r key]
  exact htotal

theorem Reordered.step_iff {r r' : FlowReassembler T} {p : Push T} (h : Reordered r)
    (hstep : step r p = some r') : Reordered r' ↔ StaysAhead r p := by
  obtain rfl := Option.some_inj.mp hstep
  have hroom := h.makeRoom p.header.key
  have hflow := flow_makeRoom r p.header.key
  obtain ⟨hfits', hiff⟩ := Work.push_spec p.header.sequence p.value p.nowMs
    (h.flow p.header.key).1 (h.fits p.header.key p.output)
  rw [FlowReassembler.pushAt, hflow]
  refine (hroom.insert_iff hfits').trans (hiff.trans ?_)
  simp only [StaysAhead, storedAhead_makeRoom]

/-- The reorder invariant holds along a run exactly when every push of it stays
ahead. -/
theorem reordered_iff (pushes : List (Push T)) :
    Always step Reordered FlowReassembler.new pushes ↔
      Admits step StaysAhead FlowReassembler.new pushes :=
  always_iff_admits (Q := fun _ => True) (fun _ _ _ _ _ => trivial)
    (fun _ _ _ _ hr hstep => hr.step_iff hstep) trivial Reordered.new

/-- Sequence numbers 2 to 98 of one flow, all at the same time. -/
def ninetySevenAhead : List (Push ℕ) :=
  (List.range 97).map fun i => ⟨⟨17, 23, BitVec.ofNat 32 (i + 2)⟩, i, 0, []⟩

theorem full_flow_strands :
    ∃ r, run step FlowReassembler.new ninetySevenAhead = some r ∧ ¬ Reordered r := by
  -- the flow ends with 98 expected and 98 pending
  have hrun : (run step FlowReassembler.new ninetySevenAhead).any (fun r =>
      (r.flows.lookup ⟨17, 23⟩).any fun s =>
        s.pending.any fun p => !isForward p.sequence s.expected) = true := by
    decide +kernel
  obtain ⟨r, hr, hflow⟩ := (Option.any_eq_true ..).mp hrun
  obtain ⟨s, hs, hany⟩ := (Option.any_eq_true ..).mp hflow
  obtain ⟨p, hp, hback⟩ := List.any_eq_true.mp hany
  refine ⟨r, hr, fun h => ?_⟩
  rw [(h.ordered _ s hs).forward p hp] at hback
  cases hback

end Csqtt.FlowFrame
