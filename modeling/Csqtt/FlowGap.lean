/-
The clock of a flow's gap, and exactly when it runs.

A value that waits is released by the first push once its gap has aged, if the
gap's clock was started.  `push_at` starts it when it stores a value and
`release_lowest` when it leaves values behind; the branch of a value that is due
stops it and drains up to the next hole, without a look at what still waits
there.

* `in_order_unarmed` — 2, then 0: the 2 waits for the 1 and no clock runs;
* `gap_timely_iff` — on runs that keep the reorder invariant, a clock runs and
  releases in time all along exactly when each value that is due closes the last
  hole of its flow (`FillsLastHole`).

`Clocked` is the invariant behind it: the clock of a flow that has something
pending shows when `expected` last moved or the first value began to wait.
-/
import Csqtt.FlowEmission
import Csqtt.FlowReorder

open Containers SerialNumber Transition

namespace Csqtt.FlowFrame

variable {T : Type*} {s : FlowState T} {nowMs t : ℕ} {sequence : BitVec 32} {output : List T}

/-! ### The clock of a flow -/

/-- Something waits only while the gap's clock runs. -/
def Armed (s : FlowState T) : Prop := s.pending ≠ [] → s.gapStartedMs.isSome = true

/-- The clock shows `t` while something waits, and stands still otherwise. -/
structure Clocked (t : ℕ) (s : FlowState T) : Prop where
  idle : s.pending = [] → s.gapStartedMs = none
  waiting : s.pending ≠ [] → s.gapStartedMs = some t

theorem Clocked.armed (h : Clocked t s) : Armed s := fun hne => by
  rw [h.waiting hne]
  rfl

theorem Clocked.new (t : ℕ) : Clocked t (FlowState.new : FlowState T) :=
  ⟨fun _ => rfl, fun h => absurd rfl h⟩

theorem Clocked.pending_ne_nil (h : Clocked t s) (hexp : gapExpired nowMs s = true) :
    s.pending ≠ [] := by
  intro hnil
  rw [gapExpired, h.idle hnil] at hexp
  exact Bool.noConfusion hexp

/-- A number that is still missing below a pending value. -/
def Hole (s : FlowState T) (m : BitVec 32) : Prop :=
  Absent s m ∧ ∃ p ∈ s.pending, dist s.expected m < dist s.expected p.sequence

/-- Below the next number there is only one. -/
theorem Hole.eq_expected {m : BitVec 32} (h : Hole s m)
    (hnext : ∀ p ∈ s.pending, p.sequence = s.expected + 1) : m = s.expected := by
  obtain ⟨-, p, hp, hlt⟩ := h
  have hone : dist s.expected (s.expected + 1) = 1 := by
    rw [dist_add_one (by simp), SerialNumber.dist_self]
  rw [hnext p hp, hone] at hlt
  by_contra hne
  have hpos := SerialNumber.dist_pos.mpr hne
  omega

/-- If the value is the one that is due, it closes the last hole.  Once the gap has
aged, the first missing number behind the lowest pending value is due, and the holes
before that value are given up. -/
def FillsLastHole (s : FlowState T) (nowMs : ℕ) (sequence : BitVec 32) : Prop :=
  if gapExpired nowMs s then
    FirstMissing s sequence → ∀ m, Hole s m → Missing s m → m = sequence
  else sequence = s.expected → ∀ m, Hole s m → m = sequence

/-! ### What is left after a drain or a release -/

/-- After the value at `expected` has left, the drain leaves nothing exactly when
there was no further hole. -/
theorem drain_nil_iff (h : Ordered s) (output : List T) :
    (drainContiguous ⟨s.expected + 1, none, s.pending⟩ output).1.pending = [] ↔
      ∀ m, Hole s m → m = s.expected := by
  have hone : dist s.expected (s.expected + 1) = 1 := by
    rw [dist_add_one (by simp), SerialNumber.dist_self]
  have hd : Drained s.expected ⟨s.expected + 1, none, s.pending⟩
      (drainContiguous ⟨s.expected + 1, none, s.pending⟩ output).1 := by
    refine drainLoop_spec _ _ _ _ (Nat.le_refl _) (hone.trans_le (by omega)) ?_ h.distinct
    intro p hp
    have hpf := isForward_iff.mp (h.forward p hp)
    exact ⟨hone.trans_le hpf.1, hpf.2⟩
  generalize (drainContiguous ⟨s.expected + 1, none, s.pending⟩ output).1 = d at hd ⊢
  have hle := hd.le
  simp only [hone] at hle
  constructor
  · rintro hnil m ⟨habsent, p, hp, hlt⟩
    by_contra hne
    have hpos := SerialNumber.dist_pos.mpr hne
    have hpast : dist s.expected p.sequence < dist s.expected d.expected := by
      refine (hd.rest p hp).resolve_left ?_
      rw [hnil]
      exact List.not_mem_nil
    obtain ⟨q, hq, hqm⟩ := hd.passed m (by simp only [hone]; omega) (by omega)
    exact habsent q hq hqm
  · intro hholes
    rw [List.eq_nil_iff_forall_not_mem]
    intro p hp
    -- where the drain stopped is a hole
    have hlt := hd.ahead p hp
    have habsent : Absent s d.expected := by
      intro q hq heq
      rcases hd.rest q hq with hq' | hq'
      · have := hd.ahead q hq'
        rw [heq] at this
        exact Nat.lt_irrefl _ this
      · rw [heq] at hq'
        exact Nat.lt_irrefl _ hq'
    have heq := hholes d.expected ⟨habsent, p, hd.sub p hp, hlt⟩
    rw [heq, SerialNumber.dist_self] at hle
    omega

/-- What a release keeps pending, and the clock it leaves. -/
theorem releaseLowest_leaves (h : Ordered s) (hne : s.pending ≠ []) (nowMs : ℕ)
    (output : List T) :
    Clocked nowMs (releaseLowest nowMs s output).1 ∧
      ∀ p ∈ s.pending, p ∈ (releaseLowest nowMs s output).1.pending ∨
        dist s.expected p.sequence < dist s.expected (releaseLowest nowMs s output).1.expected := by
  obtain ⟨q, i, hlow, hq, hmin⟩ := lowest_spec h hne
  have hd := lowest_drained h hq hmin (output ++ [q.value])
  rw [releaseLowest_of_some hlow nowMs output rfl]
  generalize (drainContiguous ⟨q.sequence + 1, none, swapRemove s.pending i⟩
    (output ++ [q.value])) = d at hd ⊢
  refine ⟨⟨fun hnil => ?_, fun hne => ?_⟩, fun p hp => ?_⟩
  · exact if_pos (List.isEmpty_iff.mpr hnil)
  · exact if_neg (mt List.isEmpty_iff.mp hne)
  · have hqf := isForward_iff.mp (h.forward q (List.mem_of_getElem? hq))
    have hnext : dist s.expected (q.sequence + 1) = dist s.expected q.sequence + 1 :=
      dist_add_one (by omega)
    have hle := hd.le
    simp only at hle ⊢
    rcases List.mem_cons.mp ((cons_swapRemove_perm hq).symm.subset hp) with rfl | hp
    · exact .inr (by omega)
    · exact hd.rest p hp

/-- The holes of a flow after a release are those behind its first missing number. -/
theorem hole_release_iff (h : Ordered s) (hne : s.pending ≠ []) (m : BitVec 32) :
    Hole (releaseLowest nowMs s output).1 m ↔ Hole s m ∧ Missing s m := by
  have hrel := releaseLowest_spec h hne nowMs output
  have hrest := (releaseLowest_leaves h hne nowMs output).2
  generalize (releaseLowest nowMs s output).1 = s' at hrel hrest ⊢
  have hnear := hrel.first.near
  have hahead : ∀ p ∈ s'.pending, dist s.expected s'.expected < dist s.expected p.sequence := by
    intro p hp
    by_contra hle
    have hpf := isForward_iff.mp (hrel.ordered.forward p hp)
    have hsf := isForward_iff.mp (h.forward p (hrel.sub p hp))
    rcases Nat.lt_or_eq_of_le (Nat.le_of_not_lt hle) with hlt | heq
    · rw [dist_rebase_of_lt hlt] at hpf
      omega
    · rw [dist_inj.mp heq, SerialNumber.dist_self] at hpf
      exact Nat.lt_irrefl _ hpf.1
  constructor
  · rintro ⟨habsent, p, hp, hlt⟩
    have hpa := hahead p hp
    have hpf := isForward_iff.mp (hrel.ordered.forward p hp)
    have hbehind : dist s.expected s'.expected ≤ dist s.expected m := by
      by_contra hlt'
      rw [dist_rebase_of_lt (Nat.lt_of_not_le hlt')] at hlt
      omega
    rw [dist_rebase hbehind, dist_rebase (Nat.le_of_lt hpa)] at hlt
    have habsent' : Absent s m := by
      intro q hq heq
      rcases hrest q hq with hq' | hq'
      · exact habsent q hq' heq
      · rw [heq] at hq'
        omega
    obtain ⟨q, hq, hqlt⟩ := hrel.first.missing.2
    exact ⟨⟨habsent', p, hrel.sub p hp, by omega⟩, habsent', q, hq, by omega⟩
  · rintro ⟨⟨habsent, p, hp, hlt⟩, hmissing⟩
    have hle := hrel.first.least m hmissing
    have hp' : p ∈ s'.pending := (hrest p hp).resolve_right (by omega)
    have hpa := hahead p hp'
    refine ⟨fun q hq => habsent q (hrel.sub q hq), p, hp', ?_⟩
    rw [dist_rebase hle, dist_rebase (Nat.le_of_lt hpa)]
    omega

theorem FirstMissing.eq {m n : BitVec 32} (hm : FirstMissing s m) (hn : FirstMissing s n) :
    m = n :=
  dist_inj.mp (Nat.le_antisymm (hm.least n hn.missing) (hn.least m hm.missing))

/-! ### One call on its flow -/

/-- What the call leaves of a flow for which the value was not due. -/
inductive Placed (nowMs : ℕ) (s s' : FlowState T) : Prop
  | kept (same : s' = s)
  | stored (expected : s'.expected = s.expected) (pending : s'.pending ≠ [])
      (gap : s'.gapStartedMs = some (s.gapStartedMs.getD nowMs))
  | passed (before : s.pending = []) (pending : s'.pending = []) (gap : s'.gapStartedMs = none)
  | released (expected : s'.expected ≠ s.expected) (pending : s'.pending ≠ [])
      (gap : s'.gapStartedMs = some nowMs)

namespace Work

variable {w : Work T} {rest : ℕ} {value : T}

/-- Below both capacities nothing leaves. -/
theorem place_of_room (value : T) (hfresh : gapExpired nowMs w.state = false)
    (hlen : w.state.pending.length < maxPendingPerFlow) (hroom : w.pendingTotal < maxPendingTotal)
    (hdue : sequence ≠ w.state.expected) :
    (w.place sequence value nowMs).state = w.state ∨
      (w.place sequence value nowMs).state =
        ⟨w.state.expected, some (w.state.gapStartedMs.getD nowMs),
          w.state.pending ++ [⟨sequence, value⟩]⟩ := by
  rw [place, if_neg hdue]
  split
  case isTrue => exact .inl rfl
  case isFalse =>
    right
    simp only [if_neg (Nat.ne_of_lt hlen), if_neg (Nat.ne_of_lt hroom), store_eq hroom hfresh]

/-- The two capacity branches: the lowest gap is released at this very moment. -/
theorem release_store_placed (hord : Ordered w.state) (hfits : w.Fits rest)
    (hne : w.state.pending ≠ []) :
    Placed nowMs w.state ((w.counted (releaseLowest nowMs)).store sequence value nowMs).state := by
  have hrel := releaseLowest_spec hord hne nowMs w.output
  obtain ⟨hclk, -⟩ := releaseLowest_leaves hord hne nowMs w.output
  have hlt := hrel.length_lt
  have hfits' := hfits.counted (releaseLowest nowMs) (Nat.le_of_lt hlt)
  have hc := hfits.total_eq
  have hc' := hfits'.total_eq
  have ht := hfits.total_le
  have hlen : (w.counted (releaseLowest nowMs)).state.pending.length < w.state.pending.length :=
    hlt
  rw [store_eq (by omega) hrel.fresh]
  refine .released ?_ (by simp) ?_
  · intro heq
    obtain ⟨p, -, hp⟩ := hrel.first.missing.2
    rw [show (releaseLowest nowMs w.state w.output).1.expected = w.state.expected from heq,
      SerialNumber.dist_self] at hp
    exact Nat.not_lt_zero _ hp
  · simp only [Work.counted]
    cases hgap : (releaseLowest nowMs w.state w.output).1.gapStartedMs with
    | none => rfl
    | some started =>
      have hne' : (releaseLowest nowMs w.state w.output).1.pending ≠ [] := by
        intro hnil
        rw [hclk.idle hnil] at hgap
        cases hgap
      rw [← hgap, hclk.waiting hne']
      rfl

theorem place_placed (value : T) (hord : Ordered w.state) (hfits : w.Fits rest)
    (hfresh : gapExpired nowMs w.state = false) (hdue : sequence ≠ w.state.expected) :
    Placed nowMs w.state (w.place sequence value nowMs).state := by
  have hb := hfits.bounded
  have hc := hfits.total_eq
  have ht := hfits.total_le
  by_cases hroom : w.state.pending.length < maxPendingPerFlow ∧ w.pendingTotal < maxPendingTotal
  · rcases place_of_room value hfresh hroom.1 hroom.2 hdue with heq | heq
    · exact .kept heq
    · rw [heq]
      exact .stored rfl (by simp) rfl
  rw [place, if_neg hdue]
  split
  case isTrue => exact .kept rfl
  case isFalse =>
    by_cases hfull : w.state.pending.length = maxPendingPerFlow
    · have hne : w.state.pending ≠ [] := by
        rintro hnil
        rw [hnil] at hfull
        cases hfull
      have hlt := (releaseLowest_spec hord hne nowMs w.output).length_lt
      have hc' := (hfits.counted (releaseLowest nowMs) (Nat.le_of_lt hlt)).total_eq
      have hlt' : (w.counted (releaseLowest nowMs)).state.pending.length <
        w.state.pending.length := hlt
      have htotal : (w.counted (releaseLowest nowMs)).pendingTotal ≠ maxPendingTotal := by omega
      simp only [if_pos hfull, if_neg htotal]
      exact release_store_placed hord hfits hne
    · have htotal : w.pendingTotal = maxPendingTotal := by omega
      simp only [if_neg hfull, if_pos htotal]
      by_cases hnil : w.state.pending = []
      · simp only [hnil, List.isEmpty_nil, if_true]
        exact .passed hnil rfl rfl
      · rw [if_neg (by simpa using hnil)]
        exact release_store_placed hord hfits hnil

end Work

/-- When `expected` last moved or the first value began to wait, if it was at `t`
before the call. -/
def stalledSince (nowMs t : ℕ) (s s' : FlowState T) : ℕ :=
  if s'.expected ≠ s.expected ∨ s.pending = [] then nowMs else t

theorem Placed.clocked {s' : FlowState T} (hclk : Clocked t s) (h : Placed nowMs s s') :
    Clocked (stalledSince nowMs t s s') s' := by
  unfold stalledSince
  cases h with
  | kept same =>
    subst same
    refine ⟨hclk.idle, fun hne => ?_⟩
    rw [if_neg (by simp [hne])]
    exact hclk.waiting hne
  | stored expected pending gap =>
    refine ⟨fun hnil => absurd hnil pending, fun _ => ?_⟩
    by_cases hnil : s.pending = []
    · rw [if_pos (.inr hnil), gap, hclk.idle hnil]
      rfl
    · rw [if_neg (by simp [expected, hnil]), gap, hclk.waiting hnil]
      rfl
  | passed before pending gap => exact ⟨fun _ => gap, fun hne => absurd pending hne⟩
  | released expected pending gap =>
    refine ⟨fun hnil => absurd hnil pending, fun _ => ?_⟩
    rw [if_pos (.inl expected), gap]

namespace Work

variable {w : Work T} {rest : ℕ} {value : T}

/-- A value that is due stops the clock. -/
theorem place_due (hord : Ordered w.state) (nowMs : ℕ) (value : T) :
    (w.place w.state.expected value nowMs).state.gapStartedMs = none ∧
      ((w.place w.state.expected value nowMs).state.pending = [] ↔
        ∀ m, Hole w.state m → m = w.state.expected) := by
  rw [place, if_pos rfl]
  exact ⟨drainLoop_gap .., drain_nil_iff hord _⟩

theorem armed_iff_nil (h : s.gapStartedMs = none) : Armed s ↔ s.pending = [] := by
  simp [Armed, h]

theorem push_clocked (sequence : BitVec 32) (nowMs : ℕ) (value : T) (hord : Ordered w.state)
    (hfits : w.Fits rest) (hclk : Clocked t w.state) :
    (Armed (w.push sequence value nowMs).state ↔ FillsLastHole w.state nowMs sequence) ∧
      (FillsLastHole w.state nowMs sequence →
        Clocked (stalledSince nowMs t w.state (w.push sequence value nowMs).state)
          (w.push sequence value nowMs).state) := by
  unfold push FillsLastHole
  cases hexp : gapExpired nowMs w.state with
  | false =>
    have hsame : w.counted (releaseExpired nowMs) = w := by
      simp [Work.counted, releaseExpired, hexp]
    rw [hsame, if_neg Bool.false_ne_true]
    by_cases hdue : sequence = w.state.expected
    · subst hdue
      obtain ⟨hgap, hnil⟩ := place_due hord nowMs value
      refine ⟨(armed_iff_nil hgap).trans (hnil.trans ⟨fun h _ => h, fun h => h rfl⟩), fun h => ?_⟩
      exact ⟨fun _ => hgap, fun hne => absurd (hnil.mpr (h rfl)) hne⟩
    · have hclk' := (place_placed value hord hfits hexp hdue).clocked hclk
      exact ⟨⟨fun _ h => absurd h hdue, fun _ => hclk'.armed⟩, fun _ => hclk'⟩
  | true =>
    rw [if_pos rfl]
    have hne := hclk.pending_ne_nil hexp
    have hop : w.counted (releaseExpired nowMs) = w.counted (releaseLowest nowMs) := by
      simp [Work.counted, releaseExpired, hexp]
    have hrel := releaseLowest_spec hord hne nowMs w.output
    have hholes : ∀ m, Hole (releaseLowest nowMs w.state w.output).1 m ↔
      Hole w.state m ∧ Missing w.state m := hole_release_iff hord hne
    obtain ⟨hclk₁, -⟩ := releaseLowest_leaves hord hne nowMs w.output
    have hlt := hrel.length_lt
    have hfits' := hfits.counted (releaseLowest nowMs) (Nat.le_of_lt hlt)
    have hb := hfits.bounded
    have hc := hfits.total_eq
    have ht := hfits.total_le
    have hc' := hfits'.total_eq
    -- the value is now placed in the flow as the release has left it
    have hstate : (w.counted (releaseLowest nowMs)).state =
      (releaseLowest nowMs w.state w.output).1 := rfl
    rw [hop]
    rw [← hstate] at hrel hholes hclk₁ hlt
    generalize w.counted (releaseLowest nowMs) = v at *
    by_cases hdue : sequence = v.state.expected
    · subst hdue
      obtain ⟨hgap, hnil⟩ := place_due hrel.ordered nowMs value
      have hfills : (∀ m, Hole v.state m → m = v.state.expected) ↔
          (FirstMissing w.state v.state.expected →
            ∀ m, Hole w.state m → Missing w.state m → m = v.state.expected) := by
        constructor
        · intro h _ m hm hmm
          exact h m ((hholes m).mpr ⟨hm, hmm⟩)
        · intro h m hm
          obtain ⟨hm, hmm⟩ := (hholes m).mp hm
          exact h hrel.first m hm hmm
      refine ⟨(armed_iff_nil hgap).trans (hnil.trans hfills), fun h => ?_⟩
      exact ⟨fun _ => hgap, fun hne => absurd (hnil.mpr (hfills.mpr h)) hne⟩
    · have hmoved : v.state.expected ≠ w.state.expected := by
        intro heq
        obtain ⟨p, -, hp⟩ := hrel.first.missing.2
        rw [heq, SerialNumber.dist_self] at hp
        exact Nat.not_lt_zero _ hp
      have hroom := place_of_room value hrel.fresh (by omega) (by omega) hdue
      suffices hclk' : Clocked (stalledSince nowMs t w.state (v.place sequence value nowMs).state)
          (v.place sequence value nowMs).state from
        ⟨⟨fun _ h => absurd (h.eq hrel.first) hdue, fun _ => hclk'.armed⟩, fun _ => hclk'⟩
      have hexpected : (v.place sequence value nowMs).state.expected = v.state.expected := by
        rcases hroom with heq | heq <;> rw [heq]
      have hnow : stalledSince nowMs t w.state (v.place sequence value nowMs).state = nowMs :=
        if_pos (.inl (by rw [hexpected]; exact hmoved))
      have hagain := (place_placed value hrel.ordered hfits' hrel.fresh hdue).clocked hclk₁
      rw [hnow]
      unfold stalledSince at hagain
      rwa [ite_self] at hagain

end Work

/-! ### What a call hands over first -/

theorem drainLoop_appends (fuel : ℕ) : ∀ (s : FlowState T) (output : List T),
    output <+: (drainLoop fuel s output).2 := by
  induction fuel with
  | zero => exact fun _ output => List.prefix_refl output
  | succ fuel ih =>
    intro s output
    rw [drainLoop]
    split
    case h_1 => exact List.prefix_refl output
    case h_2 q _ _ => exact (List.prefix_append output [q.value]).trans (ih _ _)

theorem releaseLowest_appends (nowMs : ℕ) (s : FlowState T) (output : List T) :
    output <+: (releaseLowest nowMs s output).2 := by
  cases hl : lowest s with
  | none => rw [releaseLowest_of_none hl]
  | some q =>
    rw [releaseLowest_of_some hl nowMs output rfl]
    exact (List.prefix_append output _).trans (drainLoop_appends _ _ _)

theorem releaseExpired_appends (nowMs : ℕ) (s : FlowState T) (output : List T) :
    output <+: (releaseExpired nowMs s output).2 := by
  rw [releaseExpired]
  split
  · exact releaseLowest_appends nowMs s output
  · exact List.prefix_refl output

/-- The first value that a release hands over is the nearest one. -/
theorem releaseLowest_first (h : Ordered s) (hne : s.pending ≠ []) (nowMs : ℕ)
    (output : List T) : ∃ q ∈ s.pending,
      (∀ p ∈ s.pending, dist s.expected q.sequence ≤ dist s.expected p.sequence) ∧
        output ++ [q.value] <+: (releaseLowest nowMs s output).2 := by
  obtain ⟨q, i, hlow, hq, hmin⟩ := lowest_spec h hne
  refine ⟨q, List.mem_of_getElem? hq, hmin, ?_⟩
  rw [releaseLowest_of_some hlow nowMs output rfl]
  exact drainLoop_appends _ _ _

namespace Work

variable (sequence : BitVec 32) (value : T) (nowMs : ℕ) (w : Work T)

theorem store_appends : w.output <+: (w.store sequence value nowMs).output := by
  rw [store_eq_steps]
  refine List.IsPrefix.trans ?_ (releaseExpired_appends ..)
  change w.output <+: ((w.joined sequence value).relieved nowMs).output
  unfold relieved
  split
  · exact releaseLowest_appends nowMs _ w.output
  · exact List.prefix_refl w.output

theorem place_appends : w.output <+: (w.place sequence value nowMs).output := by
  have hstored := (releaseLowest_appends nowMs w.state w.output).trans
    (store_appends sequence value nowMs (w.counted (releaseLowest nowMs)))
  unfold place
  split
  · exact (List.prefix_append w.output [value]).trans (drainLoop_appends _ _ _)
  split
  · exact List.prefix_refl w.output
  by_cases hfull : w.state.pending.length = maxPendingPerFlow
  · simp only [if_pos hfull]
    have hrel := releaseLowest_appends nowMs w.state w.output
    split
    · split
      · exact hrel.trans (List.prefix_append _ [value])
      · refine (hrel.trans ?_).trans (store_appends ..)
        exact releaseLowest_appends nowMs (w.counted (releaseLowest nowMs)).state _
    · exact hstored
  · simp only [if_neg hfull]
    split
    · split
      · exact List.prefix_append w.output [value]
      · exact hstored
    · exact store_appends sequence value nowMs w

end Work

/-! ### The whole table -/

/-- The record beside the table: since when each flow stands still. -/
def note (r : FlowReassembler T) (since : ReassemblyKey → ℕ) (p : Push T) : ReassemblyKey → ℕ :=
  Function.update since p.header.key
    (stalledSince p.nowMs (since p.header.key) (r.flow p.header.key)
      ((r.pushAt p.header p.value p.nowMs p.output).1.flow p.header.key))

/-- The table with its record, before the first call. -/
def fresh : FlowReassembler T × (ReassemblyKey → ℕ) := (FlowReassembler.new, fun _ => 0)

/-- A clock runs wherever something waits; and once a flow has stood still for
`GAP_RELEASE_AFTER_MS`, its next push first of all hands over the nearest value. -/
structure Timely (x : FlowReassembler T × (ReassemblyKey → ℕ)) : Prop where
  armed : ∀ key state, x.1.flows.lookup key = some state → Armed state
  prompt : ∀ (p : Push T) (state : FlowState T),
    x.1.flows.lookup p.header.key = some state → state.pending ≠ [] →
      x.2 p.header.key + gapReleaseAfterMs ≤ p.nowMs →
        ∃ q ∈ state.pending,
          (∀ e ∈ state.pending, dist state.expected q.sequence ≤ dist state.expected e.sequence) ∧
            p.output ++ [q.value] <+: (x.1.pushAt p.header p.value p.nowMs p.output).2

/-- Every flow's clock shows what the record says. -/
def Recorded (x : FlowReassembler T × (ReassemblyKey → ℕ)) : Prop :=
  ∀ key, Clocked (x.2 key) (x.1.flow key)

theorem Recorded.fresh : Recorded (fresh : FlowReassembler T × (ReassemblyKey → ℕ)) :=
  fun _ => Clocked.new 0

theorem flow_of_lookup {r : FlowReassembler T} {key : ReassemblyKey}
    (h : r.flows.lookup key = some s) : r.flow key = s := by
  rw [FlowReassembler.flow, h, Option.getD_some]

/-- The clock that has been running is what makes the next push release. -/
theorem Recorded.timely {x : FlowReassembler T × (ReassemblyKey → ℕ)} (h : Recorded x)
    (hr : Reordered x.1) : Timely x := by
  refine ⟨fun key state hl => ?_, fun p state hl hne hsince => ?_⟩
  · have hclk := h key
    rw [flow_of_lookup hl] at hclk
    exact hclk.armed
  · have hclk := h p.header.key
    have hflow := flow_of_lookup hl
    rw [hflow] at hclk
    have hroom : x.1.makeRoom p.header.key = x.1 := by
      refine if_neg fun hfull => ?_
      rw [← AList.lookup_eq_none, hl] at hfull
      exact Option.some_ne_none _ hfull.2
    have hexp : gapExpired p.nowMs state = true := by
      rw [gapExpired, hclk.waiting hne, Option.any_some, decide_eq_true_eq]
      omega
    obtain ⟨q, hq, hmin, hfirst⟩ := releaseLowest_first (hr.ordered _ _ hl) hne p.nowMs p.output
    refine ⟨q, hq, hmin, hfirst.trans ?_⟩
    rw [FlowReassembler.pushAt, hroom, hflow]
    refine List.IsPrefix.trans ?_ (Work.place_appends ..)
    rw [Work.counted, releaseExpired, if_pos hexp]

/-- The step with the record. -/
abbrev watched : FlowReassembler T × (ReassemblyKey → ℕ) → Push T →
    Option (FlowReassembler T × (ReassemblyKey → ℕ)) :=
  recording step note

/-- The flows after a call: the one in hand, and the others as they were or, if the
table has been cleared, forgotten. -/
theorem flow_pushAt (r : FlowReassembler T) (p : Push T) (key : ReassemblyKey) :
    (r.pushAt p.header p.value p.nowMs p.output).1.flow key =
      if key = p.header.key then
        (Work.push p.header.sequence p.value p.nowMs
          ⟨r.flow p.header.key, (r.makeRoom p.header.key).pendingTotal, p.output⟩).state
      else (r.makeRoom p.header.key).flow key := by
  rw [FlowReassembler.pushAt, flow_makeRoom, flow_insert]
  rfl

theorem Recorded.makeRoom {x : FlowReassembler T × (ReassemblyKey → ℕ)} (h : Recorded x)
    (key key' : ReassemblyKey) : Clocked (x.2 key') ((x.1.makeRoom key).flow key') := by
  unfold FlowReassembler.makeRoom
  split
  · exact Clocked.new _
  · exact h key'

/-- One call: the clocks run afterwards exactly when the call meets the condition,
and then they show what the record says. -/
theorem Recorded.step_iff {x x' : FlowReassembler T × (ReassemblyKey → ℕ)} {p : Push T}
    (h : Recorded x) (hr : Reordered x.1) (hstep : watched x p = some x') :
    ((∀ key state, x'.1.flows.lookup key = some state → Armed state) ↔
        FillsLastHole (x.1.flow p.header.key) p.nowMs p.header.sequence) ∧
      (FillsLastHole (x.1.flow p.header.key) p.nowMs p.header.sequence → Recorded x') := by
  obtain ⟨hr', hnote⟩ := recording_eq_some.mp hstep
  have hpush := Option.some_inj.mp hr'
  have hflow := flow_pushAt x.1 p
  rw [hpush] at hflow
  rw [note, hpush] at hnote
  obtain ⟨harmed, hclocked⟩ := Work.push_clocked p.header.sequence p.nowMs
    p.value (hr.flow p.header.key).1 (hr.fits p.header.key p.output) (h p.header.key)
  have hself := (hflow p.header.key).trans (if_pos rfl)
  rw [← hself] at harmed hclocked
  -- the other flows wait as before, or no longer
  have hothers : ∀ key, key ≠ p.header.key → Clocked (x'.2 key) (x'.1.flow key) := by
    intro key hk
    rw [hnote, Function.update_of_ne hk, hflow, if_neg hk]
    exact h.makeRoom p.header.key key
  refine ⟨⟨fun hall => harmed.mp ?_, fun hfills key state hl => ?_⟩, fun hfills key => ?_⟩
  · obtain ⟨state, hl⟩ : ∃ state, x'.1.flows.lookup p.header.key = some state := by
      rw [← hpush]
      exact ⟨_, AList.lookup_insert _⟩
    rw [flow_of_lookup hl]
    exact hall p.header.key state hl
  · rw [← flow_of_lookup hl]
    by_cases hk : key = p.header.key
    · subst hk
      exact harmed.mpr hfills
    · exact (hothers key hk).armed
  · by_cases hk : key = p.header.key
    · subst hk
      rw [hnote, Function.update_self]
      exact hclocked hfills
    · exact hothers key hk

/-- On runs that keep the reorder invariant, the clocks run and release in time all
along exactly when every value that is due closes the last hole of its flow. -/
theorem gap_timely_iff (pushes : List (Push T))
    (hahead : Admits watched (fun x p => StaysAhead x.1 p) fresh pushes) :
    Always watched Timely fresh pushes ↔
      Admits watched
        (fun x p => FillsLastHole (x.1.flow p.header.key) p.nowMs p.header.sequence)
        fresh pushes := by
  -- from any state with the two invariants
  suffices hrun : ∀ (x : FlowReassembler T × (ReassemblyKey → ℕ)), Reordered x.1 → Recorded x →
      Admits watched (fun x p => StaysAhead x.1 p) x pushes →
      (Always watched Timely x pushes ↔ Admits watched
        (fun x p => FillsLastHole (x.1.flow p.header.key) p.nowMs p.header.sequence) x pushes) from
    hrun fresh Reordered.new Recorded.fresh hahead
  clear hahead
  induction pushes with
  | nil =>
    intro x hr h _
    exact ⟨fun _ => trivial, fun _ => h.timely hr⟩
  | cons p ps ih =>
    intro x hr h hahead
    obtain ⟨x', hstep⟩ : ∃ x', watched x p = some x' := ⟨_, rfl⟩
    rw [admits_cons hstep] at hahead ⊢
    have hr' : Reordered x'.1 := (hr.step_iff (recording_eq_some.mp hstep).1).mpr hahead.1
    obtain ⟨harmed, hrecorded⟩ := h.step_iff hr hstep
    constructor
    · rintro ⟨_, hrest⟩
      have hfills := harmed.mp (hrest x' hstep).head.armed
      exact ⟨hfills, (ih x' hr' (hrecorded hfills) hahead.2).mp (hrest x' hstep)⟩
    · rintro ⟨hfills, hrest⟩
      refine ⟨h.timely hr, fun y hy => ?_⟩
      obtain rfl := Option.some_inj.mp (hstep.symm.trans hy)
      exact (ih x' hr' (hrecorded hfills) hahead.2).mpr hrest

/-- 1, then 0: the value that is due closes the only hole. -/
def swappedPushes : List (Push ℕ) :=
  [⟨⟨17, 23, 1⟩, 11, 0, []⟩, ⟨⟨17, 23, 0⟩, 10, 5, []⟩]

theorem swappedPushes_timely : Always watched Timely fresh swappedPushes := by
  refine (gap_timely_iff swappedPushes ?_).mpr ?_
  · rintro x hx
    obtain rfl := Option.some_inj.mp hx
    refine ⟨fun _ => Work.storedAhead_of_room (.inl rfl), ?_⟩
    rintro y hy
    obtain rfl := Option.some_inj.mp hy
    exact ⟨fun _ => Work.storedAhead_of_room (.inr (by decide)), trivial⟩
  · rintro x hx
    obtain rfl := Option.some_inj.mp hx
    refine ⟨fun h => absurd h (by decide), ?_⟩
    rintro y hy
    obtain rfl := Option.some_inj.mp hy
    refine ⟨fun _ m hm => ?_, trivial⟩
    refine hm.eq_expected fun q hq => ?_
    rw [List.mem_singleton.mp hq]
    rfl

/-- 2, then 0. -/
def inOrderPushes : List (Push ℕ) :=
  [⟨⟨17, 23, 2⟩, 12, 0, []⟩, ⟨⟨17, 23, 0⟩, 10, 0, []⟩]

/-- The 2 waits for the 1 without a clock; and a push of the 3, a second later, hands
over nothing. -/
theorem in_order_unarmed : ¬ Always watched Timely fresh inOrderPushes ∧
    ∃ r state, run step FlowReassembler.new inOrderPushes = some r ∧
      r.flows.lookup ⟨17, 23⟩ = some state ∧ state.pending = [⟨2, 12⟩] ∧ ¬ Armed state ∧
        (r.pushAt ⟨17, 23, 3⟩ 13 1000 []).2 = [] := by
  have hrun : ∃ r state, run step FlowReassembler.new inOrderPushes = some r ∧
      r.flows.lookup ⟨17, 23⟩ = some state ∧ state.pending = [⟨2, 12⟩] ∧
        state.gapStartedMs = none ∧ (r.pushAt ⟨17, 23, 3⟩ 13 1000 []).2 = [] :=
    ⟨_, ⟨1, none, [⟨2, 12⟩]⟩, rfl, rfl, rfl, rfl, rfl⟩
  obtain ⟨r, state, hr, hl, hpending, hgap, hnothing⟩ := hrun
  have hunarmed : ¬ Armed state := by simp [Armed, hpending, hgap]
  refine ⟨fun h => ?_, r, state, hr, hl, hpending, hunarmed, hnothing⟩
  have hrec : (run watched fresh inOrderPushes).map Prod.fst =
      run step FlowReassembler.new inOrderPushes := run_recording _ _
  obtain ⟨x, hx, rfl⟩ := Option.map_eq_some_iff.mp (hrec.trans hr)
  exact hunarmed ((always_iff_prefixes.mp h _ List.prefix_rfl x hx).armed _ _ hl)

end Csqtt.FlowFrame
