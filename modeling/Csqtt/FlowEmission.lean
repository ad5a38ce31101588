/-
The order in which the flow reassembler hands values over.

Values leave a flow on five paths: in order, in a drain, when its gap has aged,
when it is full, and past a full table.  Each of them hands over a value at or
ahead of `expected` and leaves `expected` just behind that value
(`Emits.append`), so what a flow hands over climbs — whatever is stranded among
its pending values.  The path past a full table relies on the count of all
pending values (`Work.Tallied`): a flow that has just released something never
takes it.

`emission_order` is the statement over a whole run, for as many keys as the
table holds and sequence numbers of the lower half.
-/
import Csqtt.FlowFrame

open Containers SerialNumber

namespace Csqtt.FlowFrame

variable {T : Type*} {known : Pending T → Prop}

/-! ### What a flow has handed over -/

/-- Values handed over while `expected` moves from `a` to `b`. -/
structure Ascends (known : Pending T → Prop) (a b : ℕ) (es : List (Pending T)) : Prop where
  known : ∀ e ∈ es, known e
  sorted : es.Pairwise fun e f => e.sequence.toNat < f.sequence.toNat
  within : ∀ e ∈ es, a ≤ e.sequence.toNat ∧ e.sequence.toNat < b
  le : a ≤ b

theorem Ascends.nil {a : ℕ} : Ascends known a a [] :=
  ⟨nofun, .nil, nofun, Nat.le_refl a⟩

theorem Ascends.append {a b c : ℕ} {es fs : List (Pending T)} (h : Ascends known a b es)
    (h' : Ascends known b c fs) : Ascends known a c (es ++ fs) := by
  have hle := h.le
  have hle' := h'.le
  refine ⟨fun e he => ?_, ?_, fun e he => ?_, hle.trans hle'⟩
  · exact (List.mem_append.mp he).elim (h.known e) (h'.known e)
  · refine List.pairwise_append.mpr ⟨h.sorted, h'.sorted, fun e he f hf => ?_⟩
    exact Nat.lt_of_lt_of_le (h.within e he).2 (h'.within f hf).1
  · rcases List.mem_append.mp he with he | he
    · have := h.within e he
      omega
    · have := h'.within e he
      omega

/-- A flow that started at `a` with the queue `given` is now in state `s` with the
queue `output`. -/
structure Emits (known : Pending T → Prop) (a : ℕ) (given : List T) (s : FlowState T)
    (output : List T) : Prop where
  expected_le : s.expected.toNat ≤ 2 ^ 31
  pending : ∀ p ∈ s.pending, known p
  emitted : ∃ es, output = given ++ es.map Pending.value ∧
    Ascends known a s.expected.toNat es

/-- Every known value has a sequence number of the lower half. -/
def Lower (known : Pending T → Prop) : Prop := ∀ p, known p → p.sequence.toNat < 2 ^ 31

/-- In the lower half being ahead is being greater. -/
theorem lt_of_isForward {sequence expected : BitVec 32} (hs : sequence.toNat < 2 ^ 31)
    (he : expected.toNat ≤ 2 ^ 31) (h : isForward sequence expected = true) :
    expected.toNat < sequence.toNat := by
  rw [isForward, Bool.and_eq_true, decide_eq_true_eq, decide_eq_true_eq, SerialNumber.dist,
    BitVec.toNat_sub] at h
  have hne : sequence.toNat ≠ expected.toNat := fun heq => h.1 (BitVec.eq_of_toNat_eq heq)
  omega

namespace Emits

variable {a : ℕ} {given output : List T} {s : FlowState T}

/-- The pending values and the gap's clock do not matter. -/
theorem of_expected (h : Emits known a given s output) {s' : FlowState T}
    (hexp : s'.expected = s.expected) (hpend : ∀ p ∈ s'.pending, known p) :
    Emits known a given s' output := by
  refine ⟨?_, hpend, ?_⟩
  · rw [hexp]
    exact h.expected_le
  · rw [hexp]
    exact h.emitted

/-- The one way out: a value at or ahead of `expected` is handed over and
`expected` moves just behind it. -/
theorem append (hlow : Lower known) (h : Emits known a given s output) {e : Pending T}
    (he : known e) (hle : s.expected.toNat ≤ e.sequence.toNat) {gap : Option ℕ}
    {pending : List (Pending T)} (hsub : ∀ p ∈ pending, known p) :
    Emits known a given ⟨e.sequence + 1, gap, pending⟩ (output ++ [e.value]) := by
  obtain ⟨es, hout, hasc⟩ := h.emitted
  have hlt := hlow e he
  have hnext : (e.sequence + 1).toNat = e.sequence.toNat + 1 := by
    have hone : (1 : BitVec 32).toNat = 1 := rfl
    rw [BitVec.toNat_add, hone]
    omega
  refine ⟨by rw [hnext]; omega, hsub, es ++ [e], ?_, ?_⟩
  · rw [hout, List.map_append, List.map_singleton, List.append_assoc]
  · refine hasc.append ⟨fun f hf => ?_, List.pairwise_singleton .., fun f hf => ?_, ?_⟩
    · exact List.mem_singleton.mp hf ▸ he
    · rw [List.mem_singleton.mp hf, hnext]
      exact ⟨hle, Nat.lt_succ_self _⟩
    · rw [hnext]
      omega

theorem drainLoop (hlow : Lower known) (fuel : ℕ) : ∀ {s : FlowState T} {output : List T},
    Emits known a given s output →
      Emits known a given (drainLoop fuel s output).1 (drainLoop fuel s output).2 := by
  induction fuel with
  | zero => exact fun h => h
  | succ fuel ih =>
    intro s output h
    rw [FlowFrame.drainLoop]
    split
    case h_1 => exact h
    case h_2 q i hsome =>
      have hq : s.pending[i]? = some q :=
        List.mem_zipIdx_iff_getElem?.mp (List.mem_of_find?_eq_some hsome)
      have hseq : q.sequence = s.expected := by simpa using List.find?_some hsome
      refine ih ?_
      rw [← hseq]
      refine h.append hlow (h.pending q (List.mem_of_getElem? hq)) (by rw [hseq]) ?_
      exact fun p hp => h.pending p (mem_of_mem_swapRemove hq hp)

end Emits

/-! ### Draining and releasing -/

theorem drainLoop_length_le (fuel : ℕ) : ∀ (s : FlowState T) (output : List T),
    (drainLoop fuel s output).1.pending.length ≤ s.pending.length := by
  induction fuel with
  | zero => exact fun _ _ => Nat.le_refl _
  | succ fuel ih =>
    intro s output
    rw [drainLoop]
    split
    case h_1 => exact Nat.le_refl _
    case h_2 q i hsome =>
      have hq : s.pending[i]? = some q :=
        List.mem_zipIdx_iff_getElem?.mp (List.mem_of_find?_eq_some hsome)
      have hlen := length_swapRemove hq
      refine (ih _ _).trans ?_
      simp only
      omega

theorem drainLoop_gap (fuel : ℕ) : ∀ (s : FlowState T) (output : List T),
    (drainLoop fuel s output).1.gapStartedMs = s.gapStartedMs := by
  induction fuel with
  | zero => exact fun _ _ => rfl
  | succ fuel ih =>
    intro s output
    rw [drainLoop]
    split
    case h_1 => rfl
    case h_2 => exact ih _ _

theorem mem_of_lowest {s : FlowState T} {q : Pending T} {i : ℕ} (h : lowest s = some (q, i)) :
    s.pending[i]? = some q ∧ isForward q.sequence s.expected = true := by
  have hmem := List.mem_filter.mp (List.argmin_mem (Option.mem_def.mpr h))
  exact ⟨List.mem_zipIdx_iff_getElem?.mp hmem.1, hmem.2⟩

/-- Something ahead is pending: there is a lowest one. -/
theorem lowest_isSome {s : FlowState T} {p : Pending T} (hp : p ∈ s.pending)
    (hf : isForward p.sequence s.expected = true) : (lowest s).isSome = true := by
  obtain ⟨i, hi⟩ := List.getElem?_of_mem hp
  rw [Option.isSome_iff_ne_none, lowest, ne_eq, List.argmin_eq_none, List.filter_eq_nil_iff]
  exact fun h => h (p, i) (List.mem_zipIdx_iff_getElem?.mpr hi) hf

theorem releaseLowest_of_none {s : FlowState T} (h : lowest s = none) (nowMs : ℕ)
    (output : List T) : releaseLowest nowMs s output = ({ s with gapStartedMs := none }, output) := by
  rw [releaseLowest, h]

/-- The lowest value leaves, the values behind it are drained, and what remains
waits from now on. -/
theorem releaseLowest_of_some {s : FlowState T} {q : Pending T} {i : ℕ}
    (h : lowest s = some (q, i)) (nowMs : ℕ) (output : List T) {d : FlowState T × List T}
    (hd : drainContiguous ⟨q.sequence + 1, none, swapRemove s.pending i⟩ (output ++ [q.value]) =
      d) :
    releaseLowest nowMs s output =
      (⟨d.1.expected, if d.1.pending.isEmpty then none else some nowMs, d.1.pending⟩, d.2) := by
  have hgap : d.1.gapStartedMs = none := by
    rw [← hd]
    exact drainLoop_gap ..
  rw [releaseLowest, h]
  simp only [hd]
  by_cases hempty : d.1.pending.isEmpty = true
  · rw [if_pos hempty, if_pos hempty, ← hgap]
  · rw [if_neg hempty, if_neg hempty]

/-- A release that finds something leaves less behind. -/
theorem releaseLowest_length_lt {s : FlowState T} (h : (lowest s).isSome = true) (nowMs : ℕ)
    (output : List T) :
    (releaseLowest nowMs s output).1.pending.length < s.pending.length := by
  obtain ⟨⟨q, i⟩, hlow⟩ := Option.isSome_iff_exists.mp h
  have hlen := length_swapRemove (mem_of_lowest hlow).1
  have hdrain := drainLoop_length_le (swapRemove s.pending i).length
    ⟨q.sequence + 1, none, swapRemove s.pending i⟩ (output ++ [q.value])
  rw [releaseLowest_of_some hlow nowMs output rfl]
  exact Nat.lt_of_le_of_lt hdrain (by simp only; omega)

theorem releaseLowest_length_le (nowMs : ℕ) (s : FlowState T) (output : List T) :
    (releaseLowest nowMs s output).1.pending.length ≤ s.pending.length := by
  cases h : lowest s with
  | none => rw [releaseLowest_of_none h]
  | some q => exact Nat.le_of_lt (releaseLowest_length_lt (by rw [h]; rfl) nowMs output)

theorem releaseExpired_length_le (nowMs : ℕ) (s : FlowState T) (output : List T) :
    (releaseExpired nowMs s output).1.pending.length ≤ s.pending.length := by
  rw [releaseExpired]
  split
  · exact releaseLowest_length_le nowMs s output
  · exact Nat.le_refl _

namespace Emits

variable {a nowMs : ℕ} {given output : List T} {s : FlowState T}

theorem releaseLowest (hlow : Lower known) (h : Emits known a given s output) :
    Emits known a given (releaseLowest nowMs s output).1 (releaseLowest nowMs s output).2 := by
  cases hl : lowest s with
  | none =>
    rw [releaseLowest_of_none hl]
    exact h.of_expected rfl h.pending
  | some qi =>
    obtain ⟨q, i⟩ := qi
    obtain ⟨hq, hf⟩ := mem_of_lowest hl
    have hknown := h.pending q (List.mem_of_getElem? hq)
    have hlt := lt_of_isForward (hlow q hknown) h.expected_le hf
    have hnext : Emits known a given ⟨q.sequence + 1, none, swapRemove s.pending i⟩
        (output ++ [q.value]) :=
      h.append hlow hknown (Nat.le_of_lt hlt) fun p hp => h.pending p (mem_of_mem_swapRemove hq hp)
    have hdrain := hnext.drainLoop hlow (swapRemove s.pending i).length
    rw [releaseLowest_of_some hl nowMs output rfl]
    exact hdrain.of_expected rfl hdrain.pending

theorem releaseExpired (hlow : Lower known) (h : Emits known a given s output) :
    Emits known a given (releaseExpired nowMs s output).1 (releaseExpired nowMs s output).2 := by
  rw [FlowFrame.releaseExpired]
  split
  · exact h.releaseLowest hlow
  · exact h

end Emits

/-! ### One call on its flow -/

namespace Work

variable {w : Work T} {rest nowMs : ℕ} {sequence : BitVec 32} {value : T}

/-- The count of all pending values, `rest` of them in other flows. -/
structure Tallied (rest : ℕ) (w : Work T) : Prop where
  total_eq : w.pendingTotal = w.state.pending.length + rest
  total_le : w.pendingTotal ≤ maxPendingTotal

theorem counted_total (h : w.pendingTotal = w.state.pending.length + rest)
    (op : FlowState T → List T → FlowState T × List T)
    (hop : (op w.state w.output).1.pending.length ≤ w.state.pending.length) :
    (w.counted op).pendingTotal = (op w.state w.output).1.pending.length + rest := by
  simp only [Work.counted]
  omega

theorem Tallied.counted (h : w.Tallied rest) (op : FlowState T → List T → FlowState T × List T)
    (hop : (op w.state w.output).1.pending.length ≤ w.state.pending.length) :
    (w.counted op).Tallied rest := by
  have hc := h.total_eq
  have ht := h.total_le
  have htotal := counted_total hc op hop
  exact ⟨htotal, by omega⟩

/-- `store` in its steps: the value joins the pending ones, ... -/
def joined (sequence : BitVec 32) (value : T) (w : Work T) : Work T :=
  ⟨{ w.state with pending := w.state.pending ++ [⟨sequence, value⟩] }, w.pendingTotal + 1, w.output⟩

/-- ... past a full table the lowest gap is released, ... -/
def relieved (nowMs : ℕ) (w : Work T) : Work T :=
  if maxPendingTotal < w.pendingTotal then w.counted (releaseLowest nowMs) else w

/-- ... and the gap's clock is started. -/
def armed (nowMs : ℕ) (w : Work T) : Work T :=
  ⟨⟨w.state.expected, some (w.state.gapStartedMs.getD nowMs), w.state.pending⟩, w.pendingTotal,
    w.output⟩

theorem armed_eq (nowMs : ℕ) (w : Work T) : w.armed nowMs =
    if w.state.gapStartedMs.isNone then
      { w with state := { w.state with gapStartedMs := some nowMs } }
    else w := by
  obtain ⟨⟨expected, gap, pending⟩, total, output⟩ := w
  cases gap <;> rfl

theorem store_eq_steps (sequence : BitVec 32) (value : T) (nowMs : ℕ) (w : Work T) :
    w.store sequence value nowMs =
      (((w.joined sequence value).relieved nowMs).armed nowMs).counted (releaseExpired nowMs) := by
  rw [armed_eq]
  rfl

/-- A value is stored when there is room, or when it lies ahead and so can be
released again. -/
theorem Tallied.store (h : w.Tallied rest)
    (hroom : w.pendingTotal < maxPendingTotal ∨ isForward sequence w.state.expected = true) :
    (w.store sequence value nowMs).Tallied rest := by
  have hc := h.total_eq
  have ht := h.total_le
  have hlen : (w.joined sequence value).state.pending.length = w.state.pending.length + 1 :=
    List.length_append
  have htotal : (w.joined sequence value).pendingTotal = w.pendingTotal + 1 := rfl
  rw [store_eq_steps]
  refine Tallied.counted ?_ _ (releaseExpired_length_le ..)
  suffices hrel : ((w.joined sequence value).relieved nowMs).Tallied rest from
    ⟨hrel.total_eq, hrel.total_le⟩
  unfold relieved
  split
  case isTrue hfull =>
    have hf : isForward sequence w.state.expected = true := hroom.resolve_left (by omega)
    have hlt := releaseLowest_length_lt (s := (w.joined sequence value).state)
      (lowest_isSome (List.mem_append_right _ (.head _)) hf) nowMs
      (w.joined sequence value).output
    have hsum : (w.joined sequence value).pendingTotal =
        (w.joined sequence value).state.pending.length + rest := by omega
    have hrel := counted_total hsum (releaseLowest nowMs) (Nat.le_of_lt hlt)
    exact ⟨hrel, by omega⟩
  case isFalse hfits => exact ⟨by omega, Nat.le_of_not_lt hfits⟩

/-- A release makes room, or it finds nothing and leaves `expected` alone. -/
theorem Tallied.release (ht : w.Tallied rest) (nowMs : ℕ)
    (hforward : isForward sequence w.state.expected = true) :
    (w.counted (releaseLowest nowMs)).pendingTotal < maxPendingTotal ∨
      isForward sequence (w.counted (releaseLowest nowMs)).state.expected = true ∧
        (w.counted (releaseLowest nowMs)).state.pending = w.state.pending := by
  cases hl : lowest w.state with
  | none =>
    refine .inr ?_
    simp only [Work.counted, releaseLowest_of_none hl]
    exact ⟨hforward, trivial⟩
  | some q =>
    refine .inl ?_
    have hlt := releaseLowest_length_lt (by rw [hl]; rfl) nowMs w.output
    have hc := ht.total_eq
    have hle := ht.total_le
    have hrel := counted_total hc (releaseLowest nowMs) (Nat.le_of_lt hlt)
    omega

section emits

variable {a : ℕ} {given : List T} (hlow : Lower known)
include hlow

theorem store_emits (h : Emits known a given w.state w.output)
    (hknown : known ⟨sequence, value⟩) :
    Emits known a given (w.store sequence value nowMs).state
      (w.store sequence value nowMs).output := by
  have hjoined : Emits known a given (w.joined sequence value).state w.output := by
    refine h.of_expected rfl fun p hp => ?_
    rcases List.mem_append.mp hp with hp | hp
    · exact h.pending p hp
    · exact List.mem_singleton.mp hp ▸ hknown
  rw [store_eq_steps]
  refine Emits.releaseExpired hlow ?_
  suffices hrel : Emits known a given ((w.joined sequence value).relieved nowMs).state
      ((w.joined sequence value).relieved nowMs).output from hrel.of_expected rfl hrel.pending
  unfold relieved
  split
  · exact hjoined.releaseLowest hlow
  · exact hjoined

theorem place_emits (h : Emits known a given w.state w.output) (ht : w.Tallied rest)
    (hknown : known ⟨sequence, value⟩) :
    Emits known a given (w.place sequence value nowMs).state
        (w.place sequence value nowMs).output ∧
      (w.place sequence value nowMs).Tallied rest := by
  unfold place
  by_cases hdue : sequence = w.state.expected
  · rw [if_pos hdue]
    refine ⟨Emits.drainLoop hlow _ ?_, ?_⟩
    · simp only
      rw [← hdue]
      exact h.append hlow (e := ⟨sequence, value⟩) hknown (by rw [hdue]) h.pending
    · refine Tallied.counted ?_ _ (drainLoop_length_le ..)
      exact ⟨ht.total_eq, ht.total_le⟩
  rw [if_neg hdue]
  by_cases hdrop : (!isForward sequence w.state.expected
      || w.state.pending.any (·.sequence == sequence)) = true
  · rw [if_pos hdrop]
    exact ⟨h, ht⟩
  rw [if_neg hdrop]
  rw [Bool.or_eq_true, not_or, Bool.not_eq_true', Bool.not_eq_false] at hdrop
  have hforward := hdrop.1
  have hrel : Emits known a given (w.counted (releaseLowest nowMs)).state
      (w.counted (releaseLowest nowMs)).output := h.releaseLowest hlow
  have htrel := ht.counted (releaseLowest nowMs) (releaseLowest_length_le ..)
  have hmade := ht.release nowMs hforward
  by_cases hfull : w.state.pending.length = maxPendingPerFlow
  · simp only [if_pos hfull]
    split
    case isTrue htotal =>
      -- nothing was released, so the flow is as full as before
      obtain ⟨hf, hsame⟩ := hmade.resolve_left (by omega)
      have hne : (w.counted (releaseLowest nowMs)).state.pending.isEmpty = false := by
        rw [hsame, List.isEmpty_eq_false_iff]
        rintro hnil
        rw [hnil] at hfull
        cases hfull
      rw [hne, if_neg Bool.false_ne_true]
      have hagain := htrel.counted (releaseLowest nowMs) (releaseLowest_length_le ..)
      refine ⟨store_emits hlow (hrel.releaseLowest hlow) hknown, hagain.store ?_⟩
      exact (htrel.release nowMs hf).imp_right And.left
    case isFalse htotal =>
      have hle := htrel.total_le
      exact ⟨store_emits hlow hrel hknown, htrel.store (.inl (by omega))⟩
  · simp only [if_neg hfull]
    split
    case isTrue htotal =>
      split
      case isTrue hnil =>
        have hlt := lt_of_isForward (hlow _ hknown) h.expected_le hforward
        refine ⟨h.append hlow (e := ⟨sequence, value⟩) hknown (Nat.le_of_lt hlt) h.pending, ?_⟩
        exact ⟨ht.total_eq, ht.total_le⟩
      case isFalse =>
        exact ⟨store_emits hlow hrel hknown, htrel.store (hmade.imp_right And.left)⟩
    case isFalse htotal =>
      have hle := ht.total_le
      exact ⟨store_emits hlow h hknown, ht.store (.inl (by omega))⟩

theorem push_emits (nowMs : ℕ) (h : Emits known a given w.state w.output) (ht : w.Tallied rest)
    (hknown : known ⟨sequence, value⟩) :
    Emits known a given (w.push sequence value nowMs).state
        (w.push sequence value nowMs).output ∧
      (w.push sequence value nowMs).Tallied rest :=
  place_emits hlow (h.releaseExpired hlow) (ht.counted _ (releaseExpired_length_le ..)) hknown

end emits

end Work

/-! ### The whole table -/

/-- The value was pushed under the key, with its sequence number. -/
def Pushed (ps : List (Push T)) (key : ReassemblyKey) (e : Pending T) : Prop :=
  ∃ p ∈ ps, p.header = ⟨key.senderId, key.flowId, e.sequence⟩ ∧ p.value = e.value

/-- No key beyond those of `ps`, and every flow holds what was pushed to it. -/
structure Carries (ps : List (Push T)) (r : FlowReassembler T) : Prop where
  keys : ∀ key ∈ r.flows, ∃ p ∈ ps, p.header.key = key
  expected_le : ∀ key, (r.flow key).expected.toNat ≤ 2 ^ 31
  pending : ∀ key, ∀ e ∈ (r.flow key).pending, Pushed ps key e
  counted : r.pendingTotal = total (fun state => state.pending.length) r.flows
  total_le : r.pendingTotal ≤ maxPendingTotal

theorem Carries.new (ps : List (Push T)) : Carries ps FlowReassembler.new :=
  ⟨nofun, fun _ => Nat.zero_le _, nofun, rfl, Nat.zero_le _⟩

/-- A table that has room for every key of the run is never cleared. -/
theorem Carries.makeRoom_eq {ps : List (Push T)} {r : FlowReassembler T} (h : Carries ps r)
    (hkeys : (ps.map fun p => p.header.key).dedup.length ≤ maxTrackedFlows) {p : Push T}
    (hp : p ∈ ps) : r.makeRoom p.header.key = r := by
  unfold FlowReassembler.makeRoom
  refine if_neg fun ⟨hfull, hnew⟩ => ?_
  have hnodup : (p.header.key :: r.flows.keys).Nodup :=
    List.nodup_cons.mpr ⟨fun hmem => hnew (AList.mem_keys.mpr hmem), r.flows.keys_nodup⟩
  have hsub : p.header.key :: r.flows.keys ⊆ (ps.map fun p => p.header.key).dedup := by
    intro key hkey
    rw [List.mem_dedup, List.mem_map]
    rcases List.mem_cons.mp hkey with rfl | hkey
    · exact ⟨p, hp, rfl⟩
    · exact h.keys key (AList.mem_keys.mp hkey)
  have hle := (hnodup.subperm hsub).length_le
  rw [List.length_cons] at hle
  omega

theorem flow_insert (flows : AList fun _ : ReassemblyKey => FlowState T) (pendingTotal : ℕ)
    (key key' : ReassemblyKey) (state : FlowState T) :
    (FlowReassembler.mk (flows.insert key state) pendingTotal).flow key' =
      if key' = key then state else (FlowReassembler.mk flows pendingTotal).flow key' := by
  by_cases hk : key' = key
  · rw [if_pos hk, hk, FlowReassembler.flow, AList.lookup_insert]
    rfl
  · rw [if_neg hk, FlowReassembler.flow, AList.lookup_insert_ne hk]
    rfl

/-- What one call hands over. -/
theorem Carries.pushAt {ps : List (Push T)} {r : FlowReassembler T} (h : Carries ps r)
    (hkeys : (ps.map fun p => p.header.key).dedup.length ≤ maxTrackedFlows)
    (hlow : ∀ p ∈ ps, p.header.sequence.toNat < 2 ^ 31) {p : Push T} (hp : p ∈ ps)
    {r' : FlowReassembler T} {output : List T}
    (hr' : r.pushAt p.header p.value p.nowMs p.output = (r', output)) :
    Carries ps r' ∧ (∀ key, key ≠ p.header.key → r'.flow key = r.flow key) ∧
      ∃ es, output = p.output ++ es.map Pending.value ∧
        Ascends (Pushed ps p.header.key) (r.flow p.header.key).expected.toNat
          (r'.flow p.header.key).expected.toNat es := by
  -- numbers below 2 ^ 31 are compared as they are, without a wrap
  have hlower : Lower (Pushed ps p.header.key) := by
    rintro e ⟨q, hq, hheader, -⟩
    have := hlow q hq
    rwa [hheader] at this
  have hstart : Emits (Pushed ps p.header.key) (r.flow p.header.key).expected.toNat p.output
      (r.flow p.header.key) p.output :=
    ⟨h.expected_le _, h.pending _, [], (List.append_nil _).symm, .nil⟩
  have htally : Work.Tallied
      (total (fun state => state.pending.length) (r.flows.erase p.header.key))
      ⟨r.flow p.header.key, r.pendingTotal, p.output⟩ :=
    ⟨h.counted.trans (total_eq_add_erase _ _ p.header.key rfl), h.total_le⟩
  obtain ⟨hemits, htally'⟩ := Work.push_emits hlower p.nowMs hstart htally ⟨p, hp, rfl, rfl⟩
  rw [FlowReassembler.pushAt, h.makeRoom_eq hkeys hp, Prod.mk.injEq] at hr'
  obtain ⟨rfl, rfl⟩ := hr'
  generalize Work.push p.header.sequence p.value p.nowMs
    ⟨r.flow p.header.key, r.pendingTotal, p.output⟩ = w at hemits htally' ⊢
  have hflow := flow_insert r.flows w.pendingTotal p.header.key
  refine ⟨⟨fun key hkey => ?_, fun key => ?_, fun key => ?_, ?_, htally'.total_le⟩,
    fun key hne => ?_, ?_⟩
  · rcases (AList.mem_insert _).mp hkey with rfl | hkey
    · exact ⟨p, hp, rfl⟩
    · exact h.keys key hkey
  · rw [hflow key]
    split
    · exact hemits.expected_le
    · exact h.expected_le key
  · rw [hflow key]
    split
    case isTrue heq => exact heq ▸ hemits.pending
    case isFalse => exact h.pending key
  · rw [total_insert]
    exact htally'.total_eq
  · rw [hflow key, if_neg hne]
    rfl
  · rw [hflow, if_pos rfl]
    exact hemits.emitted

/-! ### A whole run -/

/-- The queues that the calls leave. -/
def outputs : FlowReassembler T → List (Push T) → List (List T)
  | _, [] => []
  | r, p :: ps =>
    let s := r.pushAt p.header p.value p.nowMs p.output
    s.2 :: outputs s.1 ps

/-- `added` is what the calls put behind the queues they are given, each value under
the header it was pushed with; the values of one key leave by climbing sequence number. -/
structure EmissionOrder (ps : List (Push T)) (added : List (List (FrameHeader × T))) :
    Prop where
  length : added.length = ps.length
  outputs : outputs FlowReassembler.new ps =
    List.zipWith (fun p es => p.output ++ es.map Prod.snd) ps added
  pushed : ∀ e ∈ added.flatten, ∃ p ∈ ps, p.header = e.1 ∧ p.value = e.2
  climbs : added.flatten.Pairwise fun e f =>
    e.1.key = f.1.key → e.1.sequence.toNat < f.1.sequence.toNat
  nodup : (added.flatten.map Prod.fst).Nodup

/-- A pending value with the header it was pushed with. -/
def Pending.headed (key : ReassemblyKey) (e : Pending T) : FrameHeader × T :=
  (⟨key.senderId, key.flowId, e.sequence⟩, e.value)

@[simp] theorem Pending.headed_key (key : ReassemblyKey) (e : Pending T) :
    (e.headed key).1.key = key := rfl

/-- The run from a table on its way: what leaves a flow lies at or ahead of what it
expects now. -/
theorem emission_from {all : List (Push T)}
    (hkeys : (all.map fun p => p.header.key).dedup.length ≤ maxTrackedFlows)
    (hlow : ∀ p ∈ all, p.header.sequence.toNat < 2 ^ 31) (ps : List (Push T)) :
    ∀ r : FlowReassembler T, ps ⊆ all → Carries all r →
      ∃ added : List (List (FrameHeader × T)), added.length = ps.length ∧
        outputs r ps = List.zipWith (fun p es => p.output ++ es.map Prod.snd) ps added ∧
        (∀ e ∈ added.flatten, (∃ p ∈ all, p.header = e.1 ∧ p.value = e.2) ∧
          (r.flow e.1.key).expected.toNat ≤ e.1.sequence.toNat) ∧
        added.flatten.Pairwise fun e f =>
          e.1.key = f.1.key → e.1.sequence.toNat < f.1.sequence.toNat := by
  induction ps with
  | nil => exact fun r _ _ => ⟨[], rfl, rfl, nofun, .nil⟩
  | cons p ps ih =>
    intro r hsub h
    obtain ⟨hp, hsub⟩ := List.cons_subset.mp hsub
    obtain ⟨⟨r', output⟩, hr'⟩ : ∃ s, r.pushAt p.header p.value p.nowMs p.output = s := ⟨_, rfl⟩
    obtain ⟨h', hothers, es, rfl, hasc⟩ := h.pushAt hkeys hlow hp hr'
    obtain ⟨added, hlen, houts, habove, hclimbs⟩ := ih _ hsub h'
    refine ⟨es.map (Pending.headed p.header.key) :: added, by rw [List.length_cons, hlen]; rfl,
      ?_, ?_, ?_⟩
    · rw [outputs, hr', List.zipWith_cons_cons, List.map_map]
      exact congrArg _ houts
    · intro e he
      rcases List.mem_append.mp (List.flatten_cons ▸ he) with he | he
      · obtain ⟨q, hq, rfl⟩ := List.mem_map.mp he
        exact ⟨hasc.known q hq, (hasc.within q hq).1⟩
      · -- what leaves later is ahead of what its flow expects then
        obtain ⟨hpushed, hle⟩ := habove e he
        refine ⟨hpushed, ?_⟩
        by_cases hk : e.1.key = p.header.key
        · rw [hk] at hle ⊢
          exact hasc.le.trans hle
        · rwa [hothers _ hk] at hle
    · rw [List.flatten_cons]
      refine List.pairwise_append.mpr ⟨?_, hclimbs, ?_⟩
      · refine List.pairwise_map.mpr (hasc.sorted.imp fun hlt => ?_)
        exact fun _ => hlt
      · intro e he f hf hk
        obtain ⟨q, hq, rfl⟩ := List.mem_map.mp he
        have hle := (habove f hf).2
        rw [← hk, Pending.headed_key] at hle
        exact Nat.lt_of_lt_of_le (hasc.within q hq).2 hle

/-- Whatever is lost, repeated, reordered or released early: the values of one key
leave by climbing sequence number, each as it was pushed. -/
theorem emission_order (ps : List (Push T))
    (hkeys : (ps.map fun p => p.header.key).dedup.length ≤ maxTrackedFlows)
    (hlow : ∀ p ∈ ps, p.header.sequence.toNat < 2 ^ 31) :
    ∃ added, EmissionOrder ps added := by
  obtain ⟨added, hlen, houts, habove, hclimbs⟩ :=
    emission_from hkeys hlow ps FlowReassembler.new (List.Subset.refl ps) (Carries.new ps)
  refine ⟨added, hlen, houts, fun e he => (habove e he).1, hclimbs, ?_⟩
  refine List.pairwise_map.mpr (hclimbs.imp fun hlt heq => ?_)
  rw [heq] at hlt
  exact Nat.lt_irrefl _ (hlt rfl)

/-- A loss, a duplicate, an aged gap and a second flow in between. -/
def lossyPushes : List (Push ℕ) :=
  [⟨⟨17, 23, 0⟩, 10, 0, []⟩, ⟨⟨17, 23, 3⟩, 13, 1, []⟩, ⟨⟨17, 24, 1⟩, 21, 2, [5]⟩,
    ⟨⟨17, 23, 3⟩, 13, 3, []⟩, ⟨⟨17, 23, 2⟩, 12, 4, []⟩, ⟨⟨17, 23, 5⟩, 15, 13, []⟩,
    ⟨⟨17, 23, 1⟩, 11, 14, []⟩, ⟨⟨17, 24, 0⟩, 20, 20, []⟩]

theorem lossyPushes_order :
    outputs FlowReassembler.new lossyPushes =
        [[10], [], [5], [], [], [12, 13], [], [21]] ∧
      ∃ added, EmissionOrder lossyPushes added :=
  ⟨by decide, emission_order lossyPushes (by decide) (by decide)⟩

end Csqtt.FlowFrame
