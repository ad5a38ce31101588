/-
Parking stays consistent as long as the stores of `enter` and `exit` land in the
order of their swaps.

Both calls publish `ACTIVE` first and store `LIMIT` and `DECLARED` later, one
atomic access at a time.  Nothing makes an `enter` that has won the swap finish
before the `exit` that undoes it, so its two stores can come last.

* `stale_enter_parks_workers` — the run in which that happens: `ACTIVE` is off,
  nobody is inside a call, and the workers above the keep count stay parked;
* `consistent_of_inOrder` — in every interleaving of any number of calls in
  which no store overwrites one of a later swap, the statics agree whenever no
  call is in progress.

The induction carries `Ordered`: the value of each static is the one its last
writer's swap prescribes, and if that writer is not the latest swap, then the
latest one still has its store ahead.
-/
import Csqtt.Idle

open Transition

namespace Csqtt.Idle

/-- The swap whose `DECLARED` store is still ahead of the call. -/
def Call.owes : Call → Option Swap
  | .enterStoreLimit keep | .enterStoreDeclared keep => some (.enter keep)
  | .exitStoreLimit | .exitLoadTotal | .exitStoreDeclared _ => some .exit
  | _ => none

/-- The call's next access is its `LIMIT` store. -/
def Call.limitAhead : Call → Bool
  | .enterStoreLimit _ | .exitStoreLimit => true
  | _ => false

def owes (c : Option Call) : Option Swap := c.bind Call.owes

def limitAhead (c : Option Call) : Bool := c.any Call.limitAhead

/-- A store of `LIMIT` or `DECLARED` does not overwrite one of a later swap. -/
def inOrder (s : State) : Label → Bool
  | .start _ _ => true
  | .advance t =>
    match s.call t with
    | some (.enterStoreLimit _) | some .exitStoreLimit => s.limitBy ≤ s.ticket t
    | some (.enterStoreDeclared _) | some (.exitStoreDeclared _) => s.declaredBy ≤ s.ticket t
    | _ => true

structure Ordered (total : ℕ) (s : State) : Prop where
  total_eq : s.memory.totalWorkers = total
  loaded : ∀ t n, s.call t = some (.exitStoreDeclared n) → n = total
  owner : ∀ t w, owes (s.call t) = some w → s.swaps[s.ticket t]? = some w
  active : ∃ w, s.swaps.getLast? = some w ∧ s.memory.active = w.active
  limit : ∃ w, s.swaps[s.limitBy]? = some w ∧ s.memory.limit = w.limit
  declared : ∃ w, s.swaps[s.declaredBy]? = some w ∧ s.memory.declared = w.declared total
  limitLast : s.limitBy + 1 = s.swaps.length ∨
    ∃ t, limitAhead (s.call t) = true ∧ s.ticket t + 1 = s.swaps.length
  declaredLast : s.declaredBy + 1 = s.swaps.length ∨
    ∃ t, (owes (s.call t)).isSome ∧ s.ticket t + 1 = s.swaps.length

theorem Ordered.afterReset (total : ℕ) : Ordered total (State.afterReset total) where
  total_eq := rfl
  loaded _ _ h := by cases h
  owner _ _ h := by cases h
  active := ⟨.exit, rfl, rfl⟩
  limit := ⟨.exit, rfl, rfl⟩
  declared := ⟨.exit, rfl, rfl⟩
  limitLast := .inl rfl
  declaredLast := .inl rfl

/-- With no call in progress the last writers are the latest swap. -/
theorem Ordered.consistent {total : ℕ} {s : State} (h : Ordered total s) : Consistent total s := by
  intro hq
  obtain ⟨w, hw, hactive⟩ := h.active
  have hlimit : s.limitBy + 1 = s.swaps.length :=
    h.limitLast.resolve_right fun ⟨t, ht, _⟩ => by simp [hq t, limitAhead] at ht
  have hdeclared : s.declaredBy + 1 = s.swaps.length :=
    h.declaredLast.resolve_right fun ⟨t, ht, _⟩ => by simp [hq t, owes] at ht
  have hlast : ∀ k, k + 1 = s.swaps.length → s.swaps[k]? = some w := by
    intro k hk
    rw [List.getLast?_eq_getElem?, ← hk] at hw
    exact hw
  obtain ⟨wl, hwl, hl⟩ := h.limit
  obtain ⟨wd, hwd, hd⟩ := h.declared
  obtain rfl : w = wl := Option.some_inj.mp ((hlast _ hlimit).symm.trans hwl)
  obtain rfl : w = wd := Option.some_inj.mp ((hlast _ hdeclared).symm.trans hwd)
  rw [hactive]
  cases w with
  | enter keep => exact ⟨keep, hw, hl, hd⟩
  | exit => exact ⟨hl, hd⟩

/-! ### What one access preserves -/

section Access

variable {total : ℕ} {s : State} {t : ℕ} {c : Call} {m : Memory} {c' : Option Call}

/-- What a call has read of the total, once another call or this one has moved on. -/
theorem Ordered.loaded_update (h : Ordered total s)
    (hloaded : ∀ n, c' = some (.exitStoreDeclared n) → n = total) {j n : ℕ}
    (hj : Function.update s.call t c' j = some (.exitStoreDeclared n)) : n = total := by
  have hall : ∀ j n, Function.update s.call t c' j = some (.exitStoreDeclared n) → n = total :=
    (Function.forall_update_iff s.call fun _ call => ∀ n,
      call = some (.exitStoreDeclared n) → n = total).mpr ⟨hloaded, fun j _ => h.loaded j⟩
  exact hall j n hj

/-- An access that touches none of the parking statics and has the same stores
ahead as before. -/
theorem Ordered.frame (h : Ordered total s)
    (hm : m.totalWorkers = s.memory.totalWorkers ∧ m.active = s.memory.active ∧
      m.limit = s.memory.limit ∧ m.declared = s.memory.declared)
    (hloaded : ∀ n, c' = some (.exitStoreDeclared n) → n = total)
    (howes : owes c' = owes (s.call t)) (hahead : limitAhead c' = limitAhead (s.call t)) :
    Ordered total { s with memory := m, call := Function.update s.call t c' } := by
  obtain ⟨ht, ha, hl, hd⟩ := hm
  have hcall : ∀ j, owes (Function.update s.call t c' j) = owes (s.call j) ∧
      limitAhead (Function.update s.call t c' j) = limitAhead (s.call j) :=
    (Function.forall_update_iff s.call fun j call => owes call = owes (s.call j) ∧
      limitAhead call = limitAhead (s.call j)).mpr ⟨⟨howes, hahead⟩, fun _ _ => ⟨rfl, rfl⟩⟩
  refine ⟨ht.trans h.total_eq, fun j n hj => ?_, fun j w hw => ?_, ?_, ?_, ?_, ?_, ?_⟩
  · exact h.loaded_update hloaded hj
  · exact h.owner j w ((hcall j).1.symm.trans hw)
  · exact ha ▸ h.active
  · exact hl ▸ h.limit
  · exact hd ▸ h.declared
  · exact h.limitLast.imp_right fun ⟨j, hj, hlast⟩ => ⟨j, (hcall j).2.trans hj, hlast⟩
  · exact h.declaredLast.imp_right fun ⟨j, hj, hlast⟩ =>
      ⟨j, (congrArg Option.isSome (hcall j).1).trans hj, hlast⟩

/-- An effective swap: its two stores are now the latest ones still ahead. -/
theorem Ordered.swap (h : Ordered total s) {w : Swap} (hfree : owes (s.call t) = none)
    (hc' : owes c' = some w) (hahead : limitAhead c' = true)
    (hloaded : ∀ n, c' ≠ some (.exitStoreDeclared n)) :
    Ordered total { s with
      memory := { s.memory with active := w.active }
      call := Function.update s.call t c'
      swaps := s.swaps ++ [w]
      ticket := Function.update s.ticket t s.swaps.length } := by
  refine ⟨h.total_eq, fun j n hj => ?_, fun j v hv => ?_, ⟨w, List.getLast?_concat, rfl⟩, ?_, ?_,
    .inr ⟨t, ?_, ?_⟩, .inr ⟨t, ?_, ?_⟩⟩
  · exact h.loaded_update (fun n hn => absurd hn (hloaded n)) hj
  · change owes (Function.update s.call t c' j) = some v at hv
    show (s.swaps ++ [w])[Function.update s.ticket t s.swaps.length j]? = some v
    by_cases hjt : j = t
    · subst hjt
      rw [Function.update_self, hc'] at hv
      rw [Function.update_self, List.getElem?_concat_length, hv]
    · rw [Function.update_of_ne hjt] at hv ⊢
      have hj := h.owner j v hv
      rw [List.getElem?_append_left (List.getElem?_eq_some_iff.mp hj).1]
      exact hj
  · obtain ⟨v, hv, hl⟩ := h.limit
    exact ⟨v, by rw [List.getElem?_append_left (List.getElem?_eq_some_iff.mp hv).1]; exact hv, hl⟩
  · obtain ⟨v, hv, hd⟩ := h.declared
    exact ⟨v, by rw [List.getElem?_append_left (List.getElem?_eq_some_iff.mp hv).1]; exact hv, hd⟩
  · show limitAhead (Function.update s.call t c' t) = true
    rw [Function.update_self, hahead]
  · simp
  · show (owes (Function.update s.call t c' t)).isSome = true
    rw [Function.update_self, hc']
    rfl
  · simp

/-- The `LIMIT` store of a call that no later swap has overtaken. -/
theorem Ordered.storeLimit (h : Ordered total s) {w : Swap} (howes : owes (s.call t) = some w)
    (hle : s.limitBy ≤ s.ticket t) (hc' : owes c' = some w)
    (hloaded : ∀ n, c' ≠ some (.exitStoreDeclared n)) :
    Ordered total { s with
      memory := { s.memory with limit := w.limit }
      call := Function.update s.call t c'
      limitBy := s.ticket t } := by
  have hcall : ∀ j, owes (Function.update s.call t c' j) = owes (s.call j) :=
    (Function.forall_update_iff s.call fun j call => owes call = owes (s.call j)).mpr
      ⟨hc'.trans howes.symm, fun _ _ => rfl⟩
  have hticket := h.owner t w howes
  have hlt : s.ticket t < s.swaps.length := (List.getElem?_eq_some_iff.mp hticket).1
  refine ⟨h.total_eq, fun j n hj => ?_, fun j v hv => h.owner j v ((hcall j).symm.trans hv),
    h.active, ⟨w, hticket, rfl⟩, h.declared, ?_, ?_⟩
  · exact h.loaded_update (fun n hn => absurd hn (hloaded n)) hj
  · show s.ticket t + 1 = s.swaps.length ∨ _
    rcases h.limitLast with hl | ⟨j, hj, hlast⟩
    · left
      omega
    · by_cases hjt : j = t
      · left
        exact hjt ▸ hlast
      · refine .inr ⟨j, ?_, hlast⟩
        show limitAhead (Function.update s.call t c' j) = true
        rw [Function.update_of_ne hjt, hj]
  · exact h.declaredLast.imp_right fun ⟨j, hj, hlast⟩ =>
      ⟨j, (congrArg Option.isSome (hcall j)).trans hj, hlast⟩

/-- The `DECLARED` store, the last store a call has ahead. -/
theorem Ordered.storeDeclared (h : Ordered total s) {w : Swap} (howes : owes (s.call t) = some w)
    (hle : s.declaredBy ≤ s.ticket t) (hdone : limitAhead (s.call t) = false)
    (hc' : owes c' = none) :
    Ordered total { s with
      memory := { s.memory with declared := w.declared total }
      call := Function.update s.call t c'
      declaredBy := s.ticket t } := by
  have hticket := h.owner t w howes
  have hlt : s.ticket t < s.swaps.length := (List.getElem?_eq_some_iff.mp hticket).1
  refine ⟨h.total_eq, fun j n hj => ?_, fun j v hv => ?_, h.active, h.limit, ⟨w, hticket, rfl⟩,
    ?_, ?_⟩
  · refine h.loaded_update (fun n hn => ?_) hj
    simp [hn, owes, Call.owes] at hc'
  · change owes (Function.update s.call t c' j) = some v at hv
    by_cases hjt : j = t
    · subst hjt
      rw [Function.update_self, hc'] at hv
      cases hv
    · rw [Function.update_of_ne hjt] at hv
      exact h.owner j v hv
  · refine h.limitLast.imp_right fun ⟨j, hj, hlast⟩ => ⟨j, ?_, hlast⟩
    have hjt : j ≠ t := by
      rintro rfl
      rw [hj] at hdone
      cases hdone
    show limitAhead (Function.update s.call t c' j) = true
    rw [Function.update_of_ne hjt, hj]
  · show s.ticket t + 1 = s.swaps.length ∨ _
    rcases h.declaredLast with hd | ⟨j, hj, hlast⟩
    · left
      omega
    · by_cases hjt : j = t
      · left
        exact hjt ▸ hlast
      · refine .inr ⟨j, ?_, hlast⟩
        show (owes (Function.update s.call t c' j)).isSome = true
        rw [Function.update_of_ne hjt, hj]

end Access

/-- An effective swap writes `ACTIVE` and leaves both stores ahead. -/
theorem callStep_swap {m : Memory} {c : Call} {w : Swap} (h : swapOf m c = some w) :
    ∃ c', callStep m c = ({ m with active := w.active }, some c') ∧ c.owes = none ∧
      c'.owes = some w ∧ c'.limitAhead = true := by
  cases c with
  | enterSwap keep =>
    cases ha : m.active with
    | false =>
      obtain rfl : Swap.enter keep = w := by simpa [swapOf, ha] using h
      exact ⟨.enterStoreLimit keep, by simp [callStep, ha, Swap.active], rfl, rfl, rfl⟩
    | true => simp [swapOf, ha] at h
  | exitSwap =>
    cases ha : m.active with
    | true =>
      obtain rfl : Swap.exit = w := by simpa [swapOf, ha] using h
      exact ⟨.exitStoreLimit, by simp [callStep, ha, Swap.active], rfl, rfl, rfl⟩
    | false => simp [swapOf, ha] at h
  | _ => cases h

/-- An access that neither swaps `ACTIVE` nor belongs to a call with stores ahead. -/
theorem callStep_quiet {m : Memory} {c : Call} (hs : swapOf m c = none) (ho : c.owes = none) :
    ((callStep m c).1.totalWorkers = m.totalWorkers ∧ (callStep m c).1.active = m.active ∧
      (callStep m c).1.limit = m.limit ∧ (callStep m c).1.declared = m.declared) ∧
    owes (callStep m c).2 = none := by
  cases c with
  | enterSwap keep =>
    have ha : m.active = true := by simpa [swapOf] using hs
    simp [callStep, ha, owes]
  | exitSwap =>
    have ha : m.active = false := by simpa [swapOf] using hs
    simp [callStep, ha, owes]
  | enterStoreLimit | enterStoreDeclared | exitStoreLimit | exitLoadTotal | exitStoreDeclared =>
    cases ho
  | enterLoadTotal | lostLoadLimit | lostLoadJoined | lostLoadGeneration | lostCompareExchange =>
    simp only [callStep]
    split <;> simp [owes, Call.owes]
  | _ => simp [callStep, owes, Call.owes]

theorem limitAhead_of_owes_eq_none {c : Option Call} (h : owes c = none) :
    limitAhead c = false := by
  rcases c with _ | c
  · rfl
  · cases c <;> first | rfl | cases h

/-- One access, by any thread, of a call that stores in order. -/
theorem Ordered.access {total : ℕ} {s : State} {t : ℕ} {c : Call} (h : Ordered total s)
    (hc : s.call t = some c) (hin : inOrder s (.advance t)) : Ordered total (s.access t c) := by
  simp only [inOrder, hc] at hin
  rcases hs : swapOf s.memory c with _ | w
  · rcases ho : c.owes with _ | w
    · have howes : owes (s.call t) = none := by rw [hc]; exact ho
      obtain ⟨hm, hc'⟩ := callStep_quiet hs ho
      have hframe := h.frame (t := t) hm (fun n hn => by rw [hn] at hc'; cases hc')
        (hc'.trans howes.symm)
        ((limitAhead_of_owes_eq_none hc').trans (limitAhead_of_owes_eq_none howes).symm)
      cases c <;> first | simpa only [State.access, hs] using hframe | cases ho
    · have howes : owes (s.call t) = some w := by rw [hc]; exact ho
      cases c with
      | enterStoreLimit keep =>
        cases ho
        exact h.storeLimit howes (of_decide_eq_true hin) rfl (fun n hn => by cases hn)
      | exitStoreLimit =>
        cases ho
        exact h.storeLimit howes (of_decide_eq_true hin) rfl (fun n hn => by cases hn)
      | enterStoreDeclared keep =>
        cases ho
        exact h.storeDeclared howes (of_decide_eq_true hin) (by rw [hc]; rfl) rfl
      | exitStoreDeclared n =>
        cases ho
        obtain rfl := h.loaded t n hc
        exact h.storeDeclared howes (of_decide_eq_true hin) (by rw [hc]; rfl) rfl
      | exitLoadTotal =>
        exact h.frame (t := t) ⟨rfl, rfl, rfl, rfl⟩
          (fun n hn => by cases hn; exact h.total_eq) (by rw [hc]; rfl) (by rw [hc]; rfl)
      | _ => cases ho
  · obtain ⟨c', hstep, ho, hc', hahead⟩ := callStep_swap hs
    have howes : owes (s.call t) = none := by rw [hc]; exact ho
    have howes' : owes (some c') = some w := hc'
    have hswap := h.swap howes howes' hahead (fun n hn => by cases hn; cases hahead)
    cases c <;> first | simpa only [State.access, hs, hstep] using hswap | cases hs

theorem ordered_step {total : ℕ} (s : State) (l : Label) (s' : State) (h : Ordered total s)
    (hin : inOrder s l) (hs : step s l = some s') : Ordered total s' := by
  cases l with
  | start t c =>
    simp only [step] at hs
    split at hs
    · next hstart =>
      obtain ⟨hfree, hentry⟩ := hstart
      obtain rfl := Option.some_inj.mp hs
      have hc : owes (some c) = none ∧ ∀ n, c ≠ .exitStoreDeclared n := by
        rcases hentry with ⟨keep, rfl⟩ | rfl | ⟨w, rfl⟩ <;>
          exact ⟨rfl, fun n hn => by cases hn⟩
      exact h.frame (m := s.memory) (t := t) ⟨rfl, rfl, rfl, rfl⟩
        (fun n hn => absurd (Option.some_inj.mp hn) (hc.2 n)) (by rw [hfree, hc.1]; rfl)
        (by rw [hfree, limitAhead_of_owes_eq_none hc.1]; rfl)
    · cases hs
  | advance t =>
    obtain ⟨c, hc, rfl⟩ := Option.map_eq_some_iff.mp hs
    exact h.access hc hin

/-- In every interleaving that stores in order, whenever no call is in progress
the three statics agree with the last swap. -/
theorem consistent_of_inOrder (total : ℕ) (labels : List Label)
    (h : Admits step (fun s l => inOrder s l) (State.afterReset total) labels) :
    Always step (Consistent total) (State.afterReset total) labels :=
  (always_of_admits ordered_step (Ordered.afterReset total) h).mono fun _ => Ordered.consistent

/-- The monitor enters, then a packet thread exits: nothing overlaps. -/
def enterThenExit : List Label :=
  .start 0 (enter 2) :: List.replicate 8 (.advance 0) ++
    .start 1 exit :: List.replicate 5 (.advance 1)

theorem consistent_enterThenExit :
    Always step (Consistent 27) (State.afterReset 27) enterThenExit :=
  consistent_of_inOrder 27 enterThenExit (by decide)

/-- The monitor (thread 0) wins the swap of `enter 2`, a packet thread runs a
whole `exit`, and then the monitor's stores land. -/
def staleEnter : List Label :=
  [.start 0 (enter 2), .advance 0, .advance 0, .start 1 exit, .advance 1, .advance 1, .advance 1,
    .advance 1, .advance 1] ++ List.replicate 6 (.advance 0)

/-- `ACTIVE` is off and nobody is inside a call, but only two workers are allowed. -/
theorem stale_enter_parks_workers :
    ∃ s, run step (State.afterReset 27) staleEnter = some s ∧ Quiescent s ∧
      s.memory.active = false ∧ s.memory.limit = 2 ∧ s.memory.declared = 2 ∧
      ¬ Consistent 27 s := by
  have hidle : ∀ s, run step (State.afterReset 27) staleEnter = some s → Quiescent s := by
    intro s hs t
    obtain rfl := Option.some_inj.mp hs
    match t with
    | 0 => rfl
    | 1 => rfl
    | _ + 2 => rfl
  refine ⟨_, rfl, hidle _ rfl, rfl, rfl, rfl, fun h => ?_⟩
  exact absurd (h (hidle _ rfl)).2 (by decide)

end Csqtt.Idle
