/-
A shared total of what many parties hold.

A counter that several parties move, each in steps of its own, is exact as long as every
step keeps its own balance: what it adds to the books it adds to the stock or to what it
holds itself.  Nothing here knows what is counted; the amounts are in any monoid where one
may cancel, so a counter in ℕ and the things counted, as a multiset, are both cases.

* `Balanced.move` — one party takes a step, and the others hold what they held;
* `Balanced.restock` — a step of nobody among them;
* `Balanced.le`, `Balanced.eq_zero` — what the books say about the stock and each party.
-/
import Mathlib.Algebra.BigOperators.Fin
import Mathlib.Algebra.Order.BigOperators.Group.Finset
import Mathlib.Tactic.Abel

namespace Ledger

variable {ι M : Type*} [Fintype ι]

/-- The books are what is in stock together with what the parties hold. -/
def Balanced [AddCommMonoid M] (books stock : M) (held : ι → M) : Prop :=
  books = stock + ∑ i, held i

section Moves

variable [AddCancelCommMonoid M] {books books' stock stock' : M} {held held' : ι → M}

theorem Balanced.move [DecidableEq ι] (h : Balanced books stock held) (t : ι)
    (hothers : ∀ i, i ≠ t → held' i = held i)
    (hlocal : books' + (stock + held t) = books + (stock' + held' t)) :
    Balanced books' stock' held' := by
  have hrest : ∑ i ∈ Finset.univ.erase t, held' i = ∑ i ∈ Finset.univ.erase t, held i :=
    Finset.sum_congr rfl fun i hi => hothers i (Finset.ne_of_mem_erase hi)
  have hbefore := Finset.add_sum_erase Finset.univ held (Finset.mem_univ t)
  have hafter := Finset.add_sum_erase Finset.univ held' (Finset.mem_univ t)
  rw [Balanced] at h
  rw [Balanced, ← hafter, hrest]
  rw [h, ← hbefore] at hlocal
  -- what the others hold stands on both sides
  refine add_right_cancel (b := stock + held t) ?_
  rw [hlocal]
  abel

theorem Balanced.restock (h : Balanced books stock held) (hlocal : books' + stock = books + stock') :
    Balanced books' stock' held := by
  rw [Balanced] at h ⊢
  rw [h] at hlocal
  refine add_right_cancel (b := stock) ?_
  rw [hlocal]
  abel

theorem balanced_start : Balanced (0 : M) 0 fun _ : ι => 0 := by
  rw [Balanced, Finset.sum_const_zero, add_zero]

end Moves

section Order

variable {books stock : ℕ} {held : ι → ℕ}

theorem Balanced.le (h : Balanced books stock held) (t : ι) : stock + held t ≤ books := by
  rw [Balanced] at h
  have hle : held t ≤ ∑ i, held i :=
    Finset.single_le_sum (fun _ _ => Nat.zero_le _) (Finset.mem_univ t)
  omega

theorem Balanced.eq_zero (h : Balanced 0 stock held) : stock = 0 ∧ ∀ t, held t = 0 := by
  refine ⟨?_, fun t => ?_⟩
  · rw [Balanced] at h
    omega
  · have hle := h.le t
    omega

end Order

end Ledger
