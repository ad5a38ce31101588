/-
The containers of the source in list form.

* `swapRemove` — `Vec::swap_remove`: the removed slot is refilled from the end, so
  the rest is kept up to order (`cons_swapRemove_perm`);
* `length_keys_insert` — an insertion adds at most one key;
* `total` — the sum of a measure over the values of a finite map, and what an
  insertion does to it (`total_insert`, `total_eq_add_erase`).
-/
import Mathlib.Data.List.AList
import Mathlib.Algebra.BigOperators.Group.List.Basic
import Mathlib.Algebra.GroupWithZero.Nat

namespace Containers

variable {α β : Type*}

/-! ### `swap_remove` -/

/-- Put the last element in place of the `i`-th one and shrink the list. -/
def swapRemove (l : List α) (i : ℕ) : List α :=
  match l.getLast? with
  | some last => (l.set i last).dropLast
  | none => []

theorem cons_swapRemove_perm {l : List α} {i : ℕ} {a : α} (h : l[i]? = some a) :
    (a :: swapRemove l i).Perm l := by
  obtain ⟨hi, hget⟩ := List.getElem?_eq_some_iff.mp h
  have hne : l ≠ [] := List.ne_nil_of_length_pos (Nat.zero_lt_of_lt hi)
  obtain ⟨init, last, rfl⟩ := List.eq_nil_or_concat l |>.resolve_left hne
  simp only [List.concat_eq_append, List.length_append, List.length_singleton] at hi hget ⊢
  rw [swapRemove, List.getLast?_concat]
  simp only
  by_cases hlast : i < init.length
  · rw [List.set_append_left _ _ hlast, List.dropLast_concat]
    rw [List.getElem_append_left hlast] at hget
    rw [List.set_eq_take_append_cons_drop, if_pos hlast]
    calc (a :: (init.take i ++ last :: init.drop (i + 1))).Perm
          (a :: last :: (init.take i ++ init.drop (i + 1))) := List.perm_middle.cons a
      _ |>.Perm (last :: a :: (init.take i ++ init.drop (i + 1))) := List.Perm.swap ..
      _ |>.Perm (last :: (init.take i ++ a :: init.drop (i + 1))) := List.perm_middle.symm.cons _
      _ = last :: init := by rw [← hget, List.getElem_cons_drop, List.take_append_drop]
      _ |>.Perm (init ++ [last]) := (List.perm_append_singleton last init).symm
  · have hi' : i = init.length := by omega
    subst hi'
    rw [List.getElem_concat_length rfl] at hget
    rw [List.set_append_right _ _ (Nat.le_refl _), Nat.sub_self, List.set_cons_zero,
      List.dropLast_concat, ← hget]
    exact (List.perm_append_singleton last init).symm

theorem mem_of_mem_swapRemove {l : List α} {i : ℕ} {a b : α} (h : l[i]? = some a)
    (hb : b ∈ swapRemove l i) : b ∈ l :=
  (cons_swapRemove_perm h).subset (List.mem_cons_of_mem a hb)

theorem length_swapRemove {l : List α} {i : ℕ} {a : α} (h : l[i]? = some a) :
    (swapRemove l i).length + 1 = l.length :=
  (cons_swapRemove_perm h).length_eq

/-! ### The number of keys of a map -/

theorem length_keys_insert [DecidableEq α] (m : AList fun _ : α => β) (a : α) (b : β) :
    (m.insert a b).keys.length = if a ∈ m then m.keys.length else m.keys.length + 1 := by
  rw [AList.keys_insert, List.length_cons]
  by_cases ha : a ∈ m
  · have hpos : 0 < m.keys.length := List.length_pos_of_mem (AList.mem_keys.mp ha)
    rw [if_pos ha, List.length_erase_of_mem (AList.mem_keys.mp ha)]
    omega
  · rw [if_neg ha, List.erase_of_not_mem (mt AList.mem_keys.mpr ha)]

/-! ### Sums over a map -/

/-- The sum of `f` over the values of the map. -/
def total (f : β → ℕ) (m : AList fun _ : α => β) : ℕ := (m.entries.map fun e => f e.2).sum

variable [DecidableEq α]

theorem total_insert (f : β → ℕ) (m : AList fun _ : α => β) (a : α) (b : β) :
    total f (m.insert a b) = f b + total f (m.erase a) := by
  rw [total, AList.entries_insert, List.map_cons, List.sum_cons]
  rfl

/-- A key weighs what its value weighs, or nothing when it is absent. -/
theorem total_eq_add_erase (f : β → ℕ) (m : AList fun _ : α => β) (a : α) {d : β}
    (hd : f d = 0) : total f m = f ((m.lookup a).getD d) + total f (m.erase a) := by
  cases hb : m.lookup a with
  | none =>
    have ha : a ∉ m.entries.keys := AList.lookup_eq_none.mp hb
    have herase : (m.erase a).entries = m.entries := List.kerase_of_notMem_keys ha
    rw [Option.getD_none, hd, Nat.zero_add, total, total, herase]
  | some b =>
    have hmem : (⟨a, b⟩ : Sigma fun _ : α => β) ∈ m.entries := AList.mem_lookup_iff.mp hb
    obtain ⟨c, l₁, l₂, hl₁, hl, hk⟩ := List.exists_of_kerase (List.mem_keys_of_mem hmem)
    have hc : c = b := by
      have hnodup := m.nodupKeys
      have : (⟨a, c⟩ : Sigma fun _ : α => β) ∈ m.entries := hl ▸ List.mem_append_right _ (.head _)
      exact eq_of_heq (Sigma.mk.inj (hnodup.eq_of_fst_eq this hmem rfl)).2
    have herase : (m.erase a).entries = l₁ ++ l₂ := hk
    rw [total, total, herase, hl, hc, Option.getD_some]
    simp only [List.map_append, List.map_cons, List.sum_append, List.sum_cons]
    omega

end Containers
