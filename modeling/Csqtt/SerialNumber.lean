/-
Serial numbers: machine words compared by their distance from a moving base.

`dist b s` is how far `s` lies ahead of `b` modulo `2 ^ w`.  Moving the base to a
word `e` shifts the distances of the words from `e` on (`dist_rebase`) and puts
the words it has passed at the far end (`dist_rebase_of_lt`).
-/
import Mathlib.Data.BitVec

namespace SerialNumber

variable {w : ℕ} {b e s t : BitVec w}

def dist (b s : BitVec w) : ℕ := (s - b).toNat

@[simp] theorem dist_self (b : BitVec w) : dist b b = 0 := by
  rw [dist, BitVec.sub_self, BitVec.toNat_zero]

theorem dist_inj : dist b s = dist b t ↔ s = t := by
  rw [dist, dist, BitVec.toNat_inj]
  exact sub_left_inj

theorem dist_pos : 0 < dist b s ↔ s ≠ b := by
  rw [Nat.pos_iff_ne_zero, ← dist_self b, ne_eq, dist_inj]

theorem dist_add_one (h : dist b s + 1 < 2 ^ w) : dist b (s + 1) = dist b s + 1 := by
  have hone : (1 : BitVec w).toNat = 1 := by
    show (BitVec.ofNat w 1).toNat = 1
    rw [BitVec.toNat_ofNat]
    exact Nat.mod_eq_of_lt (by omega)
  rw [dist, add_sub_right_comm, BitVec.toNat_add_of_lt (by rw [hone]; exact h), hone, dist]

theorem dist_rebase (h : dist b e ≤ dist b s) : dist e s = dist b s - dist b e := by
  rw [dist, ← sub_sub_sub_cancel_right s e b]
  exact BitVec.toNat_sub_of_le h

theorem dist_rebase_of_lt (h : dist b s < dist b e) :
    dist e s = 2 ^ w - (dist b e - dist b s) := by
  rw [dist, ← sub_sub_sub_cancel_right s e b]
  exact BitVec.toNat_sub_of_lt h

end SerialNumber
