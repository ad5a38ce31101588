/-
Numbers written as bytes, the most significant one first.

* `ofBytes_toBytes` — reading `n` bytes back gives the number modulo `256 ^ n`;
* `toBytes_inj` — so two words with the same bytes are the same word;
* `toBytes_ofBytes`, `exists_word` — any bytes are those of their number.
-/
import Mathlib.Data.BitVec
import Mathlib.Tactic.Ring

namespace ByteOrder

/-- The last `n` bytes of `x`. -/
def toBytes : ℕ → ℕ → List (BitVec 8)
  | 0, _ => []
  | n + 1, x => BitVec.ofNat 8 (x / 256 ^ n) :: toBytes n x

def ofBytes (bytes : List (BitVec 8)) : ℕ := bytes.foldl (fun x byte => x * 256 + byte.toNat) 0

@[simp] theorem toBytes_length (n x : ℕ) : (toBytes n x).length = n := by
  induction n with
  | zero => rfl
  | succ n ih => rw [toBytes, List.length_cons, ih]

theorem toBytes_two (x : ℕ) : toBytes 2 x = [BitVec.ofNat 8 (x / 256), BitVec.ofNat 8 x] := by
  simp [toBytes]

theorem foldl_toBytes (n x acc : ℕ) :
    (toBytes n x).foldl (fun x byte => x * 256 + byte.toNat) acc = acc * 256 ^ n + x % 256 ^ n := by
  induction n generalizing acc with
  | zero => simp [toBytes, Nat.mod_one]
  | succ n ih =>
    have hbyte : (BitVec.ofNat 8 (x / 256 ^ n)).toNat = x / 256 ^ n % 256 := BitVec.toNat_ofNat _ _
    -- the first byte counts `256 ^ n` times
    have hsplit : x % 256 ^ (n + 1) = x / 256 ^ n % 256 * 256 ^ n + x % 256 ^ n := by
      rw [pow_succ, Nat.mod_mul, Nat.add_comm, Nat.mul_comm]
    rw [toBytes, List.foldl_cons, ih, hbyte, hsplit, pow_succ]
    ring

/-- What lies above the bytes that are written does not matter. -/
theorem toBytes_mod (n x : ℕ) : toBytes n (x % 256 ^ n) = toBytes n x := by
  have hdiv : ∀ m, m ≤ n → toBytes m (x % 256 ^ n) = toBytes m x := by
    intro m hm
    induction m with
    | zero => rfl
    | succ m ih =>
      rw [toBytes, toBytes, ih (by omega)]
      congr 1
      apply BitVec.eq_of_toNat_eq
      have hpow : 256 ^ n = 256 ^ m * (256 * 256 ^ (n - m - 1)) := by
        rw [← pow_succ', ← pow_add]
        congr 1
        omega
      rw [BitVec.toNat_ofNat, BitVec.toNat_ofNat, hpow, Nat.mod_mul_right_div_self]
      exact Nat.mod_mod_of_dvd _ (Dvd.intro _ rfl)
  exact hdiv n (Nat.le_refl n)

theorem ofBytes_toBytes (n x : ℕ) : ofBytes (toBytes n x) = x % 256 ^ n := by
  rw [ofBytes, foldl_toBytes, Nat.zero_mul, Nat.zero_add]

theorem ofBytes_toBytes_word {n w : ℕ} (x : BitVec w) (hw : 2 ^ w = 256 ^ n) :
    BitVec.ofNat w (ofBytes (toBytes n x.toNat)) = x := by
  rw [ofBytes_toBytes, ← hw, Nat.mod_eq_of_lt x.isLt, BitVec.ofNat_toNat, BitVec.setWidth_eq]

theorem toBytes_inj {n w : ℕ} {x y : BitVec w} (hw : 2 ^ w = 256 ^ n) :
    toBytes n x.toNat = toBytes n y.toNat ↔ x = y := by
  refine ⟨fun h => ?_, fun h => h ▸ rfl⟩
  rw [← ofBytes_toBytes_word x hw, h, ofBytes_toBytes_word y hw]

theorem ofBytes_cons (byte : BitVec 8) (bytes : List (BitVec 8)) :
    ofBytes (byte :: bytes) = byte.toNat * 256 ^ bytes.length + ofBytes bytes := by
  have hfold : ∀ acc, bytes.foldl (fun x byte => x * 256 + byte.toNat) acc =
      acc * 256 ^ bytes.length + ofBytes bytes := by
    induction bytes with
    | nil => simp [ofBytes]
    | cons b bytes ih =>
      intro acc
      have hbytes : ofBytes (b :: bytes) = (0 * 256 + b.toNat) * 256 ^ bytes.length + ofBytes bytes :=
        ih _
      rw [List.foldl_cons, ih, hbytes, List.length_cons, pow_succ]
      ring
  rw [ofBytes, List.foldl_cons, hfold, Nat.zero_mul, Nat.zero_add]

theorem ofBytes_lt (bytes : List (BitVec 8)) : ofBytes bytes < 256 ^ bytes.length := by
  induction bytes with
  | nil => exact Nat.one_pos
  | cons b bytes ih =>
    have hb := b.isLt
    have hle : (b.toNat + 1) * 256 ^ bytes.length ≤ 256 * 256 ^ bytes.length :=
      Nat.mul_le_mul_right _ (by omega)
    rw [ofBytes_cons, List.length_cons, pow_succ, Nat.mul_comm (256 ^ bytes.length)]
    rw [Nat.succ_mul] at hle
    omega

/-- Bytes are written back from their number. -/
theorem toBytes_ofBytes (bytes : List (BitVec 8)) : toBytes bytes.length (ofBytes bytes) = bytes := by
  induction bytes with
  | nil => rfl
  | cons b bytes ih =>
    have hlt := ofBytes_lt bytes
    have hpos : 0 < 256 ^ bytes.length := Nat.pow_pos (by omega)
    have hhead : (b.toNat * 256 ^ bytes.length + ofBytes bytes) / 256 ^ bytes.length = b.toNat := by
      rw [Nat.mul_comm, Nat.mul_add_div hpos, Nat.div_eq_of_lt hlt, Nat.add_zero]
    have htail : toBytes bytes.length (b.toNat * 256 ^ bytes.length + ofBytes bytes) =
        toBytes bytes.length (ofBytes bytes) := by
      rw [← toBytes_mod, Nat.mul_comm, Nat.mul_add_mod, Nat.mod_eq_of_lt hlt]
    rw [ofBytes_cons, List.length_cons, toBytes, hhead, htail, ih, BitVec.ofNat_toNat,
      BitVec.setWidth_eq]

/-- Enough bytes begin with a word. -/
theorem exists_word {n w : ℕ} (hw : 2 ^ w = 256 ^ n) {bytes : List (BitVec 8)}
    (h : n ≤ bytes.length) :
    bytes = toBytes n (BitVec.ofNat w (ofBytes (bytes.take n))).toNat ++ bytes.drop n := by
  have hlen : (bytes.take n).length = n := List.length_take_of_le h
  have hlt := ofBytes_lt (bytes.take n)
  rw [hlen, ← hw] at hlt
  have hword := toBytes_ofBytes (bytes.take n)
  rw [hlen] at hword
  rw [BitVec.toNat_ofNat, Nat.mod_eq_of_lt hlt, hword, List.take_append_drop]

end ByteOrder
