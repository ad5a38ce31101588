/-
Go's strings, as far as they are sliced, trimmed and lower-cased.

A Go string is a sequence of bytes and need not be text. It is taken here the way `range`
walks it: `Rune.char` for a code point, `Rune.byte` for a byte that belongs to none. Offsets
are in bytes, so `s[n:]` can fall inside of a code point, whose last bytes are then stray, or
behind the end, where Go panics.

* **`sliceFrom_eq_none`**: exactly the offsets behind the end panic;
* **`CaseTable.lower_eq_slash`**: lower-casing makes no slash;
* **`byteLen_toLower_le`**: nor a longer text, where no character grows.
-/
import Csqtt.Text
import Csqtt.TextPieces
import Mathlib

namespace Csqtt.GoText
open Csqtt.Pieces

inductive Rune where
  | char (c : Char)
  | byte (b : UInt8)
deriving DecidableEq, Repr

abbrev GoString := List Rune

/-- How many bytes it takes. -/
def Rune.width : Rune → Nat
  | char c => c.utf8Size
  | byte _ => 1

theorem Rune.width_pos (r : Rune) : 0 < r.width := by
  cases r with
  | char c => exact c.utf8Size_pos
  | byte b => exact Nat.one_pos

/-- `len(s)`. -/
def byteLen (s : GoString) : Nat := (s.map Rune.width).sum

@[simp] theorem byteLen_nil : byteLen [] = 0 := rfl

@[simp] theorem byteLen_cons (r : Rune) (s : GoString) :
    byteLen (r :: s) = r.width + byteLen s := by
  simp [byteLen]

@[simp] theorem byteLen_append (s s' : GoString) :
    byteLen (s ++ s') = byteLen s + byteLen s' := by
  simp [byteLen]

theorem byteLen_le_of_part {s s' : GoString} (h : s <:+: s') : byteLen s ≤ byteLen s' := by
  obtain ⟨a, b, rfl⟩ := h
  rw [byteLen_append, byteLen_append]
  omega

theorem length_le_byteLen (s : GoString) : s.length ≤ byteLen s := by
  induction s with
  | nil => exact Nat.le_refl _
  | cons r s ih =>
    have := r.width_pos
    rw [List.length_cons, byteLen_cons]
    omega

/-- A part that is as long as the whole is the whole. -/
theorem eq_of_part_of_byteLen {s s' : GoString} (h : s <:+: s')
    (hlen : byteLen s' ≤ byteLen s) : s = s' := by
  obtain ⟨a, b, rfl⟩ := h
  rw [byteLen_append, byteLen_append] at hlen
  have ha := length_le_byteLen a
  have hb := length_le_byteLen b
  obtain rfl : a = [] := List.eq_nil_of_length_eq_zero (by omega)
  obtain rfl : b = [] := List.eq_nil_of_length_eq_zero (by omega)
  simp

/-- The bytes of one rune from the `n`-th on, which begin no code point. -/
def Rune.strayFrom (r : Rune) (n : Nat) : GoString :=
  match r with
  | char c => ((String.utf8EncodeChar c).drop n).map byte
  | byte _ => []

/-- `s[n:]`, `none` where it panics. -/
def sliceFrom : GoString → Nat → Option GoString
  | s, 0 => some s
  | [], _ + 1 => none
  | r :: s, n + 1 =>
    if r.width ≤ n + 1 then sliceFrom s (n + 1 - r.width) else some (r.strayFrom (n + 1) ++ s)

theorem byteLen_bytes (l : List UInt8) : byteLen (l.map Rune.byte) = l.length := by
  induction l with
  | nil => rfl
  | cons b l ih => simp [ih, Rune.width, Nat.add_comm]

theorem byteLen_sliceFrom {s rest : GoString} {n : Nat} (h : sliceFrom s n = some rest) :
    byteLen rest + n = byteLen s := by
  induction s generalizing n with
  | nil =>
    cases n with
    | zero => simp_all [sliceFrom]
    | succ n => cases h
  | cons r s ih =>
    cases n with
    | zero =>
      obtain rfl : r :: s = rest := by simpa [sliceFrom] using h
      rfl
    | succ n =>
      rw [sliceFrom] at h
      split at h
      · rename_i hle
        have := ih h
        rw [byteLen_cons]
        omega
      · rename_i hgt
        obtain rfl := Option.some.inj h
        -- the slice starts inside of `r`
        cases r with
        | byte b => exact absurd (Nat.succ_le_succ (Nat.zero_le n)) hgt
        | char c =>
          have hlen := String.length_utf8EncodeChar c
          simp only [Rune.width, Rune.strayFrom, byteLen_append, byteLen_bytes,
            List.length_drop, byteLen_cons, hlen] at hgt ⊢
          omega

/-- A slice has nothing but what was there and stray bytes. -/
theorem mem_sliceFrom {s rest : GoString} {n : Nat} (h : sliceFrom s n = some rest) {r : Rune}
    (hr : r ∈ rest) : r ∈ s ∨ ∃ b, r = .byte b := by
  induction s generalizing n with
  | nil =>
    cases n with
    | zero =>
      obtain rfl : [] = rest := by simpa [sliceFrom] using h
      cases hr
    | succ n => cases h
  | cons x s ih =>
    cases n with
    | zero =>
      obtain rfl : x :: s = rest := by simpa [sliceFrom] using h
      exact .inl hr
    | succ n =>
      rw [sliceFrom] at h
      split at h
      · exact (ih h).imp_left (List.mem_cons_of_mem x)
      · obtain rfl := Option.some.inj h
        rcases List.mem_append.mp hr with hr | hr
        · cases x with
          | byte b => cases hr
          | char c =>
            obtain ⟨b, -, rfl⟩ := List.mem_map.mp hr
            exact .inr ⟨b, rfl⟩
        · exact .inl (List.mem_cons_of_mem x hr)

/-- Exactly the offsets behind the end panic. -/
theorem sliceFrom_eq_none {s : GoString} {n : Nat} :
    sliceFrom s n = none ↔ byteLen s < n := by
  induction s generalizing n with
  | nil =>
    cases n with
    | zero => simp [sliceFrom]
    | succ n => simp [sliceFrom]
  | cons r s ih =>
    cases n with
    | zero => simp [sliceFrom]
    | succ n =>
      rw [sliceFrom, byteLen_cons]
      split
      · rename_i hle
        rw [ih]
        omega
      · rename_i hgt
        simp only [reduceCtorEq, false_iff]
        omega

theorem sliceFrom_append (s rest : GoString) : sliceFrom (s ++ rest) (byteLen s) = some rest := by
  induction s with
  | nil => cases rest <;> rfl
  | cons r s ih =>
    obtain ⟨n, hn⟩ : ∃ n, byteLen (r :: s) = n + 1 :=
      ⟨byteLen (r :: s) - 1, by have := r.width_pos; rw [byteLen_cons]; omega⟩
    have hrest : n + 1 - r.width = byteLen s := by rw [byteLen_cons] at hn; omega
    have hle : r.width ≤ n + 1 := by rw [byteLen_cons] at hn; omega
    rw [hn, List.cons_append, sliceFrom, if_pos hle, hrest, ih]

theorem toLower_eq_self {c : Char} (h : c.toLower.isLower = false) : c.toLower = c := by
  rw [Char.isLower_toLower_eq_isAlpha] at h
  refine Char.toLower_eq_of_not_isUpper fun hupper => ?_
  rw [Char.isAlpha, hupper] at h
  cases h

theorem range_of_isUpper {c : Char} (h : c.isUpper) : 65 ≤ c.toNat ∧ c.toNat ≤ 90 := by
  simpa [Char.isUpper, UInt32.le_iff_toNat_le] using h

theorem ascii_of_toLower {c : Char} (h : c.toLower.toNat < 128) : c.toNat < 128 := by
  by_cases hupper : c.isUpper
  · exact Nat.lt_of_le_of_lt (range_of_isUpper hupper).2 (by decide)
  · rwa [Char.toLower_eq_of_not_isUpper hupper] at h

/-- Unicode's lower case. Besides the ASCII letters only two characters have one that is
ASCII; the rest of the table is of no account here. -/
structure CaseTable where
  beyond : Char → Char
  beyond_ascii : ∀ c, 128 ≤ (beyond c).toNat

/-- `unicode.ToLower`. -/
def CaseTable.lower (t : CaseTable) (c : Char) : Char :=
  if c.toNat < 128 then c.toLower
  else if c = '\u0130' then 'i'
  else if c = '\u212a' then 'k'
  else t.beyond c

theorem CaseTable.lower_ascii (t : CaseTable) {c : Char} (h : c.toNat < 128) :
    t.lower c = c.toLower := if_pos h

/-- Only what was a slash is one in lower case. -/
theorem CaseTable.lower_eq_slash {t : CaseTable} {c : Char} (h : t.lower c = '/') : c = '/' := by
  rw [lower] at h
  split at h
  · rw [← h]
    exact (toLower_eq_self (by rw [h]; decide)).symm
  · split at h
    · cases h
    · split at h
      · cases h
      · have := t.beyond_ascii c
        rw [h] at this
        exact absurd this (by decide)

/-- One step of `strings.Map`, which writes the replacement character for a stray byte. -/
def CaseTable.lowerRune (t : CaseTable) : Rune → Rune
  | .char c => .char (t.lower c)
  | .byte _ => .char '\uFFFD'

/-- `strings.ToLower`. -/
def toLower (t : CaseTable) (s : GoString) : GoString := s.map t.lowerRune

@[simp] theorem toLower_append (t : CaseTable) (s s' : GoString) :
    toLower t (s ++ s') = toLower t s ++ toLower t s' := List.map_append

/-- No rune of the text takes more bytes in lower case. -/
def NoneGrows (t : CaseTable) (s : GoString) : Prop := ∀ r ∈ s, (t.lowerRune r).width ≤ r.width

theorem byteLen_toLower_le {t : CaseTable} {s : GoString} (h : NoneGrows t s) :
    byteLen (toLower t s) ≤ byteLen s := by
  induction s with
  | nil => exact Nat.le_refl _
  | cons r s ih =>
    have hr := h r List.mem_cons_self
    have hs := ih fun r' hr' => h r' (List.mem_cons_of_mem r hr')
    simp only [toLower, List.map_cons, byteLen_cons] at hs ⊢
    omega

/-- Text, all of it code points. -/
def ofChars (l : List Char) : GoString := l.map .char

@[simp] theorem ofChars_append (l l' : List Char) : ofChars (l ++ l') = ofChars l ++ ofChars l' :=
  List.map_append

theorem ofChars_inj {l l' : List Char} : ofChars l = ofChars l' ↔ l = l' :=
  (List.map_injective_iff.mpr fun _ _ h => Rune.char.inj h).eq_iff

/-- What arrives of a string through JSON, where stray bytes are replaced. -/
def wire (s : GoString) : List Char :=
  s.map fun
    | .char c => c
    | .byte _ => '\uFFFD'

@[simp] theorem wire_ofChars (l : List Char) : wire (ofChars l) = l := by
  rw [wire, ofChars, List.map_map]
  exact List.map_id l

@[simp] theorem wire_append (s s' : GoString) : wire (s ++ s') = wire s ++ wire s' :=
  List.map_append

/-- A test of characters, which no stray byte passes. -/
def Rune.is (p : Char → Bool) : Rune → Bool
  | char c => p c
  | byte _ => false

/-- `strings.TrimSpace`. -/
def trimSpace (s : GoString) : GoString := trimMatches (Rune.is Text.isWhitespace) s

/-! ### Text in a Go string -/

theorem trimSpace_ofChars (l : List Char) :
    trimSpace (ofChars l) = ofChars (trimMatches Text.isWhitespace l) :=
  trimMatches_map Rune.char _ l

theorem toLower_ofChars (t : CaseTable) (l : List Char) :
    toLower t (ofChars l) = ofChars (l.map t.lower) := by
  rw [toLower, ofChars, List.map_map, ofChars, List.map_map]
  rfl

theorem index?_ofChars (needle l : List Char) :
    index? (ofChars needle) (ofChars l) = index? needle l :=
  index?_map (fun _ _ h => Rune.char.inj h) needle l

/-- ASCII has one byte a character. -/
theorem byteLen_ascii {l : List Char} (h : ∀ c ∈ l, c.toNat < 128) :
    byteLen (ofChars l) = l.length := by
  induction l with
  | nil => rfl
  | cons c l ih =>
    have hc : c.utf8Size = 1 :=
      Char.utf8Size_eq_one_iff.mpr (UInt32.le_iff_toNat_le.mpr
        (Nat.le_of_lt_succ (h c List.mem_cons_self)))
    have hl := ih fun c' hc' => h c' (List.mem_cons_of_mem c hc')
    rw [ofChars, List.map_cons, byteLen_cons, Rune.width, hc, List.length_cons]
    rw [ofChars] at hl
    omega

end Csqtt.GoText
