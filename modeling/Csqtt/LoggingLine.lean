/-
The bound on a formatted log line.

`fmt::write` hands a text over in pieces, and `BoundedLine::write_str` keeps what fits into
`MAX_LINE_BYTES`.  The end of the piece that does not fit is walked back to a character
boundary, and every later piece is dropped.

`format_line_longest` — so the line depends on the text alone and not on its pieces: it is the
longest beginning of whole characters that fits, and `full` says that something is missing.
-/
import Mathlib.Data.List.Infix
import Mathlib.Data.Char

namespace Csqtt.Logging

/-- `MAX_LINE_BYTES`. -/
def maxLineBytes : ℕ := 4096

/-- `len()` of a text, in bytes. -/
def byteLen : List Char → ℕ
  | [] => 0
  | c :: text => c.utf8Size + byteLen text

@[simp] theorem byteLen_nil : byteLen [] = 0 := rfl

@[simp] theorem byteLen_cons (c : Char) (text : List Char) :
    byteLen (c :: text) = c.utf8Size + byteLen text := rfl

@[simp] theorem byteLen_append (a b : List Char) : byteLen (a ++ b) = byteLen a + byteLen b := by
  induction a with
  | nil => rw [List.nil_append, byteLen_nil, Nat.zero_add]
  | cons c a ih => rw [List.cons_append, byteLen_cons, byteLen_cons, ih, Nat.add_assoc]

/-- `is_char_boundary`. -/
def isCharBoundary : List Char → ℕ → Bool
  | _, 0 => true
  | [], _ + 1 => false
  | c :: text, n => decide (c.utf8Size ≤ n) && isCharBoundary text (n - c.utf8Size)

theorem isCharBoundary_cons (c : Char) (text : List Char) {n : ℕ} (hn : 0 < n) :
    isCharBoundary (c :: text) n = (decide (c.utf8Size ≤ n) && isCharBoundary text (n - c.utf8Size)) := by
  cases n with
  | zero => exact absurd hn (Nat.lt_irrefl 0)
  | succ n => rfl

/-- `while !value.is_char_boundary(end) { end -= 1 }`. -/
def walkBack (text : List Char) : ℕ → ℕ
  | 0 => 0
  | n + 1 => if isCharBoundary text (n + 1) then n + 1 else walkBack text n

/-- `&value[..end]`, where `end` is a boundary. -/
def sliceTo : List Char → ℕ → List Char
  | [], _ => []
  | c :: text, n => if c.utf8Size ≤ n then c :: sliceTo text (n - c.utf8Size) else []

structure BoundedLine where
  value : List Char := []
  full : Bool := false
  deriving DecidableEq

namespace BoundedLine

/-- `write_str`. -/
def writeStr (line : BoundedLine) (value : List Char) : BoundedLine :=
  if line.full then line
  else
    let remaining := maxLineBytes - byteLen line.value
    if byteLen value ≤ remaining then { line with value := line.value ++ value }
    else
      { value := line.value ++ sliceTo value (walkBack value (min remaining (byteLen value)))
        full := true }

/-- `format_line`, for a text that comes in these pieces. -/
def format (pieces : List (List Char)) : BoundedLine := pieces.foldl writeStr {}

end BoundedLine

/-! ### The longest beginning that fits -/

/-- The characters from the start that fit into so many bytes. -/
def fit (text : List Char) (limit : ℕ) : List Char := sliceTo text limit

theorem fit_cons (c : Char) (text : List Char) (limit : ℕ) :
    fit (c :: text) limit =
      if c.utf8Size ≤ limit then c :: fit text (limit - c.utf8Size) else [] := rfl

theorem fit_begins (text : List Char) (limit : ℕ) : fit text limit <+: text := by
  induction text generalizing limit with
  | nil => exact List.prefix_rfl
  | cons c text ih =>
    rw [fit_cons]
    split_ifs
    · exact List.cons_prefix_cons.mpr ⟨rfl, ih _⟩
    · exact List.nil_prefix

theorem byteLen_fit_le (text : List Char) (limit : ℕ) : byteLen (fit text limit) ≤ limit := by
  induction text generalizing limit with
  | nil => exact Nat.zero_le _
  | cons c text ih =>
    rw [fit_cons]
    split_ifs with hc
    · have hrest := ih (limit - c.utf8Size)
      rw [byteLen_cons]
      omega
    · exact Nat.zero_le _

/-- No longer beginning of whole characters fits. -/
theorem fit_longest {text start : List Char} {limit : ℕ} (hstart : start <+: text)
    (hlen : byteLen start ≤ limit) : start <+: fit text limit := by
  induction text generalizing start limit with
  | nil => rw [List.prefix_nil.mp hstart]; exact List.nil_prefix
  | cons c text ih =>
    cases start with
    | nil => exact List.nil_prefix
    | cons d start =>
      obtain ⟨rfl, hrest⟩ := List.cons_prefix_cons.mp hstart
      rw [byteLen_cons] at hlen
      rw [fit_cons, if_pos (by omega)]
      exact List.cons_prefix_cons.mpr ⟨rfl, ih hrest (by omega)⟩

theorem fit_of_le {text : List Char} {limit : ℕ} (h : byteLen text ≤ limit) :
    fit text limit = text :=
  (fit_begins text limit).eq_of_length
    ((fit_longest List.prefix_rfl h).length_le.antisymm' (fit_begins text limit).length_le)

theorem fit_append {a : List Char} {limit : ℕ} (h : byteLen a ≤ limit) (b : List Char) :
    fit (a ++ b) limit = a ++ fit b (limit - byteLen a) := by
  induction a generalizing limit with
  | nil => simp [fit]
  | cons c a ih =>
    rw [byteLen_cons] at h
    rw [List.cons_append, fit_cons, if_pos (by omega), ih (by omega), byteLen_cons,
      List.cons_append, Nat.sub_sub]

/-- Once something is missing, what comes later does not matter. -/
theorem fit_append_of_lt {a : List Char} {limit : ℕ} (h : limit < byteLen a) (b : List Char) :
    fit (a ++ b) limit = fit a limit := by
  induction a generalizing limit with
  | nil => exact absurd h (Nat.not_lt_zero _)
  | cons c a ih =>
    rw [byteLen_cons] at h
    rw [List.cons_append, fit_cons, fit_cons]
    split_ifs with hc
    · rw [ih (by omega)]
    · rfl

/-! ### Walking back -/

theorem isCharBoundary_byteLen_fit (text : List Char) (limit : ℕ) :
    isCharBoundary text (byteLen (fit text limit)) = true := by
  induction text generalizing limit with
  | nil => rfl
  | cons c text ih =>
    rw [fit_cons]
    split_ifs with hc
    · have hpos := c.utf8Size_pos
      have hrest := ih (limit - c.utf8Size)
      rw [byteLen_cons, isCharBoundary_cons c text (by omega), Nat.add_sub_cancel_left, hrest]
      simp
    · rfl

theorem le_byteLen_fit {text : List Char} {n limit : ℕ} (hn : isCharBoundary text n = true)
    (hle : n ≤ limit) : n ≤ byteLen (fit text limit) := by
  induction text generalizing n limit with
  | nil =>
    cases n with
    | zero => exact Nat.zero_le _
    | succ n => cases hn
  | cons c text ih =>
    cases n with
    | zero => exact Nat.zero_le _
    | succ n =>
      rw [isCharBoundary_cons c text n.succ_pos, Bool.and_eq_true, decide_eq_true_eq] at hn
      have hrest := @ih (n + 1 - c.utf8Size) (limit - c.utf8Size) hn.2 (by omega)
      rw [fit_cons, if_pos (by omega), byteLen_cons]
      omega

/-- The walk ends behind the longest beginning that fits. -/
theorem walkBack_eq (text : List Char) (n : ℕ) : walkBack text n = byteLen (fit text n) := by
  induction n with
  | zero => exact (Nat.le_zero.mp (byteLen_fit_le text 0)).symm
  | succ n ih =>
    rw [walkBack]
    split_ifs with hn
    · exact (le_byteLen_fit hn le_rfl).antisymm (byteLen_fit_le text (n + 1))
    · rw [ih]
      have hle := byteLen_fit_le text (n + 1)
      have hne : byteLen (fit text (n + 1)) ≠ n + 1 := fun heq =>
        hn (heq ▸ isCharBoundary_byteLen_fit text (n + 1))
      refine (le_byteLen_fit (isCharBoundary_byteLen_fit text n) ?_).antisymm
        (le_byteLen_fit (isCharBoundary_byteLen_fit text (n + 1)) (by omega))
      exact (byteLen_fit_le text n).trans (Nat.le_succ n)

theorem sliceTo_byteLen_fit (text : List Char) (n : ℕ) :
    sliceTo text (byteLen (fit text n)) = fit text n := by
  have hbegins := fit_longest (fit_begins text n) le_rfl
  exact (hbegins.eq_of_length_le
    (fit_longest (fit_begins text _) ((byteLen_fit_le text _).trans (byteLen_fit_le text n))).length_le).symm

namespace BoundedLine

/-- The line of a text: what fits, and whether something is missing. -/
def ofText (text : List Char) : BoundedLine where
  value := fit text maxLineBytes
  full := decide (maxLineBytes < byteLen text)

theorem writeStr_ofText (text value : List Char) :
    (ofText text).writeStr value = ofText (text ++ value) := by
  rw [writeStr]
  by_cases hfull : maxLineBytes < byteLen text
  · have hmore : maxLineBytes < byteLen (text ++ value) := by
      rw [byteLen_append]
      omega
    have hnow : (ofText text).full = true := decide_eq_true hfull
    rw [if_pos hnow, ofText, ofText, fit_append_of_lt hfull, decide_eq_true hfull,
      decide_eq_true hmore]
  · have hle : byteLen text ≤ maxLineBytes := Nat.le_of_not_lt hfull
    have htext : (ofText text).value = text := fit_of_le hle
    have hnot : (ofText text).full = false := decide_eq_false hfull
    rw [hnot, if_neg Bool.false_ne_true, htext]
    dsimp only
    split_ifs with hfits
    · have hwhole : byteLen (text ++ value) ≤ maxLineBytes := by
        rw [byteLen_append]
        omega
      rw [ofText, fit_of_le hwhole, decide_eq_false (by omega)]
    · -- the walk starts at what remains, which is less than the piece
      have hmore : maxLineBytes < byteLen (text ++ value) := by
        rw [byteLen_append]
        omega
      rw [Nat.min_eq_left (by omega), walkBack_eq, sliceTo_byteLen_fit, ofText, fit_append hle,
        decide_eq_true hmore]

/-- A formatted line depends on its text, not on the pieces that the text came in. -/
theorem format_line_eq (pieces : List (List Char)) : format pieces = ofText pieces.flatten := by
  have hstart : ∀ text, pieces.foldl writeStr (ofText text) = ofText (text ++ pieces.flatten) := by
    induction pieces with
    | nil => exact fun text => by rw [List.flatten_nil, List.append_nil]; rfl
    | cons value pieces ih =>
      intro text
      rw [List.foldl_cons, writeStr_ofText, ih, List.flatten_cons, List.append_assoc]
  exact hstart []

/-- So it is the longest beginning of whole characters that fits, and `full` tells that there
was more. -/
theorem format_line_longest (pieces : List (List Char)) :
    (format pieces).value <+: pieces.flatten ∧ byteLen (format pieces).value ≤ maxLineBytes ∧
      (∀ start, start <+: pieces.flatten → byteLen start ≤ maxLineBytes →
        start <+: (format pieces).value) ∧
      ((format pieces).full = true ↔ (format pieces).value ≠ pieces.flatten) := by
  rw [format_line_eq]
  refine ⟨fit_begins .., byteLen_fit_le .., fun start => fit_longest, ?_⟩
  have hle : byteLen (ofText pieces.flatten).value ≤ maxLineBytes := byteLen_fit_le ..
  rw [show (ofText pieces.flatten).full = decide _ from rfl, decide_eq_true_eq]
  constructor
  · intro hmore hwhole
    rw [hwhole] at hle
    omega
  · intro hcut
    by_contra hnot
    exact hcut (fit_of_le (Nat.le_of_not_lt hnot))

example : fit ['a', 'я', 'b'] 2 = ['a'] ∧ walkBack ['a', 'я', 'b'] 2 = 1 := by decide

end BoundedLine

end Csqtt.Logging
