/-
Reading from a stream that arrives in pieces.

A reader has bytes that have arrived, and the pieces that the next reads will bring; where
they end, a read fails.  What is read depends on the bytes alone and not on the pieces:
`readFull_sound` and `readFull_complete`, and the same for `readByte`.
-/
import Mathlib.Data.List.Basic

variable {α : Type*}

structure ByteReader (α : Type*) where
  buffered : List α
  /-- What each of the next reads brings. -/
  reads : List (List α)
  deriving DecidableEq

namespace ByteReader

/-- Everything that is still to be read. -/
def bytes (r : ByteReader α) : List α := r.buffered ++ r.reads.flatten

/-- The next byte; with nothing buffered, the next piece is read. -/
def readByteFrom : List α → List (List α) → Option (α × ByteReader α)
  | b :: buffered, reads => some (b, ⟨buffered, reads⟩)
  | [], [] => none
  | [], piece :: reads => readByteFrom piece reads

def readByte (r : ByteReader α) : Option (α × ByteReader α) := readByteFrom r.buffered r.reads

/-- The next `n` bytes; what is buffered is taken first, then one piece after the other. -/
def readFullFrom (n : ℕ) (buffered : List α) : List (List α) → Option (List α × ByteReader α)
  | [] => if n ≤ buffered.length then some (buffered.take n, ⟨buffered.drop n, []⟩) else none
  | piece :: reads =>
    if n ≤ buffered.length then some (buffered.take n, ⟨buffered.drop n, piece :: reads⟩)
    else (readFullFrom (n - buffered.length) piece reads).map fun (got, r) => (buffered ++ got, r)

def readFull (r : ByteReader α) (n : ℕ) : Option (List α × ByteReader α) :=
  readFullFrom n r.buffered r.reads

/-! ### The pieces do not matter -/

theorem readByte_sound {r r' : ByteReader α} {b : α} (h : r.readByte = some (b, r')) :
    r.bytes = b :: r'.bytes := by
  obtain ⟨buffered, reads⟩ := r
  rw [readByte] at h
  induction reads generalizing buffered with
  | nil =>
    cases buffered with
    | nil => exact nomatch h
    | cons c buffered =>
      cases h
      rfl
  | cons piece reads ih =>
    cases buffered with
    | nil => exact ih piece h
    | cons c buffered =>
      cases h
      rfl

theorem readByte_complete {r : ByteReader α} {b : α} {rest : List α} (h : r.bytes = b :: rest) :
    ∃ r', r.readByte = some (b, r') ∧ r'.bytes = rest := by
  obtain ⟨buffered, reads⟩ := r
  induction reads generalizing buffered with
  | nil =>
    cases buffered with
    | nil => exact nomatch h
    | cons c buffered =>
      obtain ⟨rfl, hrest⟩ := List.cons.inj h
      exact ⟨⟨buffered, []⟩, rfl, hrest⟩
  | cons piece reads ih =>
    cases buffered with
    | nil => exact ih piece h
    | cons c buffered =>
      obtain ⟨rfl, hrest⟩ := List.cons.inj h
      exact ⟨⟨buffered, piece :: reads⟩, rfl, hrest⟩

theorem readFull_sound {r r' : ByteReader α} {n : ℕ} {got : List α}
    (h : r.readFull n = some (got, r')) : got.length = n ∧ r.bytes = got ++ r'.bytes := by
  obtain ⟨buffered, reads⟩ := r
  rw [readFull] at h
  -- what is buffered is enough
  have henough : ∀ {n : ℕ} {buffered : List α} {reads : List (List α)} {got : List α}
      {r' : ByteReader α}, n ≤ buffered.length →
      some (buffered.take n, (⟨buffered.drop n, reads⟩ : ByteReader α)) = some (got, r') →
      got.length = n ∧ bytes ⟨buffered, reads⟩ = got ++ r'.bytes := by
    intro n buffered reads got r' hlen heq
    cases heq
    refine ⟨List.length_take_of_le hlen, ?_⟩
    rw [bytes, bytes, ← List.append_assoc, List.take_append_drop]
  induction reads generalizing n buffered got with
  | nil =>
    rw [readFullFrom] at h
    split_ifs at h with hlen
    exact henough hlen h
  | cons piece reads ih =>
    rw [readFullFrom] at h
    split_ifs at h with hlen
    · exact henough hlen h
    · obtain ⟨⟨more, r⟩, hmore, heq⟩ := Option.map_eq_some_iff.mp h
      cases heq
      obtain ⟨hlength, hbytes⟩ := ih piece hmore
      refine ⟨?_, ?_⟩
      · rw [List.length_append, hlength]
        exact Nat.add_sub_of_le (Nat.le_of_not_le hlen)
      · rw [List.append_assoc, ← hbytes]
        rfl

theorem readFull_complete {r : ByteReader α} {got rest : List α} (h : r.bytes = got ++ rest) :
    ∃ r', r.readFull got.length = some (got, r') ∧ r'.bytes = rest := by
  obtain ⟨buffered, reads⟩ := r
  have henough : ∀ {reads : List (List α)} {buffered got : List α},
      bytes ⟨buffered, reads⟩ = got ++ rest → got.length ≤ buffered.length →
      buffered.take got.length = got ∧ bytes ⟨buffered.drop got.length, reads⟩ = rest := by
    intro reads buffered got h hlen
    have htake := congrArg (List.take got.length) h
    have hdrop := congrArg (List.drop got.length) h
    rw [bytes] at htake hdrop
    rw [List.take_append_of_le_length hlen, List.take_left] at htake
    rw [List.drop_append_of_le_length hlen, List.drop_left] at hdrop
    exact ⟨htake, hdrop⟩
  rw [readFull]
  induction reads generalizing buffered got with
  | nil =>
    have hlen : got.length ≤ buffered.length := by
      have hlength := congrArg List.length h
      simp only [bytes, List.flatten_nil, List.append_nil, List.length_append] at hlength
      omega
    obtain ⟨htake, hdrop⟩ := henough h hlen
    rw [readFullFrom, if_pos hlen, htake]
    exact ⟨_, rfl, hdrop⟩
  | cons piece reads ih =>
    rw [readFullFrom]
    split_ifs with hlen
    · obtain ⟨htake, hdrop⟩ := henough h hlen
      rw [htake]
      exact ⟨_, rfl, hdrop⟩
    · -- what is buffered comes first in what is got
      have hbegins : buffered <+: got := by
        refine List.prefix_of_prefix_length_le ⟨_, h⟩ ⟨_, rfl⟩ (Nat.le_of_not_le hlen)
      obtain ⟨more, rfl⟩ := hbegins
      have hmore : bytes ⟨piece, reads⟩ = more ++ rest := by
        rw [bytes, List.flatten_cons, List.append_assoc] at h
        exact List.append_cancel_left h
      obtain ⟨r', hr', hrest⟩ := ih piece hmore
      refine ⟨r', ?_, hrest⟩
      have hlength : (buffered ++ more).length - buffered.length = more.length := by
        rw [List.length_append, Nat.add_sub_cancel_left]
      rw [hlength]
      exact congrArg (Option.map _) hr'

end ByteReader
