/-
Frames in a stream of symbols.

A decoder looks at the symbols that have arrived and finds a frame in front, an error,
or that it needs more.  More symbols do not change what it has found (`Decoder`), so a
stream has one list of frames, however it arrives.

* `parse` — the frames of a whole stream, and what stops it;
* `parse_frames` — frames that decode one by one decode when they are put together.
-/
import Mathlib.Data.List.Basic

namespace Framing

variable {β α ε : Type*}

structure Decoder (β α ε : Type*) where
  /-- The frame in front and the rest; none when more is needed. -/
  decode : List β → Except ε (Option (α × List β))
  shorter : ∀ {symbols frame rest}, decode symbols = .ok (some (frame, rest)) →
    rest.length < symbols.length
  frame_append : ∀ {symbols frame rest} (more : List β),
    decode symbols = .ok (some (frame, rest)) →
      decode (symbols ++ more) = .ok (some (frame, rest ++ more))
  error_append : ∀ {symbols e} (more : List β), decode symbols = .error e →
    decode (symbols ++ more) = .error e

/-- What stops the parsing of a stream. -/
inductive Outcome (β ε : Type*) where
  /-- More symbols are needed; these are left. -/
  | more (symbols : List β)
  | failed (e : ε)
  deriving DecidableEq

/-- The frames of a stream, and what stops the parsing. -/
def parse (d : Decoder β α ε) (symbols : List β) : List α × Outcome β ε :=
  match _h : d.decode symbols with
  | .error e => ([], .failed e)
  | .ok none => ([], .more symbols)
  | .ok (some (frame, rest)) => (frame :: (parse d rest).1, (parse d rest).2)
termination_by symbols.length
decreasing_by all_goals exact d.shorter _h

variable {d : Decoder β α ε} {symbols rest : List β} {frame : α} {e : ε}

theorem parse_error (h : d.decode symbols = .error e) : parse d symbols = ([], .failed e) := by
  rw [parse]
  split
  · next heq => rw [h] at heq; rw [Except.error.inj heq]
  · next heq => rw [h] at heq; exact nomatch heq
  · next heq => rw [h] at heq; exact nomatch heq

theorem parse_more (h : d.decode symbols = .ok none) : parse d symbols = ([], .more symbols) := by
  rw [parse]
  split
  · next heq => rw [h] at heq; exact nomatch heq
  · rfl
  · next heq => rw [h] at heq; exact nomatch heq

theorem parse_frame (h : d.decode symbols = .ok (some (frame, rest))) :
    parse d symbols = (frame :: (parse d rest).1, (parse d rest).2) := by
  rw [parse]
  split
  · next heq => rw [h] at heq; exact nomatch heq
  · next heq => rw [h] at heq; exact nomatch heq
  · next heq =>
    rw [h] at heq
    obtain ⟨rfl, rfl⟩ := Prod.mk.inj (Option.some.inj (Except.ok.inj heq))
    rfl

/-- What the parsing fails with is an error of the decoder. -/
theorem parse_failed (h : (parse d symbols).2 = .failed e) :
    ∃ left, d.decode left = .error e := by
  induction symbols using parse.induct d with
  | case1 symbols e' hdecode =>
    rw [parse_error hdecode] at h
    exact ⟨symbols, Outcome.failed.inj h ▸ hdecode⟩
  | case2 symbols hdecode =>
    rw [parse_more hdecode] at h
    exact nomatch h
  | case3 symbols frame rest hdecode ih =>
    rw [parse_frame hdecode] at h
    exact ih h

/-- Encoded frames come out as they are, and nothing is left. -/
theorem parse_frames (hempty : d.decode [] = .ok none) {encode : α → List β} {frames : List α}
    (h : ∀ frame ∈ frames, ∀ rest, d.decode (encode frame ++ rest) = .ok (some (frame, rest))) :
    parse d (frames.flatMap encode) = (frames, .more []) := by
  induction frames with
  | nil => exact parse_more hempty
  | cons frame frames ih =>
    obtain ⟨hframe, hframes⟩ := List.forall_mem_cons.mp h
    rw [List.flatMap_cons, parse_frame (hframe _), ih hframes]

end Framing
