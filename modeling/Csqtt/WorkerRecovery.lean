/-
How a worker goes on after the error of a session.

`worker_loop` looks for typed errors in the chain, for markers in the outermost text, and
for a few in the whole chain.  The same reason of the driver reaches it in two forms: from
the writer it is the outermost text, from the reader it stands behind the context
"TURN allocation receive".

* `recover_calls` — what the worker does to the cache is what `SessionEnd.settle` says;
* `same_recovery_iff` — the two forms are answered alike exactly when the text has none of
  the markers that are looked for in the outermost text only (`Unsteered`).
-/
import Csqtt.TurnMismatch

namespace Csqtt.WorkerLoop

open Credentials Text
open Csqtt.Turn (plainError readerError namesMismatch)

/-- An `io::Error` of the chain. -/
structure IoError where
  /-- `raw_os_error`. -/
  osCode : Option ℤ
  /-- The kind is `ConnectionReset`, `ConnectionAborted` or `BrokenPipe`. -/
  reset : Bool

structure EndError extends SessionError where
  io : List IoError := []

/-- The codes of an unreachable network, on Linux and on Windows. -/
def networkDownCodes : List ℕ := [100, 101, 113, 10050, 10051, 10065]

def networkDownMarkers : List String :=
  ["network is unreachable", "network is down", "no route to host", "no route to network",
    "enetunreach", "enetdown", "ehostunreach"]

/-- `contains_os_error_code`: the code is not the beginning of a longer one.  Occurrences do
not overlap, so these are all. -/
def containsOsErrorCode (message : String) (code : ℕ) : Bool :=
  let needle := ("os error " ++ toString code).toList
  message.toList.tails.any fun tail =>
    needle.isPrefixOf tail && !(tail.drop needle.length).head?.any Char.isDigit

namespace EndError

/-- `format!("{error:#}")`. -/
def joined (e : EndError) : String := String.intercalate ": " (e.chain.map (·.text))

def isLocalNetworkDown (e : EndError) : Bool :=
  e.io.any (fun io => networkDownCodes.any fun code => io.osCode = some (code : ℤ)) ||
    networkDownMarkers.any (contains (toAsciiLowercase e.joined)) ||
    networkDownCodes.any (containsOsErrorCode (toAsciiLowercase e.joined))

def isRemoteTcpStreamReset (e : EndError) : Bool :=
  e.io.any IoError.reset ||
    ["connection reset by peer", "connection aborted", "broken pipe"].any (contains e.lower)

end EndError

def isTransportTimeout (message : String) : Bool :=
  ["transaction timeout", "request timeout", "i/o timeout", "timed out",
    "deadline has elapsed"].any (contains message)

/-- The classes of the delay before the next attempt. -/
inductive RetryDelay where
  /-- `worker_retry_delay`. -/
  | ladder (attempt : ℕ)
  /-- `worker_retry_delay`, a second at most. -/
  | capped (attempt : ℕ)
  /-- `quota_rotation_delay`, in milliseconds. -/
  | fixed (millis : ℕ)
  /-- `low + draw % span` milliseconds. -/
  | drawn (low span : ℕ)
  /-- `low + draw % span` seconds. -/
  | seconds (low span : ℕ)
  deriving DecidableEq

/-- `worker_retry_delay_with_jitter`. -/
def workerRetryDelayWithJitter (attempt jitter : ℕ) : ℕ :=
  min (250 * 2 ^ min (attempt - 1) 4) 4000 + min jitter 250

/-- The delay in milliseconds. -/
def RetryDelay.millis (draw : ℕ) : RetryDelay → ℕ
  | ladder attempt => workerRetryDelayWithJitter attempt (draw % 251)
  | capped attempt => min (workerRetryDelayWithJitter attempt (draw % 251)) 1000
  | fixed millis => millis
  | drawn low span => low + draw % span
  | seconds low span => 1000 * (low + draw % span)

def tcpStreamRetryDelay (attempt : ℕ) : ℕ := quotaRotationDelay (attempt - 1)

/-- What the worker knows when its session has ended with an error. -/
structure Worker where
  /-- `TurnTransportMode::TcpTls`. -/
  tcpTls : Bool
  /-- Zero once the session was ready. -/
  attempt : ℕ
  /-- The start of the allocation has been observed. -/
  started : Bool
  /-- Cancelled, or the hash is not available. -/
  cancelled : Bool
  /-- Neither paused nor parked. -/
  allowed : Bool
  /-- The credential generation of the worker has moved since the session began. -/
  moved : Bool
  /-- What `rotate_after_quota` and `retry_after_mismatch` return. -/
  quota : QuotaRotation
  mismatch : AllocationMismatch

structure Recovery where
  attempt : ℕ
  /-- None when the worker does not sleep. -/
  delay : Option RetryDelay
  calls : List CacheOp
  /-- `network_timeout` is reported. -/
  networkTimeout : Bool
  goesOn : Bool
  deriving DecidableEq

/-- The delay when nothing but the outermost text is left to look at. -/
def generalDelay (attempt : ℕ) (e : EndError) : RetryDelay :=
  if contains e.lower "error 29" || contains e.lower "cannot create socket" then .seconds 2 3
  else if contains e.lower "getconf" then .capped attempt
  else if ["FATAL_AUTH", "FATAL_PROTOCOL", "FATAL_HANDSHAKE", "хеш мёртв"].any
      (contains e.message) then .seconds 5 6
  else .ladder attempt

/-- Behind the three branches that start again at once. -/
def classify (w : Worker) (first : List CacheOp) (e : EndError) : Recovery :=
  let next := min (w.attempt + 1) (2 ^ 64 - 1)
  let invalid := e.shouldInvalidateTurnCredentials
  let calls := first ++ if invalid then [CacheOp.invalidate] else []
  if e.isTurnAllocationQuota then
    let calls := calls ++ [CacheOp.rotateAfterQuota]
    match w.quota with
    | .rotated delay => ⟨0, some (.fixed delay), calls, false, true⟩
    | .replaced => ⟨0, some (.drawn 50 151), calls, false, true⟩
  else if e.isTurnAllocationMismatch then
    let calls := calls ++ [CacheOp.retryAfterMismatch]
    match w.mismatch with
    | .retryCurrent | .replaced => ⟨0, some (.drawn 50 51), calls, false, true⟩
    | .rotated => ⟨0, some (.drawn 100 51), calls, false, true⟩
  else if invalid then ⟨0, some (.drawn 100 51), calls, false, true⟩
  else if w.tcpTls && e.isRemoteTcpStreamReset then
    ⟨next, some (.fixed (tcpStreamRetryDelay next)), calls, false, true⟩
  else if e.isLocalNetworkDown then ⟨next, some (.drawn 250 751), calls, true, true⟩
  else ⟨next, some (generalDelay next e), calls, isTransportTimeout e.lower, true⟩

/-- `worker_loop` behind a session that has ended with an error. -/
def recover (w : Worker) (e : EndError) : Recovery :=
  let first := if w.started then [] else [CacheOp.release]
  if w.cancelled then ⟨w.attempt, none, first, false, false⟩
  else if contains e.message "IDLE_PARK" then
    ⟨0, none, first ++ if w.started then [.release] else [], false, true⟩
  else if !w.allowed then ⟨w.attempt, none, first, false, true⟩
  else if contains e.lower "net_rebind" then ⟨0, some (.drawn 20 80), first, false, true⟩
  else if contains e.lower "target_repair" then
    ⟨0, some (.drawn 50 151), first ++ if w.moved then [.invalidate] else [], false, true⟩
  else if contains e.lower "turn channel rebind retry exhausted" then
    ⟨0, some (.drawn 50 151), first, false, true⟩
  else classify w first e

attribute [local simp] isTransportTimeout generalDelay classify recover

theorem classify_calls (w : Worker) (first : List CacheOp) (e : EndError) :
    (classify w first e).calls = first ++
        (if e.shouldInvalidateTurnCredentials then [.invalidate] else []) ++
        (if e.isTurnAllocationQuota then [.rotateAfterQuota]
          else if e.isTurnAllocationMismatch then [.retryAfterMismatch] else []) ∧
      (classify w first e).goesOn = true := by
  rw [classify]
  by_cases hquota : e.isTurnAllocationQuota = true
  · simp only [if_pos hquota]
    cases w.quota <;> exact ⟨rfl, rfl⟩
  simp only [if_neg hquota]
  by_cases hmismatch : e.isTurnAllocationMismatch = true
  · simp only [if_pos hmismatch]
    cases w.mismatch <;> exact ⟨rfl, rfl⟩
  simp only [if_neg hmismatch, List.append_nil]
  split_ifs <;> exact ⟨rfl, rfl⟩

/-- The calls on the cache are those of `SessionEnd.settle`. -/
theorem recover_calls (w : Worker) (e : EndError) (generation current : ℕ)
    (hmoved : w.moved = decide (generation < current)) :
    ((recover w e).calls, (recover w e).goesOn) =
      SessionEnd.settle ⟨some e.toSessionError, w.started, w.cancelled, w.allowed, current⟩
        generation := by
  obtain ⟨hcalls, hgoes⟩ := classify_calls w (if w.started then [] else [CacheOp.release]) e
  simp only [recover, SessionEnd.settle, hmoved, decide_eq_true_eq]
  generalize (if w.started then [] else [CacheOp.release]) = first at hcalls hgoes ⊢
  by_cases hcancelled : w.cancelled = true
  · simp only [if_pos hcancelled]
  simp only [if_neg hcancelled]
  by_cases hparked : contains e.message "IDLE_PARK" = true
  · simp only [if_pos hparked]
  simp only [if_neg hparked]
  by_cases hallowed : (!w.allowed) = true
  · simp only [if_pos hallowed]
  simp only [if_neg hallowed]
  by_cases hrebind : contains e.lower "net_rebind" = true
  · simp only [if_pos hrebind]
  simp only [if_neg hrebind]
  by_cases hrepair : contains e.lower "target_repair" = true
  · simp only [if_pos hrepair]
  simp only [if_neg hrepair]
  by_cases hexhausted : contains e.lower "turn channel rebind retry exhausted" = true
  · simp only [if_pos hexhausted]
  simp only [if_neg hexhausted]
  rw [hcalls, hgoes]

/-! ### Behind the context -/

section Infix

variable {α : Type*} {needle head rest : List α} {colon space : α}

theorem prefix_of_notMem (hcolon : colon ∉ needle) (h : needle <+: head ++ colon :: rest) :
    needle <+: head := by
  rcases Nat.lt_or_ge head.length needle.length with hlt | hle
  · -- a longer needle has the separator
    have hbegins : head ++ [colon] <+: needle := by
      refine List.prefix_of_prefix_length_le ?_ h (by rw [List.length_append]; exact hlt)
      exact ⟨rest, by simp⟩
    exact absurd (hbegins.subset (by simp)) hcolon
  · exact List.prefix_of_prefix_length_le h (List.prefix_append _ _) hle

/-- An occurrence in a text behind a head and a separator is one in the text, if the needle has
not the separator and is not in the head. -/
theorem occurrence_behind (hcolon : colon ∉ needle) (hneedle : needle ≠ [])
    (hhead : ¬ needle <:+: head) (ok : List α → Prop) :
    (∃ tail, tail <:+ head ++ colon :: rest ∧ needle <+: tail ∧ ok tail) ↔
      ∃ tail, tail <:+ rest ∧ needle <+: tail ∧ ok tail := by
  obtain ⟨first, more, rfl⟩ := List.exists_cons_of_ne_nil hneedle
  constructor
  · rintro ⟨tail, ⟨front, hfront⟩, hprefix, hok⟩
    rcases List.append_eq_append_iff.mp hfront with ⟨middle, hmiddle, htail⟩ | ⟨middle, hmiddle, htail⟩
    · refine absurd ?_ hhead
      rw [hmiddle]
      rw [htail] at hprefix
      exact (prefix_of_notMem hcolon hprefix).isInfix.trans (List.suffix_append _ _).isInfix
    · rcases middle with _ | ⟨c, middle⟩
      · rw [List.nil_append] at htail
        rw [← htail] at hprefix
        obtain ⟨rfl, -⟩ := List.cons_prefix_cons.mp hprefix
        exact absurd List.mem_cons_self hcolon
      · obtain ⟨-, hrest⟩ := List.cons.inj htail
        exact ⟨tail, ⟨middle, hrest.symm⟩, hprefix, hok⟩
  · rintro ⟨tail, htail, hprefix, hok⟩
    refine ⟨tail, htail.trans ?_, hprefix, hok⟩
    exact ⟨head ++ [colon], by simp⟩

/-- Nor does the needle begin with what stands in front of the text. -/
theorem occurrence_cons (hspace : needle.head? ≠ some space) (hneedle : needle ≠ [])
    (ok : List α → Prop) :
    (∃ tail, tail <:+ space :: rest ∧ needle <+: tail ∧ ok tail) ↔
      ∃ tail, tail <:+ rest ∧ needle <+: tail ∧ ok tail := by
  obtain ⟨first, more, rfl⟩ := List.exists_cons_of_ne_nil hneedle
  constructor
  · rintro ⟨tail, htail, hprefix, hok⟩
    rcases List.suffix_cons_iff.mp htail with rfl | htail
    · obtain ⟨rfl, -⟩ := List.cons_prefix_cons.mp hprefix
      exact absurd rfl hspace
    · exact ⟨tail, htail, hprefix, hok⟩
  · rintro ⟨tail, htail, hprefix, hok⟩
    exact ⟨tail, htail.trans (List.suffix_cons _ _), hprefix, hok⟩

end Infix

/-- The context, and what the loop sees of it. -/
def receiveContext : String := "TURN allocation receive"

theorem lower_context : toAsciiLowercase receiveContext = "turn allocation receive" := by
  apply String.toList_inj.mp
  rw [toAsciiLowercase, String.toList_map]
  rfl

/-- A needle that the context cannot give or begin. -/
def Apart (needle : List Char) : Prop :=
  ':' ∉ needle ∧ needle.head? ≠ some ' ' ∧ needle ≠ [] ∧
    ¬ needle <:+: "turn allocation receive".toList

instance (needle : List Char) : Decidable (Apart needle) :=
  inferInstanceAs (Decidable (_ ∧ _ ∧ _ ∧ _))

theorem toList_behind (text : String) :
    (toAsciiLowercase (receiveContext ++ ": " ++ text)).toList =
      "turn allocation receive".toList ++ ':' :: ' ' :: (toAsciiLowercase text).toList := by
  rw [toAsciiLowercase_append, toAsciiLowercase_append, lower_context, String.toList_append,
    String.toList_append, List.append_assoc]
  have hcolon : (toAsciiLowercase ": ").toList = [':', ' '] := by
    rw [toAsciiLowercase, String.toList_map]
    rfl
  rw [hcolon]
  rfl

theorem contains_behind {needle : String} (h : Apart needle.toList) (text : String) :
    contains (toAsciiLowercase (receiveContext ++ ": " ++ text)) needle =
      contains (toAsciiLowercase text) needle := by
  obtain ⟨hcolon, hspace, hneedle, hhead⟩ := h
  have hoccurs := (occurrence_behind hcolon hneedle hhead fun _ => True).trans
    (@occurrence_cons _ _ (toAsciiLowercase text).toList _ hspace hneedle fun _ => True)
  rw [contains, contains, decide_eq_decide, toList_behind, List.infix_iff_prefix_suffix,
    List.infix_iff_prefix_suffix]
  simp only [and_true] at hoccurs
  simpa only [and_comm] using hoccurs

theorem containsOsErrorCode_iff {message : String} {code : ℕ} :
    containsOsErrorCode message code = true ↔ ∃ tail, tail <:+ message.toList ∧
      ("os error " ++ toString code).toList <+: tail ∧
        ((tail.drop ("os error " ++ toString code).toList.length).head?.any Char.isDigit) = false := by
  simp only [containsOsErrorCode, List.any_eq_true, List.mem_tails, Bool.and_eq_true,
    List.isPrefixOf_iff_prefix, Bool.not_eq_true']

theorem containsOsErrorCode_behind {code : ℕ} (h : Apart ("os error " ++ toString code).toList)
    (text : String) :
    containsOsErrorCode (toAsciiLowercase (receiveContext ++ ": " ++ text)) code =
      containsOsErrorCode (toAsciiLowercase text) code := by
  obtain ⟨hcolon, hspace, hneedle, hhead⟩ := h
  rw [Bool.eq_iff_iff, containsOsErrorCode_iff, containsOsErrorCode_iff, toList_behind]
  exact (occurrence_behind hcolon hneedle hhead _).trans (occurrence_cons hspace hneedle _)

/-- The markers that a mismatch is known by. -/
def mismatchMarkers : List String := ["stun error 437", "stun error 400", "channelbind"]

/-- What the loop looks for in the outermost text in lower case. -/
def outermostMarkers : List String :=
  ["net_rebind", "target_repair", "turn channel rebind retry exhausted", "turn allocate",
    "stun error 401", "stun error 438", "stun error 441", "unauthorized", "wrong credential",
    "authentication failed", "stun error 437", "stun error 400", "connection reset by peer",
    "connection aborted", "broken pipe", "transaction timeout", "request timeout", "i/o timeout",
    "timed out", "deadline has elapsed", "error 29", "cannot create socket", "getconf"]

/-- The context gives none of the markers. -/
theorem context_facts :
    (∀ marker ∈ networkDownMarkers, Apart marker.toList) ∧
      (∀ code ∈ networkDownCodes, Apart ("os error " ++ toString code).toList) ∧
      (∀ marker ∈ mismatchMarkers, '\n' ∉ marker.toList ∧ marker.toList ≠ [] ∧
        ¬ marker.toList <:+: "turn allocation receive".toList) ∧
      (∀ marker ∈ outermostMarkers, contains "turn allocation receive" marker = false) ∧
      ∀ marker ∈ ["IDLE_PARK", "FATAL_AUTH", "FATAL_PROTOCOL", "FATAL_HANDSHAKE", "хеш мёртв"],
        contains receiveContext marker = false := by
  decide +kernel

theorem context_markers : ∀ marker ∈ outermostMarkers,
    contains "turn allocation receive" marker = false := context_facts.2.2.2.1

theorem context_exact : ∀ marker ∈ ["IDLE_PARK", "FATAL_AUTH", "FATAL_PROTOCOL", "FATAL_HANDSHAKE",
    "хеш мёртв"], contains receiveContext marker = false := context_facts.2.2.2.2

/-- The two forms of a reason. -/
def fromWriter (text : String) : EndError := { toSessionError := plainError text }

def fromReader (text : String) : EndError := { toSessionError := readerError text }

theorem any_congr_mem {α : Type*} {l : List α} {p q : α → Bool} (h : ∀ a ∈ l, p a = q a) :
    l.any p = l.any q := by
  rw [Bool.eq_iff_iff, List.any_eq_true, List.any_eq_true]
  refine exists_congr fun a => and_congr_right fun ha => ?_
  rw [h a ha]

/-- The whole chain is looked at: the context makes no difference. -/
theorem isLocalNetworkDown_fromReader (text : String) :
    (fromReader text).isLocalNetworkDown = (fromWriter text).isLocalNetworkDown := by
  have hreader : (fromReader text).joined = receiveContext ++ ": " ++ text := rfl
  have hwriter : (fromWriter text).joined = text := rfl
  have hmarkers : networkDownMarkers.any
        (contains (toAsciiLowercase (receiveContext ++ ": " ++ text))) =
      networkDownMarkers.any (contains (toAsciiLowercase text)) :=
    any_congr_mem fun marker hmarker => contains_behind (context_facts.1 marker hmarker) text
  have hcodes : networkDownCodes.any
        (containsOsErrorCode (toAsciiLowercase (receiveContext ++ ": " ++ text))) =
      networkDownCodes.any (containsOsErrorCode (toAsciiLowercase text)) :=
    any_congr_mem fun code hcode => containsOsErrorCode_behind (context_facts.2.1 code hcode) text
  rw [EndError.isLocalNetworkDown, EndError.isLocalNetworkDown, hreader, hwriter, hmarkers, hcodes]
  rfl

/-- The chain is also looked at for a mismatch, line by line. -/
theorem contains_line {needle : String} (h : needle ∈ mismatchMarkers) (text : String) :
    contains (toAsciiLowercase (receiveContext ++ "\n" ++ text)) needle =
      contains (toAsciiLowercase text) needle := by
  obtain ⟨hline, hneedle, hhead⟩ := context_facts.2.2.1 needle h
  have hlines : (toAsciiLowercase (receiveContext ++ "\n" ++ text)).toList =
      "turn allocation receive".toList ++ '\n' :: (toAsciiLowercase text).toList := by
    have hbreak : (toAsciiLowercase "\n").toList = ['\n'] := by
      rw [toAsciiLowercase, String.toList_map]
      rfl
    rw [toAsciiLowercase_append, toAsciiLowercase_append, lower_context, String.toList_append,
      String.toList_append, List.append_assoc, hbreak]
    rfl
  have hoccurs := @occurrence_behind _ _ _ (toAsciiLowercase text).toList _ hline hneedle hhead
    fun _ => True
  simp only [and_true] at hoccurs
  rw [contains, contains, decide_eq_decide, hlines, List.infix_iff_prefix_suffix,
    List.infix_iff_prefix_suffix]
  simpa only [and_comm] using hoccurs

theorem errorIsAllocationMismatch_fromReader (text : String) :
    (fromReader text).errorIsAllocationMismatch = namesMismatch text := by
  show (contains (toAsciiLowercase (receiveContext ++ "\n" ++ text)) "stun error 437" ||
    (contains (toAsciiLowercase (receiveContext ++ "\n" ++ text)) "stun error 400" &&
      contains (toAsciiLowercase (receiveContext ++ "\n" ++ text)) "channelbind")) = _
  rw [contains_line (by simp [mismatchMarkers]), contains_line (by simp [mismatchMarkers]),
    contains_line (by simp [mismatchMarkers])]
  rfl

theorem isTurnAllocationMismatch_fromWriter (text : String) :
    (fromWriter text).isTurnAllocationMismatch = namesMismatch text := by
  have hcode : (fromWriter text).turnStunCode = none := rfl
  have hchain : (fromWriter text).errorIsAllocationMismatch = namesMismatch text := rfl
  rw [SessionError.isTurnAllocationMismatch, hcode, hchain]
  show (namesMismatch text || namesMismatch text) = _
  exact Bool.or_self _

theorem lower_fromReader (text : String) :
    (fromReader text).lower = "turn allocation receive" := lower_context

theorem isTurnAllocationMismatch_fromReader (text : String) :
    (fromReader text).isTurnAllocationMismatch = namesMismatch text := by
  have hcode : (fromReader text).turnStunCode = none := rfl
  rw [SessionError.isTurnAllocationMismatch, hcode, errorIsAllocationMismatch_fromReader,
    lower_fromReader, context_markers "stun error 437" (by simp [outermostMarkers]),
    context_markers "stun error 400" (by simp [outermostMarkers])]
  simp

/-! ### The two forms -/

section Forms

variable (w : Worker) (first : List CacheOp) (text : String)

theorem fromReader_unsteered :
    (fromReader text).shouldInvalidateTurnCredentials = false ∧
      (fromReader text).isTurnAllocationQuota = false ∧
      (fromReader text).isRemoteTcpStreamReset = false ∧
      isTransportTimeout (fromReader text).lower = false ∧
      ∀ attempt, generalDelay attempt (fromReader text) = .ladder attempt := by
  have hrequest : (fromReader text).turnStunCode = none := rfl
  have hallocate : (fromReader text).turnAllocateStunCode = none := rfl
  have hio : (fromReader text).io = [] := rfl
  have hmessage : (fromReader text).message = receiveContext := rfl
  have hnone := context_markers
  rw [outermostMarkers] at hnone
  refine ⟨?_, ?_, ?_, ?_, fun attempt => ?_⟩
  · simp [SessionError.shouldInvalidateTurnCredentials, hrequest, lower_fromReader, hnone]
  · simp [SessionError.isTurnAllocationQuota, hallocate, lower_fromReader, hnone]
  · simp [EndError.isRemoteTcpStreamReset, hio, lower_fromReader, hnone]
  · simp [lower_fromReader, hnone]
  · simp [hmessage, lower_fromReader, hnone, context_exact]

/-- What the worker makes of the error of the reader. -/
theorem classify_fromReader :
    classify w first (fromReader text) =
      if namesMismatch text then
        match w.mismatch with
        | .retryCurrent | .replaced =>
          ⟨0, some (.drawn 50 51), first ++ [.retryAfterMismatch], false, true⟩
        | .rotated => ⟨0, some (.drawn 100 51), first ++ [.retryAfterMismatch], false, true⟩
      else if (fromWriter text).isLocalNetworkDown then
        ⟨min (w.attempt + 1) (2 ^ 64 - 1), some (.drawn 250 751), first, true, true⟩
      else
        ⟨min (w.attempt + 1) (2 ^ 64 - 1), some (.ladder (min (w.attempt + 1) (2 ^ 64 - 1))), first,
          false, true⟩ := by
  obtain ⟨hinvalid, hquota, hreset, htimeout, hdelay⟩ := fromReader_unsteered text
  simp only [classify, hinvalid, hquota, hreset, htimeout, hdelay,
    isTurnAllocationMismatch_fromReader, isLocalNetworkDown_fromReader, Bool.and_false,
    Bool.false_eq_true, if_false, List.append_nil]

theorem recover_fromReader :
    recover w (fromReader text) =
      if w.cancelled then
        ⟨w.attempt, none, if w.started then [] else [.release], false, false⟩
      else if !w.allowed then
        ⟨w.attempt, none, if w.started then [] else [.release], false, true⟩
      else classify w (if w.started then [] else [.release]) (fromReader text) := by
  have hmessage : (fromReader text).message = receiveContext := rfl
  have hnone := context_markers
  rw [outermostMarkers] at hnone
  simp [hmessage, lower_fromReader, context_exact, hnone, -classify]

/-- The text has none of the markers that are looked for in the outermost text only; behind a
mismatch, and behind a network that is down, fewer are looked for. -/
def Unsteered (tcpTls : Bool) (text : String) : Prop :=
  contains text "IDLE_PARK" = false ∧
    (∀ marker ∈ ["net_rebind", "target_repair", "turn channel rebind retry exhausted"],
      contains (toAsciiLowercase text) marker = false) ∧
    (fromWriter text).shouldInvalidateTurnCredentials = false ∧
    (fromWriter text).isTurnAllocationQuota = false ∧
    (namesMismatch text = true ∨
      (tcpTls && (fromWriter text).isRemoteTcpStreamReset) = false ∧
        ((fromWriter text).isLocalNetworkDown = true ∨
          isTransportTimeout (toAsciiLowercase text) = false ∧
            (∀ marker ∈ ["error 29", "cannot create socket", "getconf"],
              contains (toAsciiLowercase text) marker = false) ∧
            ∀ marker ∈ ["FATAL_AUTH", "FATAL_PROTOCOL", "FATAL_HANDSHAKE", "хеш мёртв"],
              contains text marker = false))

theorem generalDelay_eq_ladder {attempt : ℕ} :
    generalDelay attempt (fromWriter text) = .ladder attempt ↔
      (∀ marker ∈ ["error 29", "cannot create socket", "getconf"],
        contains (toAsciiLowercase text) marker = false) ∧
      ∀ marker ∈ ["FATAL_AUTH", "FATAL_PROTOCOL", "FATAL_HANDSHAKE", "хеш мёртв"],
        contains text marker = false := by
  have hlower : (fromWriter text).lower = toAsciiLowercase text := rfl
  have hmessage : (fromWriter text).message = text := rfl
  simp only [generalDelay, hlower, hmessage, List.forall_mem_cons]
  by_cases hsocket : (contains (toAsciiLowercase text) "error 29" ||
      contains (toAsciiLowercase text) "cannot create socket") = true
  · rw [if_pos hsocket]
    rcases (Bool.or_eq_true _ _).mp hsocket with h | h <;> simp [h]
  · rw [if_neg hsocket]
    obtain ⟨h29, hcannot⟩ := Bool.or_eq_false_iff.mp (Bool.eq_false_iff.mpr hsocket)
    by_cases hconfig : contains (toAsciiLowercase text) "getconf" = true
    · simp [hconfig]
    · rw [if_neg hconfig]
      simp only [h29, hcannot, Bool.eq_false_iff.mpr hconfig, true_and]
      simp

/-- A worker that goes on. -/
def live (tcpTls : Bool) : Worker where
  tcpTls := tcpTls
  attempt := 0
  started := true
  cancelled := false
  allowed := true
  moved := false
  quota := .replaced
  mismatch := .retryCurrent

variable {text}

/-- Before the classification the two forms are told apart by the markers that start at once. -/
theorem unmarked_of_same {tcpTls : Bool}
    (h : recover (live tcpTls) (fromWriter text) = recover (live tcpTls) (fromReader text)) :
    contains text "IDLE_PARK" = false ∧
      (∀ marker ∈ ["net_rebind", "target_repair", "turn channel rebind retry exhausted"],
        contains (toAsciiLowercase text) marker = false) ∧
      classify (live tcpTls) [] (fromWriter text) = classify (live tcpTls) [] (fromReader text) := by
  have hlower : (fromWriter text).lower = toAsciiLowercase text := rfl
  have hmessage : (fromWriter text).message = text := rfl
  have hclassify : recover (live tcpTls) (fromReader text) =
      classify (live tcpTls) [] (fromReader text) := by
    rw [recover_fromReader]
    rfl
  have hreader := classify_fromReader (live tcpTls) [] text
  rw [hclassify, recover] at h
  simp only [hlower, hmessage, live, Bool.false_eq_true, if_false, if_true, Bool.not_true] at h hreader
  rw [hreader] at h
  have hpark : contains text "IDLE_PARK" = false := by
    by_contra hne
    rw [if_pos (Bool.eq_true_of_not_eq_false hne)] at h
    split_ifs at h <;> cases h
  rw [if_neg (Bool.eq_false_iff.mp hpark)] at h
  have hrebind : contains (toAsciiLowercase text) "net_rebind" = false := by
    by_contra hne
    rw [if_pos (Bool.eq_true_of_not_eq_false hne)] at h
    split_ifs at h <;> cases h
  rw [if_neg (Bool.eq_false_iff.mp hrebind)] at h
  have hrepair : contains (toAsciiLowercase text) "target_repair" = false := by
    by_contra hne
    rw [if_pos (Bool.eq_true_of_not_eq_false hne)] at h
    split_ifs at h <;> cases h
  rw [if_neg (Bool.eq_false_iff.mp hrepair)] at h
  have hexhausted :
      contains (toAsciiLowercase text) "turn channel rebind retry exhausted" = false := by
    by_contra hne
    rw [if_pos (Bool.eq_true_of_not_eq_false hne)] at h
    split_ifs at h <;> cases h
  rw [if_neg (Bool.eq_false_iff.mp hexhausted), ← hreader] at h
  refine ⟨hpark, ?_, h⟩
  simp [hrebind, hrepair, hexhausted]

/-- A worker that goes on can tell the two forms apart by a marker. -/
theorem unsteered_of_same {tcpTls : Bool}
    (h : recover (live tcpTls) (fromWriter text) = recover (live tcpTls) (fromReader text)) :
    Unsteered tcpTls text := by
  obtain ⟨hpark, hmarkers, hclass⟩ := unmarked_of_same h
  obtain ⟨hinvalid, hquota, hreset, htimeout, hdelay⟩ := fromReader_unsteered text
  -- the calls alone tell an invalidation and a quota
  have hcalls := congrArg Recovery.calls hclass
  rw [(classify_calls _ _ _).1, (classify_calls _ _ _).1, hinvalid, hquota,
    isTurnAllocationMismatch_fromReader, isTurnAllocationMismatch_fromWriter] at hcalls
  have hvalid : (fromWriter text).shouldInvalidateTurnCredentials = false ∧
      (fromWriter text).isTurnAllocationQuota = false := by
    revert hcalls
    cases (fromWriter text).shouldInvalidateTurnCredentials <;>
      cases (fromWriter text).isTurnAllocationQuota <;> cases namesMismatch text <;> simp
  refine ⟨hpark, hmarkers, hvalid.1, hvalid.2, ?_⟩
  by_cases hmismatch : namesMismatch text = true
  · exact .inl hmismatch
  · right
    rw [classify_fromReader, classify] at hclass
    simp only [hvalid.1, hvalid.2, isTurnAllocationMismatch_fromWriter, if_neg hmismatch,
      Bool.false_eq_true, if_false] at hclass
    have htcp : (live tcpTls).tcpTls = tcpTls := rfl
    rw [htcp] at hclass
    have hstream : (tcpTls && (fromWriter text).isRemoteTcpStreamReset) = false := by
      by_contra hne
      rw [if_pos (Bool.eq_true_of_not_eq_false hne)] at hclass
      split_ifs at hclass <;> cases hclass
    refine ⟨hstream, ?_⟩
    rw [if_neg (Bool.eq_false_iff.mp hstream)] at hclass
    by_cases hdown : (fromWriter text).isLocalNetworkDown = true
    · exact .inl hdown
    · rw [if_neg hdown, if_neg hdown] at hclass
      have htime : isTransportTimeout (fromWriter text).lower = false :=
        congrArg Recovery.networkTimeout hclass
      have hladder := Option.some.inj (congrArg Recovery.delay hclass)
      exact .inr ⟨htime, (generalDelay_eq_ladder text).mp hladder⟩

/-- **When the two forms are answered alike.** -/
theorem same_recovery_text (tcpTls : Bool) (text : String) :
    (∀ w : Worker, w.tcpTls = tcpTls →
      recover w (fromWriter text) = recover w (fromReader text)) ↔ Unsteered tcpTls text := by
  refine ⟨fun h => unsteered_of_same (h (live tcpTls) rfl), ?_⟩
  rintro ⟨hpark, hmarkers, hinvalid, hquota, hrest⟩ w rfl
  have hlower : (fromWriter text).lower = toAsciiLowercase text := rfl
  have hmessage : (fromWriter text).message = text := rfl
  simp only [List.forall_mem_cons] at hmarkers
  obtain ⟨hrebind, hrepair, hexhausted, -⟩ := hmarkers
  rw [recover_fromReader, recover]
  simp only [hlower, hmessage, hpark, hrebind, hrepair, hexhausted, Bool.false_eq_true, if_false]
  congr 2
  rw [classify_fromReader, classify]
  simp only [hinvalid, hquota, isTurnAllocationMismatch_fromWriter, Bool.false_eq_true, if_false,
    List.append_nil]
  rcases hrest with hmismatch | ⟨hstream, hdown | ⟨htimeout, hdelay⟩⟩
  · simp only [if_pos hmismatch]
  · simp only [hstream, if_pos hdown, Bool.false_eq_true, if_false]
  · simp only [hstream, hlower, htimeout, (generalDelay_eq_ladder text).mpr hdelay,
      Bool.false_eq_true, if_false]

end Forms

/-! ### The reasons of the driver -/

/-- What the driver and the owner record as the end of an allocation. -/
inductive Reason where
  /-- `fail_turn_request`. -/
  | request (method : BitVec 16) (status : ℤ) (stunCode : ℕ)
  | rebindExhausted
  | udpReceive (error : String)
  | udpReadiness (error : String)
  | udpBatchCount
  | streamReceive (error : String)
  | streamTransmit (error : String)
  | controlOverflow (dropped : ℕ)
  | eventOverflow (dropped : ℕ)
  | unexpectedPeer (peer : String)
  | invalidChannel (channel : ℕ)
  | unknownEvent (kind : ℕ)
  | forceDestroyed
  | unexpectedDestroying
  /-- An error of `pump_native`, or of the owner. -/
  | chain (error : String)

def Reason.text : Reason → String
  | request method status stunCode =>
    Turn.Terminal.text (fun _ => "") (.request method status stunCode)
  | rebindExhausted => "TURN channel rebind retry exhausted"
  | udpReceive error => "TURN UDP receive failed: " ++ error
  | udpReadiness error => "TURN UDP readiness failed: " ++ error
  | udpBatchCount => "TURN UDP batch receive returned an invalid count"
  | streamReceive error => "TURN stream receive failed: " ++ error
  | streamTransmit error => "TURN stream transmit failed: " ++ error
  | controlOverflow dropped =>
    "TURN control output ring overflow dropped " ++ toString dropped ++ " datagrams"
  | eventOverflow dropped => "TURN event ring overflow dropped " ++ toString dropped ++ " events"
  | unexpectedPeer peer => "TURN ChannelBind confirmed unexpected peer " ++ peer
  | invalidChannel channel => "TURN core returned invalid channel " ++ toString channel
  | unknownEvent kind => "TURN core returned unknown event " ++ toString kind
  | forceDestroyed => "TURN core was force-destroyed"
  | unexpectedDestroying => "TURN allocation entered DESTROYING unexpectedly"
  | chain error => error

/-- **Recovery and the task that reports.**  The worker answers the two forms of a reason alike
exactly when its text has no marker that is looked for in the outermost text only. -/
theorem same_recovery_iff (tcpTls : Bool) (reason : Reason) :
    (∀ w : Worker, w.tcpTls = tcpTls →
      recover w (fromWriter reason.text) = recover w (fromReader reason.text)) ↔
      Unsteered tcpTls reason.text :=
  same_recovery_text tcpTls reason.text

theorem not_unsteered_of_marker {tcpTls : Bool} {text : String} (marker : String)
    (hmarker : marker ∈ ["net_rebind", "target_repair", "turn channel rebind retry exhausted"])
    (h : contains (toAsciiLowercase text) marker = true) : ¬ Unsteered tcpTls text := by
  intro hsteered
  rw [hsteered.2.1 marker hmarker] at h
  cases h

theorem reason_markers :
    contains (toAsciiLowercase "TURN ") "turn " = true ∧
      contains (toAsciiLowercase (Turn.stunSuffix 401)) "stun error 401" = true ∧
      contains (toAsciiLowercase "TURN channel rebind retry exhausted")
        "turn channel rebind retry exhausted" = true := by
  decide +kernel

theorem contains_turn (method failed status : String) :
    contains (toAsciiLowercase ("TURN " ++ method ++ failed ++ status)) "turn " = true := by
  rw [toAsciiLowercase_append, toAsciiLowercase_append, toAsciiLowercase_append]
  exact contains_append_left (contains_append_left
    (contains_append_left reason_markers.1 _) _) _

/-- What names TURN and ends with an unauthorized response invalidates the credential. -/
theorem invalidates_of_suffix {front back : String}
    (hfront : contains (toAsciiLowercase front) "turn " = true)
    (hback : contains (toAsciiLowercase back) "stun error 401" = true) :
    (fromWriter (front ++ back)).shouldInvalidateTurnCredentials = true := by
  have hcode : (fromWriter (front ++ back)).turnStunCode = none := rfl
  have hlower : (fromWriter (front ++ back)).lower =
      toAsciiLowercase front ++ toAsciiLowercase back := toAsciiLowercase_append front back
  rw [SessionError.shouldInvalidateTurnCredentials, hcode, hlower]
  simp only [List.any_cons, contains_append_left hfront, contains_append_right hback, Bool.true_or,
    Bool.and_self]

theorem request_unauthorized (method : BitVec 16) (status : ℤ) :
    (fromWriter (Reason.request method status 401).text).shouldInvalidateTurnCredentials = true :=
  invalidates_of_suffix (contains_turn _ _ _) reason_markers.2.1

/-- A Refresh that is answered with 401, and the end of the rebind ladder. -/
theorem context_hides_markers :
    (¬ ∀ w : Worker, w.tcpTls = false →
      recover w (fromWriter (Reason.request 4 Turn.resultProtocol 401).text) =
        recover w (fromReader (Reason.request 4 Turn.resultProtocol 401).text)) ∧
    ¬ ∀ w : Worker, w.tcpTls = false →
      recover w (fromWriter Reason.rebindExhausted.text) =
        recover w (fromReader Reason.rebindExhausted.text) := by
  constructor
  · rw [same_recovery_text]
    rintro ⟨-, -, hinvalid, -⟩
    rw [request_unauthorized] at hinvalid
    cases hinvalid
  · rw [same_recovery_text]
    exact not_unsteered_of_marker "turn channel rebind retry exhausted" (by simp) reason_markers.2.2

end Csqtt.WorkerLoop
