/-
The VK calls that the helper creates, and its saved state.

`calls.start` creates a call of VK and gives its id and its hash.  The helper keeps the
hashes and the ids in two parallel lists of its saved state, uses the hashes for days, and
ends the calls when their hashes have expired.  The answers of the VK service and of the
host are parameters.
-/
import Csqtt.Text
import Mathlib.Data.List.Nodup
import Mathlib.Data.Int.Order.Basic
import Mathlib.Algebra.Group.Nat.Defs

open Csqtt.Text

namespace Csqtt.AutoCalls

/-! ### Hashes -/

def maxVkHashes : ℕ := 4

/-- `strings.Trim` with one character. -/
def trimChar (c : Char) (s : String) : String :=
  String.ofList (((s.toList.dropWhile (· = c)).reverse.dropWhile (· = c)).reverse)

/-- The prefixes of a link to a call. -/
def joinPrefixes : List String :=
  ["https://vk.com/call/join/", "http://vk.com/call/join/", "https://m.vk.com/call/join/",
    "http://m.vk.com/call/join/", "m.vk.com/call/join/", "vk.com/call/join/",
    "https://vk.ru/call/join/", "http://vk.ru/call/join/", "https://m.vk.ru/call/join/",
    "http://m.vk.ru/call/join/", "m.vk.ru/call/join/", "vk.ru/call/join/"]

/-- `stripVkCallURL`; the prefixes are ASCII. -/
def stripVkCallURL (raw : String) : String :=
  let s := trim raw
  let link := joinPrefixes.find? fun p => p.toList.isPrefixOf (toAsciiLowercase s).toList
  let s := s.toList.drop (link.elim 0 String.length)
  trimChar '/' (trim (String.ofList (s.takeWhile fun c => c ≠ '?' ∧ c ≠ '#')))

def splitHashes (raw : String) : List String :=
  ((raw.toList.splitOnP fun c => c ∈ ['+', ',', ' ', '\t', '\n']).map fun p =>
    stripVkCallURL (String.ofList p)).filter (· ≠ "")

/-- The loop of `uniqHashes`, with the hashes so far. -/
def collect (out : List String) : List String → List String
  | [] => out
  | h :: hs =>
    if h ∈ out then collect out hs
    else if maxVkHashes ≤ (out ++ [h]).length then out ++ [h]
    else collect (out ++ [h]) hs

def uniqHashes (raw : List String) : List String :=
  collect [] ((raw.filter (· ≠ "<nil>")).flatMap splitHashes)

/-- A hash that `uniqHashes` takes as it is. -/
def Plain (h : String) : Prop := h ≠ "<nil>" ∧ splitHashes h = [h]

instance : DecidablePred Plain := fun h =>
  inferInstanceAs (Decidable (h ≠ "<nil>" ∧ splitHashes h = [h]))

theorem collect_of_nodup {out hs : List String} (h : (out ++ hs).Nodup)
    (hlength : (out ++ hs).length ≤ maxVkHashes) : collect out hs = out ++ hs := by
  induction hs generalizing out with
  | nil => simp [collect]
  | cons x hs ih =>
    have hnot : x ∉ out := by
      intro hx
      exact (List.nodup_append.mp h).2.2 x hx x List.mem_cons_self rfl
    rw [collect, if_neg hnot]
    have happend : out ++ x :: hs = out ++ [x] ++ hs := by simp
    rw [happend] at h hlength ⊢
    split_ifs with hfull
    · -- the last one that there is room for
      have hnil : hs = [] := by
        refine List.eq_nil_of_length_eq_zero ?_
        rw [List.length_append] at hlength
        omega
      rw [hnil, List.append_nil]
    · exact ih h hlength

/-- Plain hashes that all differ are kept, if there are not too many. -/
theorem uniqHashes_of_plain {hs : List String} (hplain : ∀ h ∈ hs, Plain h) (hnodup : hs.Nodup)
    (hlength : hs.length ≤ maxVkHashes) : uniqHashes hs = hs := by
  have hfilter : hs.filter (· ≠ "<nil>") = hs :=
    List.filter_eq_self.mpr fun h hh => decide_eq_true (hplain h hh).1
  have hsplit : hs.flatMap splitHashes = hs := by
    clear hfilter hnodup hlength
    induction hs with
    | nil => rfl
    | cons h hs ih =>
      rw [List.flatMap_cons, (hplain h List.mem_cons_self).2,
        ih fun x hx => hplain x (List.mem_cons_of_mem h hx)]
      rfl
  rw [uniqHashes, hfilter, hsplit]
  exact collect_of_nodup hnodup hlength

/-! ### Creating calls -/

structure ActiveCall where
  callId : String
  hash : String
  deriving DecidableEq

/-- An answer of `calls.start`. -/
inductive ApiAnswer where
  | response (callId joinLink okJoinLink : String)
  | tokenInvalid
  | failed

/-- What comes of it. -/
inductive Outcome where
  | ok (call : ActiveCall)
  | tokenInvalid
  | failed
  deriving DecidableEq

/-- `strings.TrimRight` with one character. -/
def trimRightChar (c : Char) (s : List Char) : List Char :=
  (s.reverse.dropWhile (· = c)).reverse

def hashFromJoinLink (joinLink okJoinLink : String) : String :=
  let hash := trim okJoinLink
  if hash ≠ "" then hash
  else String.ofList (trimRightChar '/'
    ((trim joinLink).toList.reverse.takeWhile (· ≠ '/')).reverse)

def vkStartCall : ApiAnswer → Outcome
  | .response callId joinLink okJoinLink =>
    let callId := trim callId
    let hash := hashFromJoinLink joinLink okJoinLink
    if callId = "" ∨ hash = "" then .failed else .ok ⟨callId, hash⟩
  | .tokenInvalid => .tokenInvalid
  | .failed => .failed

/-- The loop of `vkStartCallWithRetry`, with so many attempts left. -/
def retryStart (answers : ℕ → ApiAnswer) : ℕ → ℕ → Outcome
  | 0, _ => .failed
  | left + 1, attempt =>
    match vkStartCall (answers attempt) with
    | .failed => retryStart answers left (attempt + 1)
    | .ok call => .ok call
    | .tokenInvalid => .tokenInvalid

def autoCallMaxAttempts : ℕ := 3

def vkStartCallWithRetry (answers : ℕ → ApiAnswer) : Outcome :=
  retryStart answers autoCallMaxAttempts 0

/-- `vkAutoStart`. -/
structure AutoStart where
  hashes : List String := []
  calls : List ActiveCall := []
  requested : ℕ := 0
  created : ℕ := 0

inductive StartError where
  | emptyToken
  | tokenInvalid
  /-- Not a single call has been created. -/
  | nothingCreated
  deriving DecidableEq

def maxAutoCallsQwdtt : ℕ := 12

/-- The loop of `startVkAutoCallsCount`, with so many slots left. -/
def startSlots (api : ℕ → ℕ → ApiAnswer) : ℕ → ℕ → AutoStart → AutoStart × Option StartError
  | 0, _, out => (out, if out.created = 0 then some .nothingCreated else none)
  | left + 1, slot, out =>
    match vkStartCallWithRetry (api slot) with
    | .tokenInvalid => (out, some .tokenInvalid)
    | .failed => startSlots api left (slot + 1) out
    | .ok call => startSlots api left (slot + 1) { out with
        hashes := out.hashes ++ [call.hash]
        calls := out.calls ++ [call]
        created := out.created + 1 }

/-- How many calls are requested. -/
def clampCount (count : ℤ) : ℕ := (min (max count 1) maxAutoCallsQwdtt).toNat

/-- `api` gives the answer for each slot and attempt. -/
def startVkAutoCallsCount (token : String) (count : ℤ) (api : ℕ → ℕ → ApiAnswer) :
    AutoStart × Option StartError :=
  if trim token = "" then ({}, some .emptyToken)
  else startSlots api (clampCount count) 0 { requested := clampCount count }

/-! #### Workers -/

def workersPerGroup : ℕ := 9

def groupsPerVKHash : ℕ := 3

def maxWorkers : ℕ := 126

def normalizeWorkerCount (requested maximum : ℕ) : ℕ :=
  let maximum := max maximum workersPerGroup / workersPerGroup * workersPerGroup
  min (max requested workersPerGroup) maximum / workersPerGroup * workersPerGroup

def maximumWorkersForHashes (hashCount : ℕ) : ℕ :=
  normalizeWorkerCount (min (max hashCount 1) maxVkHashes * groupsPerVKHash * workersPerGroup)
    maxWorkers

def callCountForWorkers (workers : ℤ) : ℕ :=
  let workers := if workers ≤ 0 then ((workersPerGroup * 2 : ℕ) : ℤ) else workers
  ([1, 2, 3, 4].find? fun n => workers ≤ (maximumWorkersForHashes n : ℤ)).getD maxVkHashes

theorem callCountForWorkers_bounds (workers : ℤ) :
    1 ≤ callCountForWorkers workers ∧ callCountForWorkers workers ≤ maxVkHashes := by
  rw [callCountForWorkers]
  rcases hfound : [1, 2, 3, 4].find? _ with _ | n
  · decide
  · have hmem := List.mem_of_find?_eq_some hfound
    simp only [List.mem_cons, List.not_mem_nil, or_false] at hmem
    rw [Option.getD_some, maxVkHashes]
    omega

/-! ### What a batch creates -/

/-- Once a call of the batch has been created, the token is not rejected any more. -/
def Steady (api : ℕ → ℕ → ApiAnswer) : Prop :=
  ∀ i j call, i < j → vkStartCallWithRetry (api i) = .ok call →
    vkStartCallWithRetry (api j) ≠ .tokenInvalid

/-- A call that the batch can create in a slot from this one on. -/
def Given (api : ℕ → ℕ → ApiAnswer) (slot : ℕ) (call : ActiveCall) : Prop :=
  ∃ i, slot ≤ i ∧ vkStartCallWithRetry (api i) = .ok call

def Outcome.isOk : Outcome → Bool
  | .ok _ => true
  | .tokenInvalid | .failed => false

/-- How many of these slots would create a call. -/
def okSlots (api : ℕ → ℕ → ApiAnswer) (slot left : ℕ) : ℕ :=
  (List.range' slot left).countP fun i => (vkStartCallWithRetry (api i)).isOk

theorem okSlots_succ (api : ℕ → ℕ → ApiAnswer) (slot left : ℕ) :
    okSlots api slot (left + 1) = okSlots api (slot + 1) left +
      if (vkStartCallWithRetry (api slot)).isOk then 1 else 0 := by
  rw [okSlots, okSlots, List.range'_succ, List.countP_cons]

theorem okSlots_le (api : ℕ → ℕ → ApiAnswer) (slot left : ℕ) : okSlots api slot left ≤ left :=
  List.countP_le_length.trans_eq List.length_range'

/-- What the loop adds to `out`. -/
structure Batch (api : ℕ → ℕ → ApiAnswer) (left slot : ℕ) (out : AutoStart)
    (result : AutoStart × Option StartError) (new : List ActiveCall) : Prop where
  calls : result.1.calls = out.calls ++ new
  hashes : result.1.hashes = out.hashes ++ new.map (·.hash)
  created : result.1.created = out.created + new.length
  length : new.length ≤ okSlots api slot left
  given : ∀ c ∈ new, Given api slot c
  apart : new.Pairwise fun c c' => ∃ i j, i < j ∧ vkStartCallWithRetry (api i) = .ok c ∧
    vkStartCallWithRetry (api j) = .ok c'
  /-- The token is rejected after all that has been created. -/
  rejected : result.2 = some .tokenInvalid → ∃ j, slot ≤ j ∧
    vkStartCallWithRetry (api j) = .tokenInvalid ∧
      ∀ c ∈ new, ∃ i < j, vkStartCallWithRetry (api i) = .ok c
  nothing : result.2 = some .nothingCreated → result.1.created = 0
  token : result.2 ≠ some .emptyToken

theorem startSlots_batch (api : ℕ → ℕ → ApiAnswer) (left slot : ℕ) (out : AutoStart) :
    ∃ new, Batch api left slot out (startSlots api left slot out) new := by
  induction left generalizing slot out with
  | zero =>
    refine ⟨[], by simp [startSlots], by simp [startSlots], by simp [startSlots], Nat.zero_le _,
      fun _ h => (nomatch h), .nil, fun h => ?_, fun h => ?_, fun h => ?_⟩
    · simp only [startSlots] at h
      split_ifs at h
      cases h
    · simp only [startSlots] at h ⊢
      split_ifs at h with hzero
      exact hzero
    · simp only [startSlots] at h
      split_ifs at h
      cases h
  | succ left ih =>
    rcases houtcome : vkStartCallWithRetry (api slot) with call | _ | _
    · -- one more call, before all the others
      obtain ⟨new, hnew⟩ := ih (slot + 1) { out with
        hashes := out.hashes ++ [call.hash], calls := out.calls ++ [call],
        created := out.created + 1 }
      simp only [startSlots, houtcome]
      refine ⟨call :: new, ?_, ?_, ?_, ?_, ?_, ?_, fun h => ?_, hnew.nothing, hnew.token⟩
      · rw [hnew.calls, List.append_assoc]
        rfl
      · rw [hnew.hashes, List.append_assoc]
        rfl
      · rw [hnew.created, List.length_cons]
        exact Nat.add_right_comm _ _ _
      · rw [okSlots_succ, houtcome, List.length_cons]
        exact Nat.add_le_add_right hnew.length 1
      · intro c hc
        rcases List.mem_cons.mp hc with rfl | hc
        · exact ⟨slot, Nat.le_refl slot, houtcome⟩
        · obtain ⟨i, hi, hok⟩ := hnew.given c hc
          exact ⟨i, Nat.le_of_succ_le hi, hok⟩
      · refine List.pairwise_cons.mpr ⟨fun c hc => ?_, hnew.apart⟩
        obtain ⟨i, hi, hok⟩ := hnew.given c hc
        exact ⟨slot, i, hi, houtcome, hok⟩
      · obtain ⟨j, hj, hinvalid, hbefore⟩ := hnew.rejected h
        refine ⟨j, Nat.le_of_succ_le hj, hinvalid, fun c hc => ?_⟩
        rcases List.mem_cons.mp hc with rfl | hc
        · exact ⟨slot, hj, houtcome⟩
        · exact hbefore c hc
    · simp only [startSlots, houtcome]
      exact ⟨[], by simp, by simp, by simp, Nat.zero_le _, fun _ h => (nomatch h), .nil,
        fun _ => ⟨slot, Nat.le_refl slot, houtcome, fun _ h => (nomatch h)⟩, nofun, nofun⟩
    · obtain ⟨new, hnew⟩ := ih (slot + 1) out
      simp only [startSlots, houtcome]
      refine ⟨new, hnew.calls, hnew.hashes, hnew.created, ?_, ?_, hnew.apart, fun h => ?_,
        hnew.nothing, hnew.token⟩
      · rw [okSlots_succ, houtcome]
        exact hnew.length
      · intro c hc
        obtain ⟨i, hi, hok⟩ := hnew.given c hc
        exact ⟨i, Nat.le_of_succ_le hi, hok⟩
      · obtain ⟨j, hj, hrest⟩ := hnew.rejected h
        exact ⟨j, Nat.le_of_succ_le hj, hrest⟩

/-- What a batch with a steady token returns: all its calls without an error, or none. -/
structure Whole (api : ℕ → ℕ → ApiAnswer) (count : ℤ) (result : AutoStart × Option StartError) :
    Prop where
  none_of_error : result.2 ≠ none → result.1.calls = []
  hashes : result.1.hashes = result.1.calls.map (·.hash)
  length : result.1.calls.length ≤ okSlots api 0 (clampCount count)
  given : ∀ c ∈ result.1.calls, Given api 0 c
  apart : result.1.calls.Pairwise fun c c' => ∃ i j, i < j ∧
    vkStartCallWithRetry (api i) = .ok c ∧ vkStartCallWithRetry (api j) = .ok c'

theorem startVkAutoCallsCount_whole {api : ℕ → ℕ → ApiAnswer} (hsteady : Steady api)
    (token : String) (count : ℤ) : Whole api count (startVkAutoCallsCount token count api) := by
  rw [startVkAutoCallsCount]
  split_ifs with htoken
  · exact ⟨fun _ => rfl, rfl, Nat.zero_le _, fun _ h => (nomatch h), .nil⟩
  · obtain ⟨new, hnew⟩ := startSlots_batch api (clampCount count) 0 { requested := clampCount count }
    have hcalls : (startSlots api (clampCount count) 0 { requested := clampCount count }).1.calls =
        new := hnew.calls
    refine ⟨fun herr => ?_, by rw [hcalls]; exact hnew.hashes, by rw [hcalls]; exact hnew.length,
      by rw [hcalls]; exact hnew.given, by rw [hcalls]; exact hnew.apart⟩
    rw [hcalls]
    rcases hresult : (startSlots api (clampCount count) 0 { requested := clampCount count }).2 with
      _ | _ | _ | _
    · exact absurd hresult herr
    · exact absurd hresult hnew.token
    · obtain ⟨j, _, hinvalid, hbefore⟩ := hnew.rejected hresult
      refine List.eq_nil_iff_forall_not_mem.mpr fun c hc => ?_
      obtain ⟨i, hi, hok⟩ := hbefore c hc
      exact hsteady i j c hi hok hinvalid
    · have hzero := hnew.nothing hresult
      rw [hnew.created] at hzero
      exact List.eq_nil_of_length_eq_zero (by omega)

/-- The id of a created call is trimmed and not empty. -/
theorem Given.callId {api : ℕ → ℕ → ApiAnswer} {slot : ℕ} {call : ActiveCall}
    (h : Given api slot call) : trim call.callId = call.callId ∧ call.callId ≠ "" := by
  obtain ⟨i, _, hok⟩ := h
  have hstart : ∀ answer, vkStartCall answer = .ok call →
      trim call.callId = call.callId ∧ call.callId ≠ "" := by
    intro answer hanswer
    cases answer with
    | response callId joinLink okJoinLink =>
      simp only [vkStartCall] at hanswer
      split_ifs at hanswer with hblank
      cases hanswer
      exact ⟨trim_trim callId, fun h => hblank (.inl h)⟩
    | tokenInvalid | failed => cases hanswer
  have hretry : ∀ left attempt, retryStart (api i) left attempt = .ok call →
      trim call.callId = call.callId ∧ call.callId ≠ "" := by
    intro left
    induction left with
    | zero => exact fun _ h => nomatch h
    | succ left ih =>
      intro attempt h
      simp only [retryStart] at h
      split at h
      · exact ih _ h
      · next hanswer =>
        cases h
        exact hstart _ hanswer
      · cases h
  exact hretry _ _ hok

end Csqtt.AutoCalls
