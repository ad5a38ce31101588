/-
The saved state of the helper over the runs of its processes.

A process of either scheme restores the state that the host holds, creates calls when it
needs hashes, and saves the state.  Each step is a whole process, up to the point where its
hashes are ready, or one later saving of TURN credentials, which saves the helper's state
with them.  The notes of what has been created and finished are not kept by the source.
-/
import Csqtt.AutoCalls
import Csqtt.TransitionRun

open Transition Csqtt.Text

namespace Csqtt.AutoCalls

/-- `savedState`. -/
structure SavedState where
  vkToken : String := ""
  deviceId : String := ""
  generation : ℕ := 0
  manualHashes : List String := []
  autoHashes : List String := []
  autoCallIds : List String := []
  /-- In seconds. -/
  autoHashesAt : ℤ := 0

/-- `autoHashesTTL`, in milliseconds. -/
def autoHashesTTL : ℤ := 72 * 3600 * 1000

/-- `restoreSavedState`, of a state that has been decoded. -/
def restoreSavedState (st : SavedState) : SavedState :=
  { st with
    vkToken := trim st.vkToken
    deviceId := trim st.deviceId
    manualHashes := uniqHashes st.manualHashes
    autoHashes := uniqHashes st.autoHashes
    autoCallIds := st.autoCallIds.take (uniqHashes st.autoHashes).length }

/-- `helperStateFields`. -/
def helperStateFields (st : SavedState) : SavedState :=
  if st.autoHashes = [] then { st with autoCallIds := [], autoHashesAt := 0 } else st

/-- The state of a process, and what the host holds. -/
structure Helper where
  persisted : SavedState := {}
  /-- The last `STATE_SAVE`. -/
  saved : SavedState := {}
  /-- Not in the source: the process has restored the state. -/
  restored : Bool := true
  /-- Not in the source: the calls that have been created, and those that have been handed
  to `finishVkAutoCalls`. -/
  created : List ActiveCall := []
  finished : List ActiveCall := []

namespace Helper

def persistState (s : Helper) : Helper := { s with saved := s.persisted }

/-- `restoreSavedState` at the start of a process. -/
def restore (s : Helper) : Helper :=
  { s with persisted := restoreSavedState s.saved, restored := true }

/-- `autoHashesCacheValid`; `now` is in milliseconds. -/
def autoHashesCacheValid (s : Helper) (now : ℤ) : Bool :=
  let age := now - s.persisted.autoHashesAt * 1000
  s.persisted.autoHashes ≠ [] && 0 < s.persisted.autoHashesAt && 0 ≤ age && age < autoHashesTTL

def takeCachedAutoHashes (s : Helper) (now : ℤ) : Option (List String) :=
  if s.autoHashesCacheValid now then some s.persisted.autoHashes else none

def storeAutoHashes (s : Helper) (started : AutoStart) (now : ℤ) : Helper :=
  persistState { s with persisted := { s.persisted with
    autoHashes := uniqHashes started.hashes
    autoCallIds := (started.calls.map fun c => trim c.callId).filter (· ≠ "")
    autoHashesAt := now / 1000 } }

def appendAutoHashes (s : Helper) (started : AutoStart) (now : ℤ) : Helper :=
  persistState { s with persisted := { s.persisted with
    autoHashes := uniqHashes (s.persisted.autoHashes ++ started.hashes)
    autoCallIds := s.persisted.autoCallIds ++
      (started.calls.map fun c => trim c.callId).filter (· ≠ "")
    autoHashesAt := if s.persisted.autoHashesAt ≤ 0 then now / 1000
      else s.persisted.autoHashesAt } }

def expireAutoHashes (s : Helper) (token : String) : Helper :=
  if s.persisted.autoCallIds = [] ∧ s.persisted.autoHashes = [] then s
  else
    let calls := s.persisted.autoCallIds.mapIdx fun i id =>
      ActiveCall.mk id (s.persisted.autoHashes[i]?.getD "")
    persistState { s with
      persisted := { s.persisted with autoHashes := [], autoCallIds := [], autoHashesAt := 0 }
      finished := if trim token ≠ "" then s.finished ++ calls else s.finished }

def saveVkToken (s : Helper) (token : String) : Helper :=
  persistState { s with persisted := { s.persisted with vkToken := trim token } }

/-- A token that `parseVkAccessToken` gives is not blank. -/
abbrev Token := {token : String // trim token ≠ ""}

/-- `ensureVkToken`; `blob` is the state at the start of the process, `login` what
`requestVkAccessToken` would give. -/
def ensureVkToken (s : Helper) (blob : SavedState) (login : Option Token) :
    Option String × Helper :=
  let token := trim s.persisted.vkToken
  let restored := (restoreSavedState blob).vkToken
  if token ≠ "" then (some token, s)
  else if restored ≠ "" then
    (some restored, { s with persisted := { s.persisted with vkToken := restored } })
  else login.elim (none, s) fun token => (some token.val, s.saveVkToken token.val)

/-- `startVkAutoCallsCount`, with a note of what it creates. -/
def startCalls (s : Helper) (token : String) (count : ℤ) (api : ℕ → ℕ → ApiAnswer) :
    (AutoStart × Option StartError) × Helper :=
  let started := startVkAutoCallsCount token count api
  (started, { s with created := s.created ++ started.1.calls })

end Helper

/-! ### The processes -/

inductive HashMode where
  | manual
  | autoApi
  | autoJs
  deriving DecidableEq

/-- What a CSQTT process is given, and what VK and the host answer in it. -/
structure CsqttRun where
  hashMode : HashMode
  /-- `authMode` is `auto_js`. -/
  autoJsAuth : Bool
  deviceId : String
  workers : ℤ
  /-- `collectManualHashes`. -/
  linkHashes : List String
  now : ℤ
  /-- `promptManualHashes`. -/
  prompt : Option (List String)
  /-- The answers of `requestVkAccessToken`: to the first login, after a rejected token,
  and the same when calls are added. -/
  logins : Fin 4 → Option Helper.Token
  /-- The answers of `calls.start` for each batch, slot and attempt. -/
  api : Fin 4 → ℕ → ℕ → ApiAnswer

/-- The variables of `csqttRun`. -/
structure Session where
  hashMode : HashMode
  hashes : List String
  vkToken : String

namespace CsqttRun

variable (env : CsqttRun)

def needHashes : ℕ := callCountForWorkers env.workers

/-- `seedHashes`. -/
def seedHashes (s : Helper) : List String :=
  uniqHashes (env.linkHashes ++ s.persisted.manualHashes)

/-- The fallback to the hashes of the link and the settings; none is fatal. -/
def fallback (seed : List String) (s : Helper) : Option Session × Helper :=
  (if seed = [] then none else some ⟨.manual, seed, ""⟩, s)

/-- `csqttRun` up to the login. -/
def signIn (blob : SavedState) (seed : List String) (s : Helper) : Option Session × Helper :=
  let hashes := if env.hashMode = .autoApi then (s.takeCachedAutoHashes env.now).getD [] else []
  let covered := env.hashMode = .autoApi ∧ env.needHashes ≤ hashes.length ∧ ¬ env.autoJsAuth
  let needOAuth := (env.hashMode ≠ .manual ∨ env.autoJsAuth) ∧ ¬ covered
  if needOAuth then
    match s.ensureVkToken blob (env.logins 0) with
    | (some token, s) => (some ⟨env.hashMode, hashes, token⟩, s)
    | (none, s) =>
      if seed = [] then
        ((s.takeCachedAutoHashes env.now).map fun cached => ⟨.manual, cached, ""⟩, s)
      else fallback seed s
  else (some ⟨env.hashMode, hashes, ""⟩, s)

/-- A batch has been asked for. -/
def settleStart (seed : List String) (token : String)
    (started : (AutoStart × Option StartError) × Helper) : Option Session × Helper :=
  match started with
  | ((out, err), s) =>
    if err ≠ none ∨ out.hashes = [] then fallback seed s
    else (some ⟨.autoApi, out.hashes, token⟩, s.storeAutoHashes out env.now)

def manual (hashes : List String) (session : Session) (s : Helper) : Option Session × Helper :=
  (some { session with hashes },
    Helper.persistState { s with persisted := { s.persisted with manualHashes := hashes } })

/-- `csqttRun` when there are no hashes yet. -/
def create (seed : List String) (session : Session) (s : Helper) : Option Session × Helper :=
  if session.hashes = [] then
    match session.hashMode with
    | .autoApi =>
      let s := if s.persisted.autoHashes = [] then s else s.expireAutoHashes session.vkToken
      let started := s.startCalls session.vkToken env.needHashes (env.api 0)
      if started.1.2 = some .tokenInvalid then
        let s := started.2.saveVkToken ""
        match env.logins 1 with
        | none => fallback seed s
        | some fresh =>
          let s := s.saveVkToken fresh.val
          env.settleStart seed fresh.val (s.startCalls fresh.val env.needHashes (env.api 1))
      else env.settleStart seed session.vkToken started
    | .autoJs => (some session, s)
    | .manual =>
      match if seed = [] then env.prompt else some seed with
      | none | some [] => (none, s)
      | some (h :: hs) => manual (h :: hs) session s
  else if session.hashMode = .manual then manual session.hashes session s
  else (some session, s)

/-- `csqttRun` when there are too few hashes. -/
def topUp (blob : SavedState) (session : Session) (s : Helper) : Helper :=
  let missing := min (env.needHashes - session.hashes.length) (maxVkHashes - session.hashes.length)
  if session.hashMode = .autoApi ∧ session.hashes ≠ [] ∧ 0 < missing then
    let (token, s) := if session.vkToken = "" then s.ensureVkToken blob (env.logins 2)
      else (some session.vkToken, s)
    match token with
    | none => s
    | some token =>
      let started := s.startCalls token missing (env.api 2)
      let started := if started.1.2 = some .tokenInvalid then
          let s := started.2.saveVkToken ""
          match env.logins 3 with
          | none => (started.1, s)
          | some fresh => (s.saveVkToken fresh.val).startCalls fresh.val missing (env.api 3)
        else started
      if started.1.2 = none ∧ started.1.1.hashes ≠ [] then
        started.2.appendAutoHashes started.1.1 env.now
      else started.2
  else s

/-- `csqttRun` until the hashes are ready. -/
def run (s : Helper) : Helper :=
  let blob := s.saved
  let s := s.restore
  let s := Helper.persistState { s with persisted := { s.persisted with
    deviceId := env.deviceId
    generation := max (min (s.persisted.generation + 1) (2 ^ 64 - 1)) 1 } }
  let seed := env.seedHashes s
  match env.signIn blob seed s with
  | (none, s) => s
  | (some session, s) =>
    match env.create seed session s with
    | (none, s) => s
    | (some session, s) => env.topUp blob session s

end CsqttRun

/-- What a qWDTT process without hashes in its link is given. -/
structure QwdttRun where
  wantHashes : ℤ
  now : ℤ
  login : Option Helper.Token
  api : ℕ → ℕ → ApiAnswer

/-- `qwdttAutoHashes`, in a process that has just started. -/
def QwdttRun.run (env : QwdttRun) (s : Helper) : Helper :=
  let blob := s.saved
  let s := s.restore
  if s.autoHashesCacheValid env.now then s
  else
    match s.ensureVkToken blob env.login with
    | (none, s) => s
    | (some token, s) =>
      let s := if s.persisted.autoHashes = [] then s else s.expireAutoHashes token
      let started := s.startCalls token env.wantHashes env.api
      if started.1.2 ≠ none ∨ started.1.1.hashes = [] then started.2
      else started.2.storeAutoHashes started.1.1 env.now

inductive Event where
  | csqtt (env : CsqttRun)
  | qwdtt (env : QwdttRun)
  /-- A qWDTT process whose link has hashes. -/
  | qwdttWithHashes
  /-- `SaveCredsToHost`. -/
  | saveCreds

def step (s : Helper) : Event → Option Helper
  | .csqtt env => some (env.run s)
  | .qwdtt env => some (env.run s)
  | .qwdttWithHashes => some { s with persisted := {}, restored := false }
  | .saveCreds => some { s with saved := helperStateFields s.persisted }

end Csqtt.AutoCalls
