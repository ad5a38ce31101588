/-
The requests that a session sends in clear text: `GETCONF` and `DISCONNECT`.

Their fields are joined with `|`, as they are.  The server finds them again by splitting at
that character, so what is sent is read back exactly when no field contains it; the port, the
device id, the password and the salt are the ones that can.

* `bar_confuses` — two registrations with one request, and nine fields in it;
* `fields_read_back_iff` — both requests give their fields back exactly when none of these four
  texts has a `|` in it, and then no other registration has that request.
-/
import Mathlib
import Csqtt.Idle
import Csqtt.TextPieces

namespace Csqtt.Protocol

open Pieces

/-- `WIRE_PROTOCOL_REVISION`. -/
def wireProtocolRevision : String := "CSQTT-WIRE-3"

/-- `usize::to_string`, and no text for no count. -/
def desiredText (desiredCount : Option ℕ) : String := desiredCount.elim "" Nat.repr

def configRequest (localPort deviceId password : String) (generationId : BitVec 64)
    (salt : String) (workerId : ℕ) (desiredCount : Option ℕ) : String :=
  "GETCONF:" ++ localPort ++ "|" ++ deviceId ++ "|" ++ password ++ "|" ++
    generationId.toNat.repr ++ "|" ++ salt ++ "|" ++ workerId.repr ++ "|" ++
    desiredText desiredCount ++ "|" ++ wireProtocolRevision

def disconnectRequest (deviceId salt : String) : String :=
  "DISCONNECT:" ++ deviceId ++ "|" ++ salt

/-- What `build_registration_payload` reads of the `SessionConfig`. -/
structure SessionConfig where
  id : ℕ
  localPort : String
  deviceId : String
  password : String
  generation : BitVec 64
  salt : String

/-- `build_registration_payload`: the request, and the generation offset it speaks for. -/
def buildRegistrationPayload (idle : Idle.Memory) (config : SessionConfig) :
    String × BitVec 64 :=
  (configRequest config.localPort config.deviceId config.password
      (idle.generation config.generation) config.salt config.id
      (some (max idle.declaredCount 1)),
    idle.genOffset)

/-- The arguments of `config_request`. -/
structure Registration where
  localPort : String
  deviceId : String
  password : String
  generationId : BitVec 64
  salt : String
  workerId : ℕ
  desiredCount : Option ℕ
  deriving DecidableEq

/-- `strip_prefix` and `split`. -/
def fieldsAfter (lead text : String) : Option (List String) :=
  if lead.toList <+: text.toList then
    some (((text.toList.drop lead.toList.length).splitOnP (· == '|')).map String.ofList)
  else none

namespace Registration

variable (r : Registration)

def request : String :=
  configRequest r.localPort r.deviceId r.password r.generationId r.salt r.workerId r.desiredCount

/-- The registration that a session sends. -/
def ofConfig (idle : Idle.Memory) (config : SessionConfig) : Registration where
  localPort := config.localPort
  deviceId := config.deviceId
  password := config.password
  generationId := idle.generation config.generation
  salt := config.salt
  workerId := config.id
  desiredCount := some (max idle.declaredCount 1)

theorem request_ofConfig (idle : Idle.Memory) (config : SessionConfig) :
    (buildRegistrationPayload idle config).1 = (ofConfig idle config).request := rfl

/-- The eight values, as text. -/
def fields : List String :=
  [r.localPort, r.deviceId, r.password, r.generationId.toNat.repr, r.salt, r.workerId.repr,
    desiredText r.desiredCount, wireProtocolRevision]

/-- None of the four free texts has the separator in it. -/
def Clean : Prop :=
  '|' ∉ r.localPort.toList ∧ '|' ∉ r.deviceId.toList ∧ '|' ∉ r.password.toList ∧
    '|' ∉ r.salt.toList

instance : Decidable r.Clean := inferInstanceAs (Decidable (_ ∧ _ ∧ _ ∧ _))

end Registration

/-! ### Joining and splitting -/

/-- Fields joined with the separator. -/
def joined (fields : List String) : List Char := ['|'].intercalate (fields.map String.toList)

/-- What is joined comes back exactly when no field has the separator in it. -/
theorem split_joined_iff {fields : List String} (hne : fields ≠ []) :
    ((joined fields).splitOnP (· == '|')).map String.ofList = fields ↔
      ∀ w ∈ fields, '|' ∉ w.toList := by
  constructor
  · intro h w hw hbar
    rw [← h] at hw
    obtain ⟨piece, hpiece, rfl⟩ := List.mem_map.mp hw
    rw [String.toList_ofList] at hbar
    simpa using mem_splitOnP_clean hpiece '|' hbar
  · intro h
    have hclean : ∀ w ∈ fields.map String.toList, ∀ c ∈ w, (c == '|') = false := by
      intro w hw c hc
      obtain ⟨v, hv, rfl⟩ := List.mem_map.mp hw
      refine beq_eq_false_iff_ne.mpr fun hbar => h v hv ?_
      rwa [← hbar]
    rw [joined, splitOnP_intercalate (by simp) hclean (by simpa using hne), List.map_map]
    exact (List.map_congr_left fun w _ => String.ofList_toList).trans (List.map_id fields)

/-- After its lead a text of joined fields is split into what was joined. -/
theorem fieldsAfter_joined_iff {lead text : String} {fields : List String}
    (htext : text.toList = lead.toList ++ joined fields) (hne : fields ≠ []) :
    fieldsAfter lead text = some fields ↔ ∀ w ∈ fields, '|' ∉ w.toList := by
  rw [fieldsAfter, htext, if_pos (List.prefix_append _ _), List.drop_left, Option.some_inj]
  exact split_joined_iff hne

@[simp] theorem joined_single (w : String) : joined [w] = w.toList := List.append_nil _

@[simp] theorem joined_cons (w v : String) (ws : List String) :
    joined (w :: v :: ws) = w.toList ++ ("|".toList ++ joined (v :: ws)) := by
  simp only [joined, List.map_cons, List.intercalate_cons_cons, List.append_assoc]
  rfl

theorem disconnect_toList (deviceId salt : String) :
    (disconnectRequest deviceId salt).toList =
      "DISCONNECT:".toList ++ joined [deviceId, salt] := by
  unfold disconnectRequest
  simp only [joined_cons, joined_single]
  generalize "DISCONNECT:" = lead, "|" = bar
  simp only [String.toList_append, List.append_assoc]

/-- A number is written with digits only. -/
theorem bar_notMem_repr (n : ℕ) : '|' ∉ n.repr.toList := by
  rw [Nat.toList_repr]
  intro h
  have hdigit := Nat.isDigit_of_mem_toDigits (by omega) (by omega) h
  exact absurd hdigit (by decide)

theorem bar_notMem_desiredText (desiredCount : Option ℕ) : '|' ∉ (desiredText desiredCount).toList := by
  cases desiredCount with
  | none => exact List.not_mem_nil
  | some n => exact bar_notMem_repr n

theorem desiredText_inj {a b : Option ℕ} (h : desiredText a = desiredText b) : a = b := by
  have hne : ∀ n : ℕ, Nat.repr n ≠ "" := by
    intro n h
    have hlist := congrArg String.toList h
    rw [Nat.toList_repr] at hlist
    exact Nat.toDigits_ne_nil hlist
  cases a with
  | none =>
    cases b with
    | none => rfl
    | some n => exact absurd h.symm (hne n)
  | some m =>
    cases b with
    | none => exact absurd h (hne m)
    | some n => rw [Nat.repr_inj.mp h]

namespace Registration

variable (r : Registration)

theorem request_toList : r.request.toList = "GETCONF:".toList ++ joined r.fields := by
  unfold request configRequest fields
  simp only [joined_cons, joined_single]
  generalize "GETCONF:" = lead, "|" = bar
  simp only [String.toList_append, List.append_assoc]

theorem clean_iff : r.Clean ↔ ∀ w ∈ r.fields, '|' ∉ w.toList := by
  have hrevision : '|' ∉ wireProtocolRevision.toList := by decide
  simp only [Clean, fields, List.forall_mem_cons, List.not_mem_nil, false_imp_iff, forall_const,
    bar_notMem_repr, bar_notMem_desiredText, hrevision, not_false_eq_true, true_and, and_true]

/-- The generation, the worker id and the count are read off their texts. -/
theorem eq_of_fields {r r' : Registration} (h : r.fields = r'.fields) : r = r' := by
  obtain ⟨localPort, deviceId, password, generationId, salt, workerId, desiredCount⟩ := r
  obtain ⟨localPort', deviceId', password', generationId', salt', workerId', desiredCount'⟩ := r'
  simp only [fields, List.cons.injEq] at h
  obtain ⟨rfl, rfl, rfl, hgeneration, rfl, hworker, hdesired, -⟩ := h
  obtain rfl := BitVec.eq_of_toNat_eq (Nat.repr_inj.mp hgeneration)
  obtain rfl := Nat.repr_inj.mp hworker
  obtain rfl := desiredText_inj hdesired
  rfl

/-- The separators of a request: seven of its own, and those of the free texts. -/
theorem count_request : r.request.toList.count '|' =
    7 + (r.localPort.toList.count '|' + r.deviceId.toList.count '|' +
      r.password.toList.count '|' + r.salt.toList.count '|') := by
  have hlead : "GETCONF:".toList.count '|' = 0 := by decide
  have hbar : "|".toList.count '|' = 1 := by decide
  have hrevision : wireProtocolRevision.toList.count '|' = 0 := by decide
  have hrepr : ∀ n : ℕ, n.repr.toList.count '|' = 0 :=
    fun n => List.count_eq_zero.mpr (bar_notMem_repr n)
  have hdesired : (desiredText r.desiredCount).toList.count '|' = 0 :=
    List.count_eq_zero.mpr (bar_notMem_desiredText _)
  rw [request_toList, fields]
  simp only [joined_cons, joined_single, List.count_append, hlead, hbar, hrevision, hrepr, hdesired]
  omega

theorem clean_iff_count : r.Clean ↔ r.request.toList.count '|' = 7 := by
  rw [count_request, Clean, ← List.count_eq_zero, ← List.count_eq_zero, ← List.count_eq_zero,
    ← List.count_eq_zero]
  omega

/-- What the claim asks of the two requests: each is split into the values it was made of. -/
def ReadBack : Prop :=
  fieldsAfter "GETCONF:" r.request = some r.fields ∧
    fieldsAfter "DISCONNECT:" (disconnectRequest r.deviceId r.salt) = some [r.deviceId, r.salt]

end Registration

/-- A `|` in the password, and the same request with that `|` after the device id. -/
def barInPassword : Registration := ⟨"9000", "device", "1|2", 7, "salt", 4, some 36⟩
def barInDeviceId : Registration := ⟨"9000", "device|1", "2", 7, "salt", 4, some 36⟩

theorem bar_confuses : ¬ barInPassword.ReadBack ∧ barInPassword ≠ barInDeviceId ∧
    barInPassword.request = barInDeviceId.request ∧
    fieldsAfter "GETCONF:" barInPassword.request =
      some ["9000", "device", "1", "2", "7", "salt", "4", "36", "CSQTT-WIRE-3"] := by
  have hsplit : fieldsAfter "GETCONF:" barInPassword.request =
      some ["9000", "device", "1", "2", "7", "salt", "4", "36", "CSQTT-WIRE-3"] := by
    decide +kernel
  refine ⟨fun h => ?_, by decide, rfl, hsplit⟩
  have hfields := Option.some_inj.mp (hsplit.symm.trans h.1)
  exact absurd (congrArg List.length hfields) (by decide)

/-- Both requests give their values back exactly when the local port, the device id, the
password and the salt are free of the separator; the request is then no other registration's. -/
theorem fields_read_back_iff (r : Registration) :
    (r.ReadBack ↔ r.Clean) ∧ (r.Clean → ∀ r', r'.request = r.request → r' = r) := by
  have hgetconf := fieldsAfter_joined_iff r.request_toList (List.cons_ne_nil _ _)
  have hdisconnect := fieldsAfter_joined_iff (disconnect_toList r.deviceId r.salt)
    (List.cons_ne_nil _ _)
  refine ⟨⟨fun h => r.clean_iff.mpr (hgetconf.mp h.1), fun h => ?_⟩, fun h r' heq => ?_⟩
  · refine ⟨hgetconf.mpr (r.clean_iff.mp h), hdisconnect.mpr fun w hw => ?_⟩
    rcases List.mem_cons.mp hw with rfl | hw
    · exact h.2.1
    · exact List.mem_singleton.mp hw ▸ h.2.2.2
  · -- as many separators, so the other one is free of them too
    have h' : r'.Clean := by
      rw [Registration.clean_iff_count, heq]
      exact r.clean_iff_count.mp h
    have hgetconf' := (fieldsAfter_joined_iff r'.request_toList (List.cons_ne_nil _ _)).mpr
      (r'.clean_iff.mp h')
    rw [heq, hgetconf.mpr (r.clean_iff.mp h)] at hgetconf'
    exact (Registration.eq_of_fields (Option.some_inj.mp hgetconf')).symm

end Csqtt.Protocol
