import Fullmac.Rx.Reorder

/-!
# Calls of the host API

Reference: `host/core/host_apis.c`, `_ssv6xxx_send_msg_to_hcmd_eng` to `_ssv6xxx_wifi_ioctl`,
`_ssv6xxx_wifi_join`, `_ssv6xxx_wifi_leave` and `_ssv6xxx_wifi_send_ethernet`.

A call hands a command frame to the command engine or a data frame to the transmit path. All of them
begin alike: nothing is done while the API is off, and a chip that saves power is woken up first
(`withHostApi`). The result of the wake-up is a Boolean and the result of the call a number, and
both go through the same variable.

The outcome of what a call asks of the system is in `ApiEnv`, what it does with frames in its
events. The length fields of a command are left out.
-/

namespace Fullmac.Host

/-! ## Results -/

/-- `SSV6XXX_SUCCESS`. -/
def ssvSuccess : ℤ := 0

/-- `SSV6XXX_FAILED`. -/
def ssvFailed : ℤ := -1

/-- `SSV6XXX_NO_MEM`. -/
def ssvNoMem : ℤ := -3

/-- `SSV6XXX_QUEUE_FULL`. -/
def ssvQueueFull : ℤ := -4

/-- `HOST_API_STATE`. -/
inductive HostApiState
  | deactive | active | pwrSaving
deriving DecidableEq, Repr

/-! ## Interfaces and frames -/

theorem maxVifNum_pos : 0 < Rx.maxVifNum := by decide

/-- Interface 0. -/
def vif0 : Fin Rx.maxVifNum := ⟨0, maxVifNum_pos⟩

/-- `struct cfg_join_request`. What the host does not look at is `body`. -/
structure JoinRequest where
  vifIdx : Fin Rx.maxVifNum
  bssid : Vector UInt8 6
  wmmUsed : Bool
  htSupported : Bool
  htCapIe : List UInt8
  body : List UInt8
deriving DecidableEq

/-- What a command frame carries. -/
inductive CmdBody
  | data (bytes : List UInt8)
  | join (r : JoinRequest)
  | leave (reason vifIdx : ℕ)
deriving DecidableEq

/-- A command frame. -/
structure CmdFrame where
  hCmd : ℕ
  cmdSeqNo : ℕ
  body : CmdBody
deriving DecidableEq

/-- A frame that a call has to do with: the command it builds or the data frame of its caller. -/
inductive ApiFrame
  | cmd (f : CmdFrame)
  | data (ptr : ℕ)
deriving DecidableEq

/-- What a call does. -/
inductive ApiEvent
  /-- `os_frame_alloc`, and the frame filled. -/
  | alloc (f : ApiFrame)
  /-- `os_msg_send`. -/
  | msgSend (f : ApiFrame)
  /-- `TxHdl_prepare_wifi_txreq` takes the frame. -/
  | accept (f : ApiFrame)
  /-- `os_frame_free`. -/
  | free (f : ApiFrame)
deriving DecidableEq

/-- What the system answers: whether the chip wakes up, whether there is a frame and a message,
whether the transmit path takes a data frame. -/
structure ApiEnv where
  wakeupWifi : Bool
  frameAlloc : Bool
  msgAlloc : Bool
  prepareTxreq : Bool

/-- `active_host_api` and `sg_host_cmd_seq_no`. -/
structure ApiState where
  active : HostApiState
  cmdSeqNo : ℕ

/-- A call: its result, the state after it, and what it did. -/
abbrev ApiCall := ApiState → ℤ × ApiState × List ApiEvent

/-! ## Calls -/

/-- `_ssv6xxx_send_msg_to_hcmd_eng`. -/
def sendMsgToHcmdEng (env : ApiEnv) (f : ApiFrame) : ℤ × List ApiEvent :=
  if env.msgAlloc then (ssvSuccess, [.msgSend f]) else (ssvNoMem, [])

/-- `_ssv6xxx_wifi_send_cmd`. -/
def wifiSendCmd (env : ApiEnv) (hCmd : ℕ) (body : CmdBody) : ApiCall := fun s =>
  if env.frameAlloc then
    let s := { s with cmdSeqNo := (s.cmdSeqNo + 1) % 2 ^ 32 }
    let f : ApiFrame := .cmd { hCmd := hCmd % 2 ^ 8, cmdSeqNo := s.cmdSeqNo, body }
    let r := sendMsgToHcmdEng env f
    (r.1, s, .alloc f :: r.2)
  else (ssvNoMem, s, [])

/-- `_ssv6xxx_wakeup_wifi`, which returns `FALSE`, or `TRUE` once the API is active. -/
def wakeupWifi (env : ApiEnv) (s : ApiState) : ℤ × ApiState :=
  if env.wakeupWifi then (1, { s with active := .active }) else (0, s)

/-- What every call begins with; `off` is what it does while the API is off. -/
def withHostApi (env : ApiEnv) (off : List ApiEvent) (call : ApiCall) : ApiCall := fun s =>
  match s.active with
  | .deactive => (ssvFailed, s, off)
  | .pwrSaving =>
    let w := wakeupWifi env s
    if w.1 = 0 then (w.1, w.2, []) else call w.2
  | .active => call s

/-- `_ssv6xxx_wifi_ioctl`. -/
def wifiIoctl (env : ApiEnv) (cmdId : ℕ) (data : List UInt8) : ApiCall :=
  withHostApi env [] (wifiSendCmd env cmdId (.data data))

/-- `SSV6XXX_HOST_CMD_JOIN`. -/
def hostCmdJoin : ℕ := 1

/-- `SSV6XXX_HOST_CMD_LEAVE`. -/
def hostCmdLeave : ℕ := 2

/-- `_ssv6xxx_wifi_join`, without the copy of the request. -/
def wifiJoin (env : ApiEnv) (cjreq : JoinRequest) : ApiCall :=
  withHostApi env [] (wifiSendCmd env hostCmdJoin (.join cjreq))

/-- `_ssv6xxx_wifi_leave`. -/
def wifiLeave (env : ApiEnv) (reason vifIdx : ℕ) : ApiCall :=
  withHostApi env [] (wifiSendCmd env hostCmdLeave (.leave reason vifIdx))

/-- What `_ssv6xxx_wifi_send_ethernet` does with the frame. -/
def prepareEthernet (env : ApiEnv) (frame : ℕ) : ApiCall := fun s =>
  if env.prepareTxreq then (ssvSuccess, s, [.accept (.data frame)])
  else (ssvFailed, s, [.free (.data frame)])

/-- `_ssv6xxx_wifi_send_ethernet`. -/
def wifiSendEthernet (env : ApiEnv) (frame : ℕ) : ApiCall :=
  withHostApi env [.free (.data frame)] (prepareEthernet env frame)

/-! ## Their results

`withHostApi` by the state of the API, and a command by what could be allocated. -/

section Results

variable {env : ApiEnv} {off : List ApiEvent} {call : ApiCall} {s : ApiState}

@[simp] theorem withHostApi_deactive (h : s.active = .deactive) :
    withHostApi env off call s = (ssvFailed, s, off) := by
  simp [withHostApi, h]

@[simp] theorem withHostApi_active (h : s.active = .active) :
    withHostApi env off call s = call s := by
  simp [withHostApi, h]

theorem withHostApi_pwrSaving (h : s.active = .pwrSaving) :
    withHostApi env off call s
      = if env.wakeupWifi then call { s with active := .active } else (ssvSuccess, s, []) := by
  cases hw : env.wakeupWifi <;> simp [withHostApi, h, wakeupWifi, hw, ssvSuccess]

/-- A command either has no frame, or a frame and nothing to send it with, or is sent. -/
theorem wifiSendCmd_cases (env : ApiEnv) (hCmd : ℕ) (body : CmdBody) (s : ApiState) :
    (env.frameAlloc = false ∧ wifiSendCmd env hCmd body s = (ssvNoMem, s, [])) ∨
    ∃ f : CmdFrame, f.body = body ∧ env.frameAlloc = true ∧
      ((env.msgAlloc = false ∧ wifiSendCmd env hCmd body s
          = (ssvNoMem, { s with cmdSeqNo := f.cmdSeqNo }, [.alloc (.cmd f)])) ∨
        (env.msgAlloc = true ∧ wifiSendCmd env hCmd body s
          = (ssvSuccess, { s with cmdSeqNo := f.cmdSeqNo },
              [.alloc (.cmd f), .msgSend (.cmd f)]))) := by
  cases hf : env.frameAlloc with
  | false => exact .inl ⟨rfl, by simp [wifiSendCmd, hf]⟩
  | true =>
    refine .inr ⟨⟨hCmd % 2 ^ 8, (s.cmdSeqNo + 1) % 2 ^ 32, body⟩, rfl, rfl, ?_⟩
    cases hm : env.msgAlloc <;> simp [wifiSendCmd, sendMsgToHcmdEng, hf, hm]

end Results

/-! ## Success means handed over -/

/-- A call of the host API. -/
inductive HostCall
  | ioctl (cmdId : ℕ) (data : List UInt8)
  | join (cjreq : JoinRequest)
  | leave (reason vifIdx : ℕ)
  | sendEthernet (frame : ℕ)

/-- What the call computes. -/
def HostCall.perform (env : ApiEnv) : HostCall → ApiCall
  | .ioctl cmdId data => wifiIoctl env cmdId data
  | .join cjreq => wifiJoin env cjreq
  | .leave reason vifIdx => wifiLeave env reason vifIdx
  | .sendEthernet frame => wifiSendEthernet env frame

/-- The data frame that the caller passes. -/
def HostCall.dataFrame : HostCall → Option ApiFrame
  | .sendEthernet frame => some (.data frame)
  | _ => none

/-- The call builds a command. -/
def HostCall.IsCmd (c : HostCall) : Prop := c.dataFrame = none

/-- The command frame was given to `os_msg_send`, the data frame was accepted. -/
def HostCall.HandedOver (c : HostCall) (evs : List ApiEvent) : Prop :=
  match c.dataFrame with
  | some f => .accept f ∈ evs
  | none => ∃ f, .msgSend f ∈ evs

/-- The call answers for a frame: it allocated it, or got it from its caller. -/
def HostCall.AnswersFor (c : HostCall) (evs : List ApiEvent) (f : ApiFrame) : Prop :=
  .alloc f ∈ evs ∨ c.dataFrame = some f

/-- Success is reported exactly when the frame was handed over, and otherwise every frame the call
answers for has been freed once. -/
def HostCall.Sound (c : HostCall) (r : ℤ × ApiState × List ApiEvent) : Prop :=
  (r.1 = ssvSuccess ↔ c.HandedOver r.2.2) ∧
    (¬ c.HandedOver r.2.2 → ∀ f, c.AnswersFor r.2.2 f → r.2.2.count (.free f) = 1)

/-- What keeps a call sound: a chip that saves power wakes up, and a command that got a frame gets a
message as well. -/
def HostCall.SoundWhen (c : HostCall) (env : ApiEnv) (s : ApiState) : Prop :=
  (s.active = .pwrSaving → env.wakeupWifi = true) ∧
    (c.IsCmd → s.active ≠ .deactive → env.frameAlloc = true → env.msgAlloc = true)

section Sound

variable {c : HostCall} {env : ApiEnv}

/-- While the API is off a call fails, and frees the data frame. -/
theorem HostCall.sound_off (c : HostCall) (s : ApiState) :
    c.Sound (ssvFailed, s, (c.dataFrame.map ApiEvent.free).toList) := by
  cases c <;> simp [Sound, HandedOver, AnswersFor, dataFrame, ssvFailed, ssvSuccess]

/-- A call that reports success and did nothing is not sound. -/
theorem HostCall.not_sound_silent (c : HostCall) (s : ApiState) :
    ¬ c.Sound (ssvSuccess, s, []) := by
  cases c <;> simp [Sound, HandedOver, dataFrame]

/-- A command on an active API is sound unless its frame has no message to go with. -/
theorem HostCall.sound_sendCmd (hc : c.IsCmd) (hCmd : ℕ) (body : CmdBody) (s : ApiState) :
    c.Sound (wifiSendCmd env hCmd body s) ↔ (env.frameAlloc = true → env.msgAlloc = true) := by
  have hd : c.dataFrame = none := hc
  rcases wifiSendCmd_cases env hCmd body s with
    ⟨hf, h⟩ | ⟨f, -, hf, ⟨hm, h⟩ | ⟨hm, h⟩⟩
  · -- no frame: nothing was allocated and `SSV6XXX_NO_MEM` says so
    simp [h, hf, Sound, HandedOver, AnswersFor, hd, ssvNoMem, ssvSuccess]
  · -- no message: the frame stays allocated
    simp [h, hf, hm, Sound, HandedOver, AnswersFor, hd]
  · simp [h, hf, hm, Sound, HandedOver, hd]

/-- What the call does once the API is active. -/
def HostCall.onActive (env : ApiEnv) : HostCall → ApiCall
  | .ioctl cmdId data => wifiSendCmd env cmdId (.data data)
  | .join cjreq => wifiSendCmd env hostCmdJoin (.join cjreq)
  | .leave reason vifIdx => wifiSendCmd env hostCmdLeave (.leave reason vifIdx)
  | .sendEthernet frame => prepareEthernet env frame

/-- All calls share the same beginning. -/
theorem HostCall.perform_eq (c : HostCall) (env : ApiEnv) :
    c.perform env
      = withHostApi env (c.dataFrame.map ApiEvent.free).toList (c.onActive env) := by
  cases c <;> rfl

/-- A data frame is accepted or freed, and a command is sent unless its frame has no message. -/
theorem HostCall.sound_onActive (c : HostCall) (env : ApiEnv) (s : ApiState) :
    c.Sound (c.onActive env s)
      ↔ (c.IsCmd → env.frameAlloc = true → env.msgAlloc = true) := by
  cases c with
  | ioctl cmdId data =>
    have hc : (ioctl cmdId data).IsCmd := rfl
    exact (sound_sendCmd hc _ _ s).trans (by simp [hc])
  | join cjreq =>
    have hc : (join cjreq).IsCmd := rfl
    exact (sound_sendCmd hc _ _ s).trans (by simp [hc])
  | leave reason vifIdx =>
    have hc : (leave reason vifIdx).IsCmd := rfl
    exact (sound_sendCmd hc _ _ s).trans (by simp [hc])
  | sendEthernet frame =>
    cases hp : env.prepareTxreq <;>
      simp [onActive, prepareEthernet, hp, Sound, HandedOver, AnswersFor, IsCmd, dataFrame,
        ssvFailed, ssvSuccess]

end Sound

/-- A call reports success exactly when it handed its frame over and frees its frames otherwise,
provided that a sleeping chip wakes up and that no command frame lacks a message. A failed wake-up
is reported as success, and the frame that lacks a message is left allocated. -/
theorem HostCall.sound_perform_iff (c : HostCall) (env : ApiEnv) (s : ApiState) :
    c.Sound (c.perform env s) ↔ c.SoundWhen env s := by
  rw [perform_eq, SoundWhen]
  cases hs : s.active with
  | deactive =>
    rw [withHostApi_deactive hs]
    simp [sound_off]
  | active =>
    rw [withHostApi_active hs, sound_onActive]
    simp
  | pwrSaving =>
    rw [withHostApi_pwrSaving hs]
    cases hw : env.wakeupWifi
    · simp [not_sound_silent]
    · simp [sound_onActive]

/-- A command to a chip that does not wake up: the call reports success and sent nothing. -/
theorem HostCall.not_sound_perform_ioctl :
    (HostCall.ioctl 4 []).perform ⟨false, true, true, true⟩ ⟨.pwrSaving, 0⟩
        = (ssvSuccess, ⟨.pwrSaving, 0⟩, []) ∧
      ¬ (HostCall.ioctl 4 []).Sound
        ((HostCall.ioctl 4 []).perform ⟨false, true, true, true⟩ ⟨.pwrSaving, 0⟩) :=
  ⟨rfl, not_sound_silent _ _⟩

end Fullmac.Host
