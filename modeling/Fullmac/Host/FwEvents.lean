import Fullmac.Ap.Host
import Fullmac.Ap.PowerSave
import Fullmac.Host.Join
import Fullmac.Lib.Bytes

/-!
# Events of the firmware

Reference: `host/core/host_cmd_engine_rx.c`, `CmdEng_RxHdlEvent`, `PrivateRxEvtHandler`, `PreFnTbl`
and the handlers of the two tables; `host/core/txrx_task.c`, `TXRXTask_RxFrameProc` and
`_dq_status_handler`; `host/core/txrx_hdl.c`, `ieee80211_addba_handler`;
`host/include/priv/cmd_def.h`, `struct cfg_host_event`, `struct resp_evt_result` and
`ssv6xxx_soc_event`.

An event is a frame with a header and a payload, and the handlers take numbers out of it: the number
of the event itself, an interface, a station, a traffic identifier. `leave_host_event_handler_` and
`ieee80211_addba_handler` compare them with the size of the table that they index. A join result, a
queue report and the number of a private event are taken as they are. What goes up to the callbacks
has the length of the event less that of its header, and no handler asks whether the event is that
long.

A handler is a function into `Except`: its error is the first index that is outside.
-/

namespace Fullmac.Host.Fw

open Bytes (Mem slice getU16 setU16 getU32)
open Rx (HwMode maxVifNum)

/-! ## The frame -/

/-- `sizeof(HDR_HostEvent)`. -/
def hdrHostEventLen : ℕ := 8

/-- `len`. -/
def evtLen (evt : Mem) : ℕ := getU16 evt 0

/-- `h_event`. -/
def hEvent (evt : Mem) : ℕ := (evt 3).toNat

/-- `evt_seq_no`. -/
def evtSeqNo (evt : Mem) : ℕ := getU32 evt 4

/-- `dat`. -/
def dat (evt : Mem) : Mem := fun i => evt (hdrHostEventLen + i)

/-- The `s16` at `off`. -/
def getS16 (m : Mem) (off : ℕ) : ℤ := (BitVec.ofNat 16 (getU16 m off)).toInt

/-- `u.join.status_code`, not zero for a failure. -/
def joinStatusCode (evt : Mem) : ℕ := getU32 (dat evt) 0

/-- `u.join.bssid_idx`. -/
def joinBssidIdx (evt : Mem) : ℕ := getU32 (dat evt) 8

/-- `u.leave.reason_code`. -/
def leaveReasonCode (evt : Mem) : ℤ := getS16 (dat evt) 0

/-- `u.leave.bssid_idx`. -/
def leaveBssidIdx (evt : Mem) : ℕ := getU16 (dat evt) 2

/-- `u.dq_status.wsid`. -/
def dqWsid (evt : Mem) : ℤ := getS16 (dat evt) 0

/-- `u.dq_status.len`. -/
def dqLen (evt : Mem) : ℤ := getS16 (dat evt) 2

/-- `MAX_2G_CHANNEL_NUM` and `MAX_5G_CHANNEL_NUM` counts, of either kind. -/
def scanDoneCounts : ℕ := 2 * 16 + 2 * 25

/-! ## Numbers of events -/

/-- `SOC_EVT_SCAN_RESULT`. -/
def socEvtScanResult : ℕ := 1

/-- `SOC_EVT_JOIN_RESULT`. -/
def socEvtJoinResult : ℕ := 2

/-- `SOC_EVT_LEAVE_RESULT`. -/
def socEvtLeaveResult : ℕ := 3

/-- `SOC_EVT_ACK`. -/
def socEvtAck : ℕ := 16

/-- `SOC_EVT_MLME_CMD_DONE`. -/
def socEvtMlmeCmdDone : ℕ := 20

/-- `SOC_EVT_SCAN_DONE`. -/
def socEvtScanDone : ℕ := 24

/-- `SOC_EVT_DATA_QUEUE_STATUS`. -/
def socEvtDataQueueStatus : ℕ := 26

/-- `SOC_EVT_GET_PMK`. -/
def socEvtGetPmk : ℕ := 30

/-- `SOC_EVT_ADD_STA_DONE`. -/
def socEvtAddStaDone : ℕ := 31

/-- `SOC_EVT_TX_LOOPBACK_DONE`. -/
def socEvtTxLoopbackDone : ℕ := 33

/-- `SOC_EVT_PRIVE_CMD_START`, which is `SOC_EVT_USER_END` and `SOC_EVT_CONFIG_HW_RESP`. -/
def socEvtPriveCmdStart : ℕ := 34

/-- `SOC_EVT_PS_POLL`. -/
def socEvtPsPoll : ℕ := 36

/-- `SOC_EVT_NULL_DATA`. -/
def socEvtNullData : ℕ := 37

/-- `SOC_EVT_ADD_BA`. -/
def socEvtAddBa : ℕ := 39

/-! ## Tables -/

/-- The handlers of `PrivateRxEvtHandler`. -/
inductive PrivateHandler
  | evtDrop
deriving DecidableEq, Repr

/-- `PrivateRxEvtHandler`, with `none` for `NULL`; an entry is called without a look at it. -/
def privateRxEvtHandler : List (Option PrivateHandler) := [some .evtDrop, none, none, none, none]

/-- The handlers of `PreFnTbl`. -/
inductive PreFn
  | scan | join | scanDone | leave
deriving DecidableEq, Repr

/-- `PreFnTbl`. -/
def preFnTbl : List (ℕ × PreFn) :=
  [(socEvtScanResult, .scan), (socEvtJoinResult, .join), (socEvtScanDone, .scanDone),
    (socEvtLeaveResult, .leave)]

/-- An index outside its table. -/
inductive Outside
  | privateRxEvtHandler (i : ℕ)
  | vif (i : ℕ)
  | staConInfo (i : ℤ)
  | baSession (wsid tid : ℕ)
deriving DecidableEq, Repr

/-- `PrivateRxEvtHandler[i]`. -/
def privateHandlerAt (i : ℕ) : Except Outside (Option PrivateHandler) :=
  match privateRxEvtHandler[i]? with
  | some f => .ok f
  | none => .error (.privateRxEvtHandler i)

/-- `gDeviceInfo->vif[i]`. -/
def vifAt (i : ℕ) : Except Outside (Fin maxVifNum) :=
  if h : i < maxVifNum then .ok ⟨i, h⟩ else .error (.vif i)

/-- `g_ba_rx_session_desc[wsid][tid]`. -/
def sessionAt (wsid tid : ℕ) : Except Outside Rx.SessionId :=
  match Rx.sessionId? wsid tid with
  | some id => .ok id
  | none => .error (.baSession wsid tid)

/-! ## Handlers -/

/-- What the events reach: the interfaces with the command engine, the access point, whether it is
choosing a channel (`acs_start`), the counts of its channels, and `ampduRx_vif`. The counts stand in
the order in which an event has them. -/
structure Device (cfg : Ap.ApCfg) (τ : Type) where
  sta : JoinState τ
  ap : Ap.ApInfo cfg
  acsStart : Bool
  channelCount : ℕ → UInt32
  ampduRxVif : ℕ

/-- What a handler does besides. -/
inductive EvtOut
  /-- `exec_host_evt_cb`. -/
  | execHostEvtCb (nEvtId : ℕ) (data : Mem) (len : ℤ)
  | privateHandler (f : Option PrivateHandler)
  | removeAp (bssid : Vector UInt8 6)
  | staModeApListHandler (data : Mem)
  | enableBeacon (pmk : List UInt8)
  | start4wayHandshake (wsid : UInt8)
  | apHandlePs
  | txLoopbackDone
  /-- The message goes to the mailbox of the command engine. -/
  | osMsgSend
  | frameFree

variable {cfg : Ap.ApCfg} {τ : Type}

/-- The device after a handler, and what the handler did. -/
abbrev After (cfg : Ap.ApCfg) (τ : Type) := Device cfg τ × List EvtOut

/-- `pPktInfo->len-sizeof(HDR_HostEvent)`, a subtraction without sign, as the `s32` it becomes. -/
def payloadLen (evt : Mem) : ℤ :=
  (BitVec.ofNat 32 (evtLen evt) - BitVec.ofNat 32 hdrHostEventLen).toInt

/-- The event goes up. -/
def execHostEvtCb (evt : Mem) : EvtOut := .execHostEvtCb (hEvent evt) (dat evt) (payloadLen evt)

/-- `scan_host_event_handler_`. -/
def scanHostEventHandler (d : Device cfg τ) (evt : Mem) : Except Outside (After cfg τ) :=
  .ok (d, [.staModeApListHandler (dat evt)])

/-- The loops of `scan_done_host_event_handler_`. -/
def addCounts (evt : Mem) (d : Device cfg τ) : Device cfg τ :=
  { d with
    channelCount := fun i =>
      if i < scanDoneCounts then d.channelCount i + UInt32.ofNat (getU32 (dat evt) (4 * i))
      else d.channelCount i }

/-- `scan_done_host_event_handler_`. `APInfo` is there from `AP_Init` on. -/
def scanDoneHostEventHandler (d : Device cfg τ) (evt : Mem) : Except Outside (After cfg τ) :=
  let d := if dat evt (4 * scanDoneCounts) = 0 then addCounts evt d else d
  if d.acsStart then .ok (d, []) else .ok (d, [execHostEvtCb evt])

/-- `leave_host_event_handler_`. -/
def leaveHostEventHandler (env : Rx.Env) (d : Device cfg τ) (evt : Mem) :
    Except Outside (After cfg τ) :=
  if leaveBssidIdx evt < maxVifNum then do
    let v ← vifAt (leaveBssidIdx evt)
    if d.sta.hwMode v = .sta then
      let removed := if leaveReasonCode evt ≠ 0 then [.removeAp (d.sta.staInfo v).joincfg.bssid]
        else []
      let ap := if d.ampduRxVif = leaveBssidIdx evt ∧ cfg.ampduRxEnable = true then
          Ap.endAllSessions d.ap env
        else d.ap
      .ok ({ d with sta := staModeDisconnect v d.sta, ap }, removed ++ [execHostEvtCb evt])
    else .ok (d, [])
  else .ok (d, [])

/-- `SET_TXREQ_WITH_QOS`, for an access point that has WMM. -/
def setTxreqWithQos (v : Fin maxVifNum) (s : JoinState τ) : JoinState τ :=
  { s with txreqWithQos := (s.staInfo v).joincfg.wmmUsed }

/-- A join result is made a leave result: the length is that of the header and a `reason_code`. -/
def toLeave (evt : Mem) : Mem :=
  setU16 (Function.update (setU16 evt hdrHostEventLen 4) 3 (UInt8.ofNat socEvtLeaveResult)) 0
    (hdrHostEventLen + 2)

/-- `join_host_event_handler_`. -/
def joinHostEventHandler (d : Device cfg τ) (evt : Mem) : Except Outside (After cfg τ) := do
  let v ← vifAt (joinBssidIdx evt)
  if d.sta.recovering then
    if joinStatusCode evt ≠ 0 then
      .ok ({ d with
          sta := setTxreqWithQos v { staModeDisconnect v d.sta with recovering := false } },
        [.removeAp (d.sta.staInfo v).joincfg.bssid, execHostEvtCb (toLeave evt)])
    else
      .ok ({ d with
          sta := setTxreqWithQos v { staModeConnect v d.sta with recovering := false } }, [])
  else if joinStatusCode evt ≠ 0 then
    .ok ({ d with sta := setTxreqWithQos v (staModeDisconnect v d.sta) }, [execHostEvtCb evt])
  else .ok ({ d with sta := setTxreqWithQos v (staModeConnect v d.sta) }, [execHostEvtCb evt])

/-- The handlers of `PreFnTbl`. All of them return `SSV6XXX_SUCCESS`. -/
def PreFn.run (env : Rx.Env) (d : Device cfg τ) (evt : Mem) : PreFn → Except Outside (After cfg τ)
  | .scan => scanHostEventHandler d evt
  | .join => joinHostEventHandler d evt
  | .scanDone => scanDoneHostEventHandler d evt
  | .leave => leaveHostEventHandler env d evt

/-- `_dq_status_handler`. -/
def dqStatusHandler (d : Device cfg τ) (evt : Mem) : Except Outside (After cfg τ) :=
  if dqWsid evt < 0 then .error (.staConInfo (dqWsid evt))
  else
    match Ap.dqStatusHandler d.ap (dqWsid evt).toNat (dqLen evt) with
    | some ap => .ok ({ d with ap }, [])
    | none => .error (.staConInfo (dqWsid evt))

/-- `ieee80211_addba_handler`. -/
def addbaHandler (env : Rx.Env) (d : Device cfg τ) (evt : Mem) : Except Outside (After cfg τ) :=
  let wsid := getU32 (dat evt) 0
  let tid := getU32 (dat evt) 4
  let d := { d with ampduRxVif := (dat evt 12).toNat }
  if wsid < Rx.rxAggRxBaMaxStation ∧ tid < Rx.rxAggRxBaMaxSessions then do
    let id ← sessionAt wsid tid
    let ap := Ap.onSessions d.ap fun t =>
      Rx.perform cfg.host t [(id, .addba env (getU16 (dat evt) 8) (getU16 (dat evt) 10))]
    .ok ({ d with ap := Ap.createReorderTimer (Ap.cancelReorderTimer ap) }, [])
  else .ok (d, [])

/-! ## Dispatch -/

/-- The frame is freed after its handler. -/
def thenFree (r : Except Outside (After cfg τ)) : Except Outside (After cfg τ) :=
  r.map fun p => (p.1, p.2 ++ [.frameFree])

/-- What the gate of the command engine sees of an event. -/
def engineEvent (evt : Mem) : Cmd.HostEvent :=
  if hEvent evt = socEvtMlmeCmdDone then .mlmeCmdDone (evtSeqNo evt) else .other (evtSeqNo evt)

/-- The gate of the command engine. -/
def atGate (evt : Mem) (d : Device cfg τ) : Device cfg τ :=
  { d with sta := { d.sta with eng := Cmd.rxHdlEvent d.sta.eng (engineEvent evt) } }

/-- `CmdEng_RxHdlEvent`, up to the last `os_frame_free`. -/
def rxHdlEventBody (env : Rx.Env) (d : Device cfg τ) (evt : Mem) : Except Outside (After cfg τ) :=
  if socEvtPriveCmdStart ≤ hEvent evt then do
    let f ← privateHandlerAt (hEvent evt - socEvtPriveCmdStart)
    .ok (d, [.privateHandler f])
  else
    let d := atGate evt d
    if hEvent evt = socEvtMlmeCmdDone then .ok (d, [])
    else if hEvent evt = socEvtGetPmk then .ok (d, [.enableBeacon (slice (dat evt) 0 32)])
    else if hEvent evt = socEvtAddStaDone then
      .ok (d, if cfg.keyMgmtPsk then [.start4wayHandshake (dat evt 0)] else [])
    else
      match preFnTbl.lookup (hEvent evt) with
      | some f => f.run env d evt
      | none => .ok (d, [execHostEvtCb evt])

/-- `CmdEng_RxHdlEvent`. -/
def rxHdlEvent (env : Rx.Env) (d : Device cfg τ) (evt : Mem) : Except Outside (After cfg τ) :=
  thenFree (rxHdlEventBody env d evt)

/-- `TXRXTask_RxFrameProc`, for the frame of an event. -/
def rxFrameProc (env : Rx.Env) (d : Device cfg τ) (evt : Mem) : Except Outside (After cfg τ) :=
  if hEvent evt = socEvtPsPoll ∨ hEvent evt = socEvtNullData then .ok (d, [.apHandlePs])
  else if hEvent evt = socEvtDataQueueStatus then thenFree (dqStatusHandler d evt)
  else if hEvent evt = socEvtTxLoopbackDone then .ok (d, [.txLoopbackDone, .frameFree])
  else if hEvent evt = socEvtAddBa then
    thenFree (if cfg.ampduRxEnable then addbaHandler env d evt else .ok (d, []))
  else if hEvent evt = socEvtAck then .ok (d, [.frameFree])
  else .ok (d, [.osMsgSend])

/-! ## Staying inside -/

/-- The length that goes up has not wrapped. -/
def EvtOut.LenFits : EvtOut → Prop
  | .execHostEvtCb _ _ len => 0 ≤ len
  | _ => True

/-- No index was outside its table, and no length has wrapped. -/
def Contained : Except Outside (After cfg τ) → Prop
  | .ok p => ∀ o ∈ p.2, o.LenFits
  | .error _ => False

section Contained

variable {env : Rx.Env} {d : Device cfg τ} {evt : Mem} {outs : List EvtOut}

@[simp] theorem contained_ok : Contained (.ok (d, outs)) ↔ ∀ o ∈ outs, o.LenFits := Iff.rfl

@[simp] theorem not_contained_error (x : Outside) :
    ¬ Contained (.error x : Except Outside (After cfg τ)) := id

theorem payloadLen_eq (evt : Mem) : payloadLen evt = (evtLen evt : ℤ) - 8 := by
  have hlt : evtLen evt < 65536 := Bytes.getU16_lt evt 0
  rw [payloadLen, hdrHostEventLen]
  generalize evtLen evt = n at hlt ⊢
  rw [BitVec.toInt_sub, BitVec.toInt_ofNat', BitVec.toInt_ofNat']
  simp only [Int.bmod_def]
  omega

/-- An event goes up with a proper length exactly if it is as long as its header. -/
@[simp] theorem lenFits_execHostEvtCb :
    (execHostEvtCb evt).LenFits ↔ hdrHostEventLen ≤ evtLen evt := by
  rw [execHostEvtCb, EvtOut.LenFits, payloadLen_eq, hdrHostEventLen]
  omega

/-- A leave result that was made of a join result has the right length, whatever the event said. -/
@[simp] theorem evtLen_toLeave (evt : Mem) : evtLen (toLeave evt) = 10 := by
  rw [evtLen, toLeave, Bytes.getU16_setU16]
  rfl

theorem contained_thenFree {r : Except Outside (After cfg τ)} :
    Contained (thenFree r) ↔ Contained r := by
  cases r with
  | error x => exact Iff.rfl
  | ok p =>
    have hfree : EvtOut.LenFits .frameFree := trivial
    simp [thenFree, Except.map, or_imp, forall_and, hfree, Contained]

/-! ### Looking up -/

theorem contained_vifAt_bind {i : ℕ} {f : Fin maxVifNum → Except Outside (After cfg τ)} :
    Contained (vifAt i >>= f) ↔ ∃ h : i < maxVifNum, Contained (f ⟨i, h⟩) := by
  unfold vifAt
  split
  case isTrue h => exact ⟨fun hf => ⟨h, hf⟩, fun hf => hf.2⟩
  case isFalse h => exact ⟨fun hf => hf.elim, fun hf => absurd hf.1 h⟩

theorem contained_privateHandlerAt_bind {i : ℕ}
    {f : Option PrivateHandler → Except Outside (After cfg τ)} (hf : ∀ g, Contained (f g)) :
    Contained (privateHandlerAt i >>= f) ↔ i < privateRxEvtHandler.length := by
  unfold privateHandlerAt
  cases hi : privateRxEvtHandler[i]? with
  | none => exact ⟨fun h => h.elim, fun h => absurd (List.getElem?_eq_none_iff.mp hi) (by omega)⟩
  | some g => exact ⟨fun _ => (List.getElem?_eq_some_iff.mp hi).1, fun _ => hf g⟩

theorem sessionAt_of_lt {wsid tid : ℕ} (hw : wsid < Rx.rxAggRxBaMaxStation)
    (ht : tid < Rx.rxAggRxBaMaxSessions) : sessionAt wsid tid = .ok (⟨wsid, hw⟩, ⟨tid, ht⟩) := by
  rw [sessionAt, Rx.sessionId?, dif_pos ⟨hw, ht⟩]

/-! ### What has to fit -/

/-- What `join_host_event_handler_` needs. In recovery a failure goes up as a leave result with a
length of its own, and a success does not go up. -/
def JoinFits (d : Device cfg τ) (evt : Mem) : Prop :=
  joinBssidIdx evt < maxVifNum ∧ (d.sta.recovering = false → hdrHostEventLen ≤ evtLen evt)

/-- Public events that go no further. -/
def keptEvents : List ℕ := [socEvtScanResult, socEvtMlmeCmdDone, socEvtGetPmk, socEvtAddStaDone]

/-- The leave result is of a station's interface. -/
def LeavesStation (d : Device cfg τ) (evt : Mem) : Prop :=
  ∃ h : leaveBssidIdx evt < maxVifNum, d.sta.hwMode ⟨leaveBssidIdx evt, h⟩ = .sta

/-- `CmdEng_RxHdlEvent` hands the event up as long as it came. -/
structure HandsUp (d : Device cfg τ) (evt : Mem) : Prop where
  isPublic : hEvent evt < socEvtPriveCmdStart
  notKept : hEvent evt ∉ keptEvents
  join : hEvent evt = socEvtJoinResult → d.sta.recovering = false
  scanDone : hEvent evt = socEvtScanDone → d.acsStart = false
  leave : hEvent evt = socEvtLeaveResult → LeavesStation d evt

/-- What `CmdEng_RxHdlEvent` needs. -/
structure RxFits (d : Device cfg τ) (evt : Mem) : Prop where
  privateEvt : socEvtPriveCmdStart ≤ hEvent evt →
    hEvent evt < socEvtPriveCmdStart + privateRxEvtHandler.length
  join : hEvent evt = socEvtJoinResult → joinBssidIdx evt < maxVifNum
  header : HandsUp d evt → hdrHostEventLen ≤ evtLen evt

/-! ### The handlers -/

theorem joinHostEventHandler_contained_iff :
    Contained (joinHostEventHandler d evt) ↔ JoinFits d evt := by
  rw [joinHostEventHandler, contained_vifAt_bind, JoinFits]
  constructor
  · rintro ⟨h, hc⟩
    refine ⟨h, fun hrec => ?_⟩
    simp only [hrec, Bool.false_eq_true, if_false] at hc
    split at hc <;> simpa using hc
  · rintro ⟨h, hlen⟩
    refine ⟨h, ?_⟩
    cases hrec : d.sta.recovering with
    | true =>
      have hrm : ∀ b, EvtOut.LenFits (.removeAp b) := fun _ => trivial
      simp only [if_true]
      split <;> simp [hrm, hdrHostEventLen]
    | false =>
      simp only [Bool.false_eq_true, if_false]
      split <;> simp [hlen hrec]

theorem leaveHostEventHandler_contained_iff :
    Contained (leaveHostEventHandler env d evt)
      ↔ (LeavesStation d evt → hdrHostEventLen ≤ evtLen evt) := by
  have hrm : ∀ b, EvtOut.LenFits (.removeAp b) := fun _ => trivial
  unfold leaveHostEventHandler
  split
  case isTrue h =>
    rw [contained_vifAt_bind]
    have hsta : LeavesStation d evt ↔ d.sta.hwMode ⟨leaveBssidIdx evt, h⟩ = .sta :=
      ⟨fun hl => hl.2, fun hm => ⟨h, hm⟩⟩
    simp only [h, exists_true_left, hsta]
    split
    case isTrue hm =>
      by_cases hr : leaveReasonCode evt = 0 <;> simp [hm, hrm, hr]
    case isFalse hm => simp [hm]
  case isFalse h =>
    have hsta : ¬ LeavesStation d evt := fun hl => h hl.1
    simp [hsta]

theorem scanDoneHostEventHandler_contained_iff :
    Contained (scanDoneHostEventHandler d evt)
      ↔ (d.acsStart = false → hdrHostEventLen ≤ evtLen evt) := by
  have hacs : (if dat evt (4 * scanDoneCounts) = 0 then addCounts evt d else d).acsStart
      = d.acsStart := by
    split <;> rfl
  unfold scanDoneHostEventHandler
  extract_lets d'
  change Contained (if d'.acsStart = true then _ else _) ↔ _
  rw [show d'.acsStart = d.acsStart from hacs]
  cases d.acsStart <;> simp

theorem dqStatusHandler_contained_iff :
    Contained (dqStatusHandler d evt) ↔ 0 ≤ dqWsid evt ∧ dqWsid evt < cfg.maxAid := by
  unfold dqStatusHandler Ap.dqStatusHandler
  split
  case isTrue hneg => exact ⟨fun h => h.elim, fun h => absurd hneg (by omega)⟩
  case isFalse hneg =>
    by_cases hlt : (dqWsid evt).toNat < cfg.maxAid
    · have hrange : 0 ≤ dqWsid evt ∧ dqWsid evt < cfg.maxAid := by omega
      simp [hlt, hrange]
    · have hrange : ¬ (0 ≤ dqWsid evt ∧ dqWsid evt < cfg.maxAid) := by omega
      simp [hlt, hrange]

/-- What `ieee80211_addba_handler` does: the numbers are compared with the sizes of the table first.
-/
theorem addbaHandler_eq (env : Rx.Env) (d : Device cfg τ) (evt : Mem)
    (hrx : cfg.ampduRxEnable = true) :
    addbaHandler env d evt = .ok ({ d with
      ampduRxVif := (dat evt 12).toNat
      ap := Ap.addbaEvent d.ap env (getU32 (dat evt) 0) (getU32 (dat evt) 4)
        (getU16 (dat evt) 8) (getU16 (dat evt) 10) }, []) := by
  unfold addbaHandler Ap.addbaEvent Rx.addbaHandler
  rw [if_pos hrx]
  by_cases h : getU32 (dat evt) 0 < Rx.rxAggRxBaMaxStation
      ∧ getU32 (dat evt) 4 < Rx.rxAggRxBaMaxSessions
  · have hid : Rx.sessionId? (getU32 (dat evt) 0) (getU32 (dat evt) 4)
        = some (⟨_, h.1⟩, ⟨_, h.2⟩) := dif_pos h
    simp only [if_pos h, sessionAt_of_lt h.1 h.2, hid]
    rfl
  · have hid : Rx.sessionId? (getU32 (dat evt) 0) (getU32 (dat evt) 4) = none := dif_neg h
    simp only [if_neg h, hid]

theorem addbaHandler_contained : Contained (addbaHandler env d evt) := by
  unfold addbaHandler
  extract_lets wsid tid d'
  split
  case isTrue h =>
    rw [sessionAt_of_lt h.1 h.2]
    exact fun o ho => absurd ho List.not_mem_nil
  case isFalse h => exact fun o ho => absurd ho List.not_mem_nil

/-! ### Dispatch -/

/-- One turn of the loop over `PreFnTbl`. -/
theorem lookup_cons_eq (n k : ℕ) (f : PreFn) (tbl : List (ℕ × PreFn)) :
    List.lookup n ((k, f) :: tbl) = if n = k then some f else tbl.lookup n := by
  rw [List.lookup_cons]
  split <;> simp_all

theorem preFnTbl_lookup (n : ℕ) :
    preFnTbl.lookup n
      = if n = socEvtScanResult then some .scan
        else if n = socEvtJoinResult then some .join
        else if n = socEvtScanDone then some .scanDone
        else if n = socEvtLeaveResult then some .leave
        else none := by
  simp only [preFnTbl, lookup_cons_eq, List.lookup_nil]

theorem rxHdlEventBody_private (h : socEvtPriveCmdStart ≤ hEvent evt) :
    Contained (rxHdlEventBody env d evt)
      ↔ hEvent evt < socEvtPriveCmdStart + privateRxEvtHandler.length := by
  rw [rxHdlEventBody, if_pos h, contained_privateHandlerAt_bind fun g => by simp [EvtOut.LenFits]]
  omega

theorem rxHdlEventBody_kept (h : hEvent evt ∈ keptEvents) :
    Contained (rxHdlEventBody env d evt) := by
  have hpub : ¬ socEvtPriveCmdStart ≤ hEvent evt := by
    have hlt : ∀ n ∈ keptEvents, n < socEvtPriveCmdStart := by decide
    exact not_le.mpr (hlt _ h)
  simp only [keptEvents, List.mem_cons, List.not_mem_nil, or_false] at h
  rw [rxHdlEventBody, if_neg hpub]
  obtain h | h | h | h := h
  · simp [h, preFnTbl_lookup, socEvtMlmeCmdDone, socEvtGetPmk, socEvtAddStaDone, socEvtScanResult,
      PreFn.run, scanHostEventHandler, EvtOut.LenFits]
  · simp [h]
  · simp [h, socEvtMlmeCmdDone, socEvtGetPmk, EvtOut.LenFits]
  · cases hpsk : cfg.keyMgmtPsk <;>
      simp [h, socEvtMlmeCmdDone, socEvtGetPmk, socEvtAddStaDone, EvtOut.LenFits]

theorem rxHdlEventBody_preFn (hpub : ¬ socEvtPriveCmdStart ≤ hEvent evt)
    (hk : hEvent evt ∉ keptEvents) :
    rxHdlEventBody env d evt
      = match preFnTbl.lookup (hEvent evt) with
        | some f => f.run env (atGate evt d) evt
        | none => .ok (atGate evt d, [execHostEvtCb evt]) := by
  simp only [keptEvents, List.mem_cons, List.not_mem_nil, or_false, not_or] at hk
  rw [rxHdlEventBody, if_neg hpub, if_neg hk.2.1, if_neg hk.2.2.1, if_neg hk.2.2.2]

theorem rxFits_public (hpub : ¬ socEvtPriveCmdStart ≤ hEvent evt)
    (hk : hEvent evt ∉ keptEvents) :
    RxFits d evt ↔
      (hEvent evt = socEvtJoinResult → joinBssidIdx evt < maxVifNum)
        ∧ ((hEvent evt = socEvtJoinResult → d.sta.recovering = false)
            ∧ (hEvent evt = socEvtScanDone → d.acsStart = false)
            ∧ (hEvent evt = socEvtLeaveResult → LeavesStation d evt)
          → hdrHostEventLen ≤ evtLen evt) := by
  constructor
  · exact fun h => ⟨h.join, fun hu => h.header ⟨not_le.mp hpub, hk, hu.1, hu.2.1, hu.2.2⟩⟩
  · exact fun h => ⟨fun hp => absurd hp hpub, h.1, fun hu => h.2 ⟨hu.join, hu.scanDone, hu.leave⟩⟩

theorem rxHdlEventBody_contained_iff :
    Contained (rxHdlEventBody env d evt) ↔ RxFits d evt := by
  by_cases hpriv : socEvtPriveCmdStart ≤ hEvent evt
  · have hpub : ¬ hEvent evt < socEvtPriveCmdStart := not_lt.mpr hpriv
    rw [rxHdlEventBody_private hpriv]
    exact ⟨fun h => ⟨fun _ => h, fun hj => absurd hpriv (by rw [hj]; decide),
      fun hu => absurd hu.isPublic hpub⟩, fun h => h.privateEvt hpriv⟩
  by_cases hk : hEvent evt ∈ keptEvents
  · exact iff_of_true (rxHdlEventBody_kept hk) ⟨fun h => absurd h hpriv,
      fun hj => absurd hk (by rw [hj]; decide), fun hu => absurd hk hu.notKept⟩
  have hscan : hEvent evt ≠ socEvtScanResult := fun h => hk (by simp [h, keptEvents])
  rw [rxHdlEventBody_preFn hpriv hk, rxFits_public hpriv hk, preFnTbl_lookup, if_neg hscan]
  -- One case for each entry of `PreFnTbl`. The gate keeps what the handlers look at.
  by_cases hjoin : hEvent evt = socEvtJoinResult
  · have h : Contained (joinHostEventHandler (atGate evt d) evt) ↔ JoinFits d evt :=
      joinHostEventHandler_contained_iff
    simpa [hjoin, PreFn.run, socEvtJoinResult, socEvtScanDone, socEvtLeaveResult, JoinFits] using h
  by_cases hdone : hEvent evt = socEvtScanDone
  · have h : Contained (scanDoneHostEventHandler (atGate evt d) evt)
        ↔ (d.acsStart = false → hdrHostEventLen ≤ evtLen evt) :=
      scanDoneHostEventHandler_contained_iff
    simpa [hjoin, hdone, PreFn.run, socEvtScanDone, socEvtJoinResult, socEvtLeaveResult] using h
  by_cases hleave : hEvent evt = socEvtLeaveResult
  · have h : Contained (leaveHostEventHandler env (atGate evt d) evt)
        ↔ (LeavesStation d evt → hdrHostEventLen ≤ evtLen evt) :=
      leaveHostEventHandler_contained_iff
    simpa [hjoin, hdone, hleave, PreFn.run, socEvtScanDone, socEvtJoinResult, socEvtLeaveResult]
      using h
  · simp [hjoin, hdone, hleave]

/-- What the RX task does itself needs the number of a queue report only; the rest is the command
engine's. -/
theorem rxFrameProc_contained_iff :
    Contained (rxFrameProc env d evt)
      ↔ (hEvent evt = socEvtDataQueueStatus → 0 ≤ dqWsid evt ∧ dqWsid evt < cfg.maxAid) := by
  unfold rxFrameProc
  split
  case isTrue h =>
    have hdq : hEvent evt ≠ socEvtDataQueueStatus := by
      rintro hdq
      exact absurd h (by rw [hdq]; decide)
    simp [hdq, EvtOut.LenFits]
  case isFalse h =>
    by_cases hdq : hEvent evt = socEvtDataQueueStatus
    · simpa [hdq] using contained_thenFree.trans dqStatusHandler_contained_iff
    · have haddba : Contained (thenFree
          (if cfg.ampduRxEnable then addbaHandler env d evt else .ok (d, []))) := by
        rw [contained_thenFree]
        split
        · exact addbaHandler_contained
        · simp
      rw [if_neg hdq]
      split_ifs <;> simp_all [EvtOut.LenFits]

/-- What goes up of what `Join` says. -/
def joinOut (evt : Mem) : JoinOut → List EvtOut
  | .removeAp bssid => [.removeAp bssid]
  | .evtCb (.joinResult _) => [execHostEvtCb evt]
  | .evtCb (.leaveResult _) => [execHostEvtCb (toLeave evt)]
  | _ => []

/-- On an interface of the table, the event does what `Join` says of a result. -/
theorem joinHostEventHandler_eq (h : joinBssidIdx evt < maxVifNum) :
    joinHostEventHandler d evt
      = let r := Host.joinHostEventHandler ⟨joinBssidIdx evt, h⟩ (joinStatusCode evt) d.sta
        .ok ({ d with sta := r.1 }, r.2.flatMap (joinOut evt)) := by
  have hv : vifAt (joinBssidIdx evt) = .ok ⟨joinBssidIdx evt, h⟩ := dif_pos h
  rw [joinHostEventHandler, hv]
  unfold Host.joinHostEventHandler
  cases d.sta.recovering <;> by_cases hst : joinStatusCode evt = 0 <;>
    simp [hst, joinOut, setTxreqWithQos, bind, Except.bind]

end Contained

/-! ## Every event -/

/-- The functions that an event of the firmware is given to. -/
inductive Entry
  | rxHdlEvent | joinHostEventHandler | dqStatusHandler | addbaHandler
deriving DecidableEq, Repr

/-- The call. -/
def Entry.run (env : Rx.Env) (d : Device cfg τ) (evt : Mem) :
    Entry → Except Outside (After cfg τ)
  | .rxHdlEvent => Fw.rxHdlEvent env d evt
  | .joinHostEventHandler => Fw.joinHostEventHandler d evt
  | .dqStatusHandler => Fw.dqStatusHandler d evt
  | .addbaHandler => Fw.addbaHandler env d evt

/-- What the call needs. -/
def Entry.Fits (d : Device cfg τ) (evt : Mem) : Entry → Prop
  | .rxHdlEvent => RxFits d evt
  | .joinHostEventHandler => JoinFits d evt
  | .dqStatusHandler => 0 ≤ dqWsid evt ∧ dqWsid evt < cfg.maxAid
  | .addbaHandler => True

/-- The indexes are inside, and the lengths have not wrapped, for the events that fit and for no
others. -/
theorem entry_contained_iff (entry : Entry) (env : Rx.Env) (d : Device cfg τ) (evt : Mem) :
    Contained (entry.run env d evt) ↔ entry.Fits d evt := by
  cases entry with
  | rxHdlEvent => exact contained_thenFree.trans rxHdlEventBody_contained_iff
  | joinHostEventHandler => exact joinHostEventHandler_contained_iff
  | dqStatusHandler => exact dqStatusHandler_contained_iff
  | addbaHandler => exact iff_of_true addbaHandler_contained trivial

/-- A device with two stations' interfaces. -/
def twoStationVifs : Device Ap.openAp Unit where
  sta := joinInit (fun _ => .sta) ()
  ap := Ap.initAp Ap.openAp
  acsStart := false
  channelCount _ := 0
  ampduRxVif := 0

/-- An event of these bytes. -/
def evtOf (bs : List UInt8) : Mem := fun i => bs.getD i 0

/-- A private event without an entry, a join result for a third interface, a queue report for
station -1, and an event of length 0. -/
theorem not_contained_unchecked :
    ¬ Contained (Entry.rxHdlEvent.run .ap twoStationVifs (evtOf [8, 0, 0, 255]))
      ∧ ¬ Contained (Entry.joinHostEventHandler.run .ap twoStationVifs
          (evtOf [20, 0, 0, 2, 0, 0, 0, 0, 0, 0, 0, 0, 1, 0, 0, 0, 2, 0, 0, 0]))
      ∧ ¬ Contained (Entry.dqStatusHandler.run .ap twoStationVifs
          (evtOf [12, 0, 0, 26, 0, 0, 0, 0, 255, 255, 0, 0]))
      ∧ ¬ Contained (Entry.rxHdlEvent.run .ap twoStationVifs (evtOf [0, 0, 0, 15])) := by
  have hrx (evt : Mem) : Contained (Entry.rxHdlEvent.run .ap twoStationVifs evt)
      ↔ RxFits twoStationVifs evt := contained_thenFree.trans rxHdlEventBody_contained_iff
  refine ⟨fun h => ?_, fun h => ?_, fun h => ?_, fun h => ?_⟩
  · exact absurd (((hrx _).mp h).privateEvt (by decide)) (by decide)
  · exact absurd (joinHostEventHandler_contained_iff.mp h).1 (by decide)
  · exact absurd (dqStatusHandler_contained_iff.mp h).1 (by decide)
  · exact absurd (((hrx _).mp h).header ⟨by decide, by decide, by decide, by decide,
      fun hl => absurd hl (by decide)⟩) (by decide)

end Fullmac.Host.Fw
