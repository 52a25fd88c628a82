import Fullmac.Host.Api
import Fullmac.Cmd.Model
import Fullmac.Lib.Machine
import Mathlib.Data.List.Nodup

/-!
# Joins and recoveries

Reference: `host/core/host_apis.c`, `build_sta_ht_ie` and `ssv6xxx_wifi_join`;
`host/core/host_cmd_engine_rx.c`, `join_host_event_handler_`; `host/lib/ssv_lib.c`,
`ssv6xxx_sta_mode_connect` and `ssv6xxx_sta_mode_disconnect`; `host/core/recover.c`,
`ssv6xxx_wifi_sta_recover`.

A join is asked for in a task of the application, or by a recovery. Its command goes through the
mailbox and the command engine to the firmware, and the firmware answers it later with an event. The
request is saved in the interface when the call succeeds (`joincfg_backup`) and becomes the
configuration of the interface (`joincfg`) when a result says so.

A recovery runs beside all this: it sets `recovering`, resets the chip, drops the parked commands,
and joins again. Between these parts other tasks move. The reset itself, and what the transmit side
does with a command it has accepted, are left out, except that it may drop it.
-/

namespace Fullmac.Host

open Rx (HwMode maxVifNum)

/-! ## The device -/

/-- What a zeroed `struct cfg_join_request` says. -/
def JoinRequest.zero : JoinRequest where
  vifIdx := vif0
  bssid := .replicate 6 0
  wmmUsed := false
  htSupported := false
  htCapIe := []
  body := []

/-- `struct StaInfo`. -/
structure StaInfo where
  connected : Bool
  joincfg : JoinRequest
  joincfgBackup : JoinRequest

/-- A join that was handed to the command engine: the number of its frame, the request, and the
recovery that asked for it. -/
structure Join where
  frame : ℕ
  request : JoinRequest
  issuer : Option ℕ
deriving DecidableEq

/-- A recovery in execution. Recoveries are numbered as they begin. -/
structure Recovery where
  num : ℕ
  vifIdx : Fin maxVifNum
  flushed : Bool

/-- The interfaces, the command engine with its mailbox, and what is under way: the joins handed
over so far, those of them that the transmit side has accepted (`sent`), the number of recoveries
begun, and those in execution. -/
structure JoinState (τ : Type*) where
  hwMode : Fin maxVifNum → HwMode
  staInfo : Fin maxVifNum → StaInfo
  txreqWithQos : Bool
  recovering : Bool
  api : ApiState
  joins : List Join
  mailbox : List Cmd.Msg
  eng : Cmd.Eng τ
  sent : List ℕ
  begun : ℕ
  executing : List Recovery

/-- What the application is told. -/
inductive UpperEvent
  | joinResult (statusCode : ℕ)
  | leaveResult (reasonCode : ℕ)
deriving DecidableEq

/-- A join result that was handled: whether in recovery, which join it answers, and the
configuration it leaves. -/
structure Handled where
  vifIdx : Fin maxVifNum
  statusCode : ℕ
  recovering : Bool
  answers : Option Join
  joincfg : JoinRequest
deriving DecidableEq

/-- What can be seen of a run. -/
inductive JoinOut
  | accepted (j : Join)
  | handled (h : Handled)
  | removeAp (bssid : Vector UInt8 6)
  | evtCb (e : UpperEvent)
deriving DecidableEq

variable {τ ι : Type*}

/-! ## Joining -/

/-- `icomm_hw_info`; `ampdu` holds the factor and the density. -/
structure HwInfo where
  htSupported : Bool
  htCapability : UInt16
  ampdu : UInt8
  mcs : List UInt8

/-- `create_sta_ht_cap_ie`. -/
def createStaHtCapIe (hw : HwInfo) (htCapIe : List UInt8) : List UInt8 :=
  if hw.htCapability = 0 then htCapIe
  else
    [hw.htCapability.toUInt8, (hw.htCapability >>> 8).toUInt8, hw.ampdu] ++ hw.mcs
      ++ htCapIe.drop (3 + hw.mcs.length)

/-- `build_sta_ht_ie`, with the assignment of its result. -/
def buildStaHtIe (hw : HwInfo) (cjreq : JoinRequest) : JoinRequest :=
  if hw.htSupported then
    { cjreq with htSupported := true, htCapIe := createStaHtCapIe hw cjreq.htCapIe }
  else { cjreq with htSupported := false }

/-- The message with the command, and the copy of the request. -/
def handOver (issuer : Option ℕ) (cjreq : JoinRequest) (s : JoinState τ) :
    JoinState τ × List JoinOut :=
  let j : Join := { frame := s.joins.length, request := cjreq, issuer }
  ({ s with
      joins := s.joins ++ [j]
      mailbox := s.mailbox ++ [.hostCmd ⟨j.frame, .join, s.api.cmdSeqNo⟩]
      staInfo := Function.update s.staInfo cjreq.vifIdx
        { s.staInfo cjreq.vifIdx with joincfgBackup := cjreq } },
    [.accepted j])

/-- The part of `_ssv6xxx_wifi_join` behind the state of the API. -/
def sendJoin (env : ApiEnv) (issuer : Option ℕ) (cjreq : JoinRequest) (s : JoinState τ) :
    ℤ × JoinState τ × List JoinOut :=
  let r := wifiSendCmd env hostCmdJoin (.join cjreq) s.api
  let s := { s with api := r.2.1 }
  if r.1 = ssvSuccess then (r.1, handOver issuer cjreq s) else (r.1, s, [])

/-- `_ssv6xxx_wifi_join`. A failed wake-up leaves before the copy. -/
def wifiJoinCopy (env : ApiEnv) (issuer : Option ℕ) (cjreq : JoinRequest) (s : JoinState τ) :
    ℤ × JoinState τ × List JoinOut :=
  match s.api.active with
  | .deactive => (ssvFailed, s, [])
  | .pwrSaving =>
    let w := wakeupWifi env s.api
    let s := { s with api := w.2 }
    if w.1 = 0 then (w.1, s, []) else sendJoin env issuer cjreq s
  | .active => sendJoin env issuer cjreq s

/-- `ssv6xxx_wifi_join`. -/
def ssv6xxxWifiJoin (hw : HwInfo) (env : ApiEnv) (issuer : Option ℕ) (cjreq : JoinRequest)
    (s : JoinState τ) : ℤ × JoinState τ × List JoinOut :=
  if s.hwMode cjreq.vifIdx = .sta then wifiJoinCopy env issuer (buildStaHtIe hw cjreq) s
  else (ssvFailed, s, [])

/-! ## The result -/

/-- `ssv6xxx_sta_mode_connect`. -/
def staModeConnect (v : Fin maxVifNum) (s : JoinState τ) : JoinState τ :=
  { s with
    staInfo := Function.update s.staInfo v
      { s.staInfo v with connected := true, joincfg := (s.staInfo v).joincfgBackup } }

/-- `ssv6xxx_sta_mode_disconnect`. -/
def staModeDisconnect (v : Fin maxVifNum) (s : JoinState τ) : JoinState τ :=
  { s with
    staInfo := Function.update s.staInfo v
      { connected := false, joincfg := .zero, joincfgBackup := .zero } }

/-- `join_host_event_handler_`. In recovery the application hears of a failure only, as of a link
that was lost. -/
def joinHostEventHandler (v : Fin maxVifNum) (statusCode : ℕ) (s : JoinState τ) :
    JoinState τ × List JoinOut :=
  let r : JoinState τ × List JoinOut :=
    if s.recovering then
      if statusCode ≠ 0 then
        ({ staModeDisconnect v s with recovering := false },
          [.removeAp (s.staInfo v).joincfg.bssid, .evtCb (.leaveResult 4)])
      else ({ staModeConnect v s with recovering := false }, [])
    else if statusCode ≠ 0 then (staModeDisconnect v s, [.evtCb (.joinResult statusCode)])
    else (staModeConnect v s, [.evtCb (.joinResult statusCode)])
  ({ r.1 with txreqWithQos := (r.1.staInfo v).joincfg.wmmUsed }, r.2)

/-- The join of interface `v` that was sent first and has no result yet. -/
def awaitsResult (v : Fin maxVifNum) (s : JoinState τ) : Option Join :=
  (s.sent.filterMap fun n => s.joins[n]?).find? fun j => j.request.vifIdx = v

/-- A join result of the firmware is handled. -/
def joinResult (v : Fin maxVifNum) (statusCode : ℕ) (s : JoinState τ) :
    JoinState τ × List JoinOut :=
  let answers := awaitsResult v s
  let r := joinHostEventHandler v statusCode
    { s with sent := (answers.map fun j => s.sent.erase j.frame).getD s.sent }
  (r.1, .handled
    { vifIdx := v, statusCode, recovering := s.recovering, answers
      joincfg := (r.1.staInfo v).joincfg } :: r.2)

/-! ## Recovery -/

/-- The beginning of `ssv6xxx_wifi_sta_recover`. -/
def staRecover (v : Fin maxVifNum) (s : JoinState τ) : JoinState τ :=
  if s.recovering then s
  else
    { s with
      recovering := true
      begun := s.begun + 1
      executing := s.executing ++ [{ num := s.begun, vifIdx := v, flushed := false }] }

/-- The end of `ssv6xxx_wifi_sta_recover`. `ssv6xxx_wifi_join` writes into the configuration that is
its argument; nobody looks at what it returns. -/
def rejoin (hw : HwInfo) (env : ApiEnv) (r : Recovery) (s : JoinState τ) :
    JoinState τ × List JoinOut :=
  let info := s.staInfo r.vifIdx
  if info.connected then
    let joincfg :=
      if s.hwMode info.joincfg.vifIdx = .sta then buildStaHtIe hw info.joincfg else info.joincfg
    (ssv6xxxWifiJoin hw env (some r.num) info.joincfg
      { s with staInfo := Function.update s.staInfo r.vifIdx { info with joincfg } }).2
  else ({ s with recovering := false }, [])

/-- The `k`-th recovery in execution goes on: it drops the parked commands, or comes to its end. -/
def recoverOn (hw : HwInfo) (env : ApiEnv) (k : ℕ) (s : JoinState τ) :
    JoinState τ × List JoinOut :=
  match s.executing[k]? with
  | none => (s, [])
  | some r =>
    if r.flushed then rejoin hw env r { s with executing := s.executing.eraseIdx k }
    else
      ({ s with
          eng := (Cmd.flushPendingCmds s.eng).1
          executing := s.executing.set k { r with flushed := true } }, [])

/-! ## The command engine -/

/-- The joins among the commands that the transmit side has accepted. -/
def sentJoins (out : List Cmd.CmdOut) : List ℕ :=
  out.filterMap fun
    | .passed c true => if c.hCmd = .join then some c.ptr else none
    | _ => none

/-- One turn of `CmdEng_Task` on its mailbox, where the message stays when a parked command comes
first. -/
def engineTurn (side : Cmd.TxSide τ ι) (malloc : Bool) (s : JoinState τ) : JoinState τ :=
  let r := Cmd.cmdTask side s.eng (s.mailbox.headD .other) malloc
  { s with
    eng := r.1
    mailbox :=
      if s.eng.blockcmdInQ = false ∧ s.eng.pendingCmds ≠ [] then s.mailbox else s.mailbox.tail
    sent := s.sent ++ sentJoins r.2 }

/-- The message is a join. -/
def isJoin : Cmd.Msg → Bool
  | .hostCmd c => c.hCmd = .join
  | _ => false

/-! ## Runs -/

/-- Who moves: the application, another task that sends the engine a message or changes the state of
the API, the engine, the transmit side, the firmware with a result, a recovery. -/
inductive JoinIn (ι : Type*)
  | wifiJoin (env : ApiEnv) (cjreq : JoinRequest)
  | post (m : { m : Cmd.Msg // isJoin m = false })
  | hostApi (state : HostApiState)
  | engine (malloc : Bool)
  | tx (i : ι)
  | txDrop (k : ℕ)
  | joinResult (v : Fin maxVifNum) (statusCode : ℕ)
  | staRecover (v : Fin maxVifNum)
  | recoverOn (k : ℕ) (env : ApiEnv)

def joinStep (hw : HwInfo) (side : Cmd.TxSide τ ι) (s : JoinState τ) :
    JoinIn ι → JoinState τ × List JoinOut
  | .wifiJoin env cjreq => (ssv6xxxWifiJoin hw env none cjreq s).2
  | .post m => ({ s with mailbox := s.mailbox ++ [m.val] }, [])
  | .hostApi state => ({ s with api := { s.api with active := state } }, [])
  | .engine malloc => (engineTurn side malloc s, [])
  | .tx i => ({ s with eng := { s.eng with tx := side.step s.eng.tx i } }, [])
  | .txDrop k => ({ s with sent := s.sent.eraseIdx k }, [])
  | .joinResult v statusCode => joinResult v statusCode s
  | .staRecover v => (staRecover v s, [])
  | .recoverOn k env => recoverOn hw env k s

/-- The device before its first join. -/
def joinInit (hwMode : Fin maxVifNum → HwMode) (tx : τ) : JoinState τ where
  hwMode := hwMode
  staInfo _ := { connected := false, joincfg := .zero, joincfgBackup := .zero }
  txreqWithQos := false
  recovering := false
  api := { active := .active, cmdSeqNo := 0 }
  joins := []
  mailbox := []
  eng := Cmd.cmdEngInit tx
  sent := []
  begun := 0
  executing := []

/-! ## What a join does

A join is accepted by the state of the interface and of the API, and by what could be allocated. -/

/-- A join on interface `v` gets as far as the copy of its request. -/
def JoinAccepts (env : ApiEnv) (v : Fin maxVifNum) (s : JoinState τ) : Prop :=
  s.hwMode v = .sta ∧ s.api.active ≠ .deactive ∧
    (s.api.active = .pwrSaving → env.wakeupWifi = true) ∧
    env.frameAlloc = true ∧ env.msgAlloc = true

instance (env : ApiEnv) (v : Fin maxVifNum) (s : JoinState τ) : Decidable (JoinAccepts env v s) :=
  inferInstanceAs (Decidable (_ ∧ _))

section Join

variable (hw : HwInfo) (env : ApiEnv) (issuer : Option ℕ) (cjreq : JoinRequest) (s : JoinState τ)

@[simp] theorem buildStaHtIe_vifIdx : (buildStaHtIe hw cjreq).vifIdx = cjreq.vifIdx := by
  unfold buildStaHtIe
  split <;> rfl

theorem sendJoin_cases :
    ((env.frameAlloc = true ∧ env.msgAlloc = true) ∧
      ∃ api, (sendJoin env issuer cjreq s).2 = handOver issuer cjreq { s with api }) ∨
    (¬ (env.frameAlloc = true ∧ env.msgAlloc = true) ∧
      ∃ api, (sendJoin env issuer cjreq s).2 = ({ s with api }, [])) := by
  rcases wifiSendCmd_cases env hostCmdJoin (.join cjreq) s.api with
    ⟨hf, h⟩ | ⟨f, -, hf, ⟨hm, h⟩ | ⟨hm, h⟩⟩
  · exact .inr ⟨by simp [hf], s.api, by simp [sendJoin, h, ssvNoMem, ssvSuccess]⟩
  · exact .inr ⟨by simp [hm], _, by simp [sendJoin, h, ssvNoMem, ssvSuccess]; rfl⟩
  · exact .inl ⟨⟨hf, hm⟩, _, by simp [sendJoin, h]; rfl⟩

/-- A join is handed over, or leaves nothing but its traces in the API. -/
theorem ssv6xxxWifiJoin_cases :
    (JoinAccepts env cjreq.vifIdx s ∧ ∃ api, (ssv6xxxWifiJoin hw env issuer cjreq s).2
        = handOver issuer (buildStaHtIe hw cjreq) { s with api }) ∨
    (¬ JoinAccepts env cjreq.vifIdx s ∧ ∃ api, (ssv6xxxWifiJoin hw env issuer cjreq s).2
        = ({ s with api }, [])) := by
  by_cases hmode : s.hwMode cjreq.vifIdx = .sta
  swap
  · exact .inr ⟨fun h => hmode h.1, s.api, by simp [ssv6xxxWifiJoin, hmode]⟩
  rw [ssv6xxxWifiJoin, if_pos hmode]
  cases hactive : s.api.active with
  | deactive =>
    exact .inr ⟨fun h => h.2.1 hactive, s.api, by simp [wifiJoinCopy, hactive]⟩
  | active =>
    rcases sendJoin_cases env issuer (buildStaHtIe hw cjreq) s with ⟨halloc, h⟩ | ⟨halloc, h⟩
    · exact .inl ⟨⟨hmode, by simp [hactive], by simp [hactive], halloc⟩,
        by simpa [wifiJoinCopy, hactive] using h⟩
    · exact .inr ⟨fun hacc => halloc hacc.2.2.2, by simpa [wifiJoinCopy, hactive] using h⟩
  | pwrSaving =>
    cases hw' : env.wakeupWifi with
    | false =>
      refine .inr ⟨fun h => ?_, s.api, by simp [wifiJoinCopy, hactive, wakeupWifi, hw']⟩
      simp [h.2.2.1 hactive] at hw'
    | true =>
      rcases sendJoin_cases env issuer (buildStaHtIe hw cjreq)
        { s with api := { s.api with active := .active } } with ⟨halloc, h⟩ | ⟨halloc, h⟩
      · exact .inl ⟨⟨hmode, by simp [hactive], by simp [hw'], halloc⟩,
          by simpa [wifiJoinCopy, hactive, wakeupWifi, hw'] using h⟩
      · exact .inr ⟨fun hacc => halloc hacc.2.2.2,
          by simpa [wifiJoinCopy, hactive, wakeupWifi, hw'] using h⟩

/-- The call returns what it returns without the copy, and leaves the API as it does. -/
theorem wifiJoinCopy_eq_wifiJoin :
    (wifiJoinCopy env issuer cjreq s).1 = (wifiJoin env cjreq s.api).1 ∧
      (wifiJoinCopy env issuer cjreq s).2.1.api = (wifiJoin env cjreq s.api).2.1 := by
  have hsend : ∀ s : JoinState τ,
      (sendJoin env issuer cjreq s).1 = (wifiSendCmd env hostCmdJoin (.join cjreq) s.api).1 ∧
        (sendJoin env issuer cjreq s).2.1.api
          = (wifiSendCmd env hostCmdJoin (.join cjreq) s.api).2.1 := by
    intro s
    simp only [sendJoin]
    split <;> exact ⟨rfl, rfl⟩
  cases hactive : s.api.active with
  | deactive => simp [wifiJoinCopy, wifiJoin, hactive]
  | active => simpa [wifiJoinCopy, wifiJoin, hactive] using hsend s
  | pwrSaving =>
    cases hw' : env.wakeupWifi with
    | false => simp [wifiJoinCopy, wifiJoin, withHostApi, hactive, wakeupWifi, hw']
    | true =>
      simpa [wifiJoinCopy, wifiJoin, withHostApi, hactive, wakeupWifi, hw']
        using hsend { s with api := { s.api with active := .active } }

end Join

/-- A result shows itself first. -/
theorem joinResult_snd (v : Fin maxVifNum) (statusCode : ℕ) (s : JoinState τ) :
    ∃ out, (joinResult v statusCode s).2
        = .handled ⟨v, statusCode, s.recovering, awaitsResult v s,
            ((joinResult v statusCode s).1.staInfo v).joincfg⟩ :: out ∧
      (∀ h, .handled h ∉ out) ∧ ∀ j, .accepted j ∉ out := by
  refine ⟨_, rfl, ?_, ?_⟩ <;> intro _ h <;> simp only [joinHostEventHandler] at h <;>
    (repeat' split at h) <;> simp at h

end Fullmac.Host
