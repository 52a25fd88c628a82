import Fullmac.Rx.SeqNum
import Fullmac.Lib.Machine
import Mathlib.Logic.Function.Basic

/-!
# The receive reorder buffer of one block-ack session

Reference: `host/core/txrx_hdl.c`, from `ieee80211_release_reorder_frame` to
`ieee80211_addba_handler`, and `struct rx_ba_session_desc` in `host/include/priv/dev.h`.

Every function returns the session it leaves and the list of what it did, in order. An event `step`
is one move of `head_seq_num` together with the frame that move released: one call of
`ieee80211_release_reorder_frame` with, in the timeout loop, the extra advance over the skipped
slots, or the in-order fast path. The slot whose descriptor was read is part of the event, with what
was found in it.

Two conventions about undefined behaviour. The memory behind `reorder_buf` is a total function, so
an index at or beyond the allocated size still has a meaning here; whether such an index is used is
read off the events. The descriptor of an absent frame is taken to yield a valid bssid index, so
that the `ASSERT` behind it passes; that it was read is again in the events.
-/

namespace Fullmac.Rx

/-- `MAX_VIF_NUM`. -/
def maxVifNum : ℕ := 2

/-- `HT_RX_REORDER_BUF_TIMEOUT`, in ticks. -/
def htRxReorderBufTimeout : ℕ := 10

/-- `ssv6xxx_hw_mode`. -/
inductive HwMode
  | sta | ap | ibss | wds | sconfig | invalid
deriving DecidableEq, Repr

/-- `enum conn_status`. -/
inductive ConnStatus
  | disconnect | auth | assoc | eapol | connect
deriving DecidableEq, Repr

/-- What the reorder code reads of an interface: `hw_mode` and, for a station, `StaInfo->status`. -/
structure Vif where
  hwMode : HwMode
  staStatus : ConnStatus
deriving DecidableEq, Repr

/-- A received frame: its buffer and the descriptor fields the reorder code reads. The caller
`_RxHdl_FrameProc` passes only frames whose `bssid_idx` is below `MAX_VIF_NUM`. -/
structure RxFrame where
  ptr : ℕ
  seqNum : ℕ
  bssidIdx : Fin maxVifNum
  wsid : ℕ
  tid : ℕ
  f80211 : Bool
  qos : Bool
deriving DecidableEq, Repr

/-- `struct rx_ba_session_desc`. -/
structure RxBaSession where
  reorderBuf : ℕ → Option RxFrame
  reorderTime : ℕ → ℕ
  headSeqNum : ℕ
  storedMpduNum : ℕ
  ssn : ℕ
  bufSize : ℕ

/-- The part of `struct Host_cfg` read here. `ampdu_rx_buf_size` is an 8-bit field. -/
structure HostCfg where
  ampduRxBufSize : ℕ
  ampduRxBufSize_lt : ampduRxBufSize < 256

/-- What an operation finds around it: the interfaces, the tick read when a frame is stored, and the
tick read when the timeout loop looks at slot `j`. -/
structure Env where
  vif : Fin maxVifNum → Vif
  stamp : ℕ
  tick : ℕ → ℕ

/-- What one call of `ieee80211_release_reorder_frame` did with the slot it read. -/
inductive Released
  | absent
  | sent (f : RxFrame)
  | freed (f : RxFrame)
deriving DecidableEq, Repr

/-- What an operation did. -/
inductive RxEvent
  | step (index : Option ℕ) (head head' : ℕ) (out : Released)
  | drop (f : RxFrame)
  | bypass (f : RxFrame)
deriving DecidableEq, Repr

/-- The station interface of the frame has lost its connection. -/
def Env.disconnected (env : Env) (f : RxFrame) : Bool :=
  (env.vif f.bssidIdx).hwMode == .sta && (env.vif f.bssidIdx).staStatus == .disconnect

/-- `time_after(a, b)`: the 32-bit signed difference `b - a` is negative. -/
def timeAfter (a b : ℕ) : Bool := (BitVec.ofNat 32 b - BitVec.ofNat 32 a).slt 0

/-- `seq_sub(sq, tid_agg_rx->ssn) % tid_agg_rx->buf_size`. -/
def RxBaSession.slot (s : RxBaSession) (sq : ℕ) : ℕ := seqSub sq s.ssn % s.bufSize

/-- `ieee80211_release_reorder_frame`. -/
def releaseReorderFrame (env : Env) (s : RxBaSession) (index : ℕ) : RxBaSession × Released :=
  match s.reorderBuf index with
  | none => ({ s with headSeqNum := seqInc s.headSeqNum }, .absent)
  | some frame =>
    ({ s with
        storedMpduNum := (s.storedMpduNum + 65535) % 65536
        reorderBuf := Function.update s.reorderBuf index none
        headSeqNum := seqInc s.headSeqNum },
      if env.disconnected frame then .freed frame else .sent frame)

section release

variable (env : Env) (s : RxBaSession) (index : ℕ)

/-- Whatever the slot held, it is empty afterwards and no other slot is touched. -/
@[simp] theorem releaseReorderFrame_reorderBuf :
    (releaseReorderFrame env s index).1.reorderBuf = Function.update s.reorderBuf index none := by
  cases h : s.reorderBuf index with
  | none =>
    rw [← h, Function.update_eq_self]
    simp [releaseReorderFrame, h]
  | some f => simp [releaseReorderFrame, h]

@[simp] theorem releaseReorderFrame_headSeqNum :
    (releaseReorderFrame env s index).1.headSeqNum = seqInc s.headSeqNum := by
  cases h : s.reorderBuf index <;> simp [releaseReorderFrame, h]

@[simp] theorem releaseReorderFrame_ssn : (releaseReorderFrame env s index).1.ssn = s.ssn := by
  cases h : s.reorderBuf index <;> simp [releaseReorderFrame, h]

@[simp] theorem releaseReorderFrame_bufSize :
    (releaseReorderFrame env s index).1.bufSize = s.bufSize := by
  cases h : s.reorderBuf index <;> simp [releaseReorderFrame, h]

@[simp] theorem releaseReorderFrame_slot (sq : ℕ) :
    (releaseReorderFrame env s index).1.slot sq = s.slot sq := by
  simp [RxBaSession.slot]

/-- An empty slot costs nothing but the advance of the head. -/
theorem releaseReorderFrame_of_none {index : ℕ} (h : s.reorderBuf index = none) :
    releaseReorderFrame env s index
      = ({ s with headSeqNum := seqInc s.headSeqNum }, .absent) := by
  simp [releaseReorderFrame, h]

/-- The frame of a full slot is freed or sent, depending on its interface. -/
theorem releaseReorderFrame_out_of_some {index : ℕ} {f : RxFrame}
    (h : s.reorderBuf index = some f) :
    (releaseReorderFrame env s index).2
      = if env.disconnected f then .freed f else .sent f := by
  simp [releaseReorderFrame, h]

theorem releaseReorderFrame_storedMpduNum_of_some {index : ℕ} {f : RxFrame}
    (h : s.reorderBuf index = some f) :
    (releaseReorderFrame env s index).1.storedMpduNum = (s.storedMpduNum + 65535) % 65536 := by
  simp [releaseReorderFrame, h]

/-- Only the frame found in the slot can be sent. -/
theorem reorderBuf_of_release_sent {index : ℕ} {f : RxFrame}
    (h : (releaseReorderFrame env s index).2 = .sent f) : s.reorderBuf index = some f := by
  cases hs : s.reorderBuf index with
  | none => simp [releaseReorderFrame, hs] at h
  | some g =>
    rw [releaseReorderFrame_out_of_some env s hs] at h
    split at h
    · cases h
    · cases h
      rfl

/-- The answer `absent` is given exactly for an empty slot. -/
theorem release_out_eq_absent_iff {index : ℕ} :
    (releaseReorderFrame env s index).2 = .absent ↔ s.reorderBuf index = none := by
  cases hs : s.reorderBuf index with
  | none => simp [releaseReorderFrame, hs]
  | some g =>
    rw [releaseReorderFrame_out_of_some env s hs]
    split <;> simp

end release

/-- The loop of `ieee80211_release_reorder_frames`, cut off after `fuel` iterations. -/
def releaseReorderFramesLoop (env : Env) (headSeqNum : ℕ) :
    ℕ → RxBaSession → RxBaSession × List RxEvent
  | 0, s => (s, [])
  | fuel + 1, s =>
    if seqLess s.headSeqNum headSeqNum then
      let index := s.slot s.headSeqNum
      let r := releaseReorderFrame env s index
      let rest := releaseReorderFramesLoop env headSeqNum fuel r.1
      (rest.1, .step (some index) s.headSeqNum r.1.headSeqNum r.2 :: rest.2)
    else (s, [])

/-- `ieee80211_release_reorder_frames`. The loop ends before its fuel does, see
`seqLess_releaseReorderFrames`. -/
def releaseReorderFrames (env : Env) (s : RxBaSession) (headSeqNum : ℕ) :
    RxBaSession × List RxEvent :=
  releaseReorderFramesLoop env headSeqNum seqModulo s

/-- A target that the head is not behind moves nothing. -/
theorem releaseReorderFrames_of_not_less (env : Env) {s : RxBaSession} {headSeqNum : ℕ}
    (h : seqLess s.headSeqNum headSeqNum = false) :
    releaseReorderFrames env s headSeqNum = (s, []) := by
  rw [releaseReorderFrames, seqModulo, releaseReorderFramesLoop, h, if_neg (by decide)]

/-- The timeout loop of `ieee80211_sta_reorder_release`: `j` walks the ring from the slot behind
`index` back to it, `skipped` counts the holes since the last release. It stops at the first frame
behind a hole that has not waited long enough. -/
def timeoutLoop (env : Env) (index : ℕ) :
    ℕ → RxBaSession → ℕ → ℕ → RxBaSession × List RxEvent
  | 0, s, _, _ => (s, [])
  | fuel + 1, s, j, skipped =>
    if j = index then (s, [])
    else if (s.reorderBuf j).isNone then
      timeoutLoop env index fuel s ((j + 1) % s.bufSize) (skipped + 1)
    else if skipped ≠ 0 ∧
        timeAfter (env.tick j) (s.reorderTime j + htRxReorderBufTimeout) = false then
      (s, [])
    else
      let r := releaseReorderFrame env s j
      -- increment the head also for the skipped slots
      let s' := { r.1 with headSeqNum := (r.1.headSeqNum + skipped) % 4096 }
      let rest := timeoutLoop env index fuel s' ((j + 1) % s'.bufSize) 0
      (rest.1, .step (some j) s.headSeqNum s'.headSeqNum r.2 :: rest.2)

/-- The other branch of `ieee80211_sta_reorder_release`: release frames until the next missing
one. -/
def inOrderLoop (env : Env) : ℕ → RxBaSession → RxBaSession × List RxEvent
  | 0, s => (s, [])
  | fuel + 1, s =>
    let index := s.slot s.headSeqNum
    if (s.reorderBuf index).isSome then
      let r := releaseReorderFrame env s index
      let rest := inOrderLoop env fuel r.1
      (rest.1, .step (some index) s.headSeqNum r.1.headSeqNum r.2 :: rest.2)
    else (s, [])

/-- `ieee80211_sta_reorder_release`. The scan for the next stored frame that ends the source
function only served the timer calls now commented out: it changes nothing and is left out. -/
def staReorderRelease (env : Env) (s : RxBaSession) : RxBaSession × List RxEvent :=
  let index := s.slot s.headSeqNum
  if (s.reorderBuf index).isNone ∧ s.storedMpduNum ≠ 0 then
    timeoutLoop env index s.bufSize s ((index + 1) % s.bufSize) 1
  else inOrderLoop env (s.bufSize + 1) s

/-- The middle of `ieee80211_sta_manage_reorder_buf`: a number at or beyond the end of the window
moves the window so that it becomes its last number. -/
def makeRoom (env : Env) (s : RxBaSession) (mpduSeqNum : ℕ) : RxBaSession × List RxEvent :=
  if seqLess mpduSeqNum ((s.headSeqNum + s.bufSize) % 65536) then (s, [])
  else releaseReorderFrames env s (seqInc (seqSub mpduSeqNum s.bufSize))

/-- Put the frame in the reordering buffer. -/
def storeFrame (env : Env) (s : RxBaSession) (index : ℕ) (frame : RxFrame) : RxBaSession :=
  { s with
    reorderBuf := Function.update s.reorderBuf index (some frame)
    reorderTime := Function.update s.reorderTime index env.stamp
    storedMpduNum := (s.storedMpduNum + 1) % 65536 }

/-- `ieee80211_sta_manage_reorder_buf`. The Boolean is its return value: `true` if the frame was
consumed, `false` if the caller is to process it now. -/
def staManageReorderBuf (env : Env) (s : RxBaSession) (frame : RxFrame) :
    RxBaSession × List RxEvent × Bool :=
  if seqLess frame.seqNum s.headSeqNum then (s, [.drop frame], true)
  else
    let r := makeRoom env s frame.seqNum
    let index := r.1.slot frame.seqNum
    if (r.1.reorderBuf index).isSome then (r.1, r.2 ++ [.drop frame], true)
    else if frame.seqNum = r.1.headSeqNum ∧ r.1.storedMpduNum = 0 then
      ({ r.1 with headSeqNum := seqInc r.1.headSeqNum }, r.2, false)
    else
      let r' := staReorderRelease env (storeFrame env r.1 index frame)
      (r'.1, r.2 ++ r'.2, true)

/-- The end of `ieee80211_rx_reorder_ampdu`, for a frame that belongs to this session: a frame that
was not consumed is handed to `send_to_data_handler`. The fast path that leaves it so has just moved
the head over its number. -/
def rxSession (env : Env) (s : RxBaSession) (frame : RxFrame) : RxBaSession × List RxEvent :=
  if s.bufSize = 0 then (s, [.bypass frame])
  else
    let r := staManageReorderBuf env s frame
    if r.2.2 then (r.1, r.2.1)
    else (r.1, r.2.1 ++ [.step none frame.seqNum r.1.headSeqNum (.sent frame)])

/-- The BAR branch of `_RxHdl_FrameProc`: a session whose `buf_size` is zero is not live. -/
def rxBar (env : Env) (s : RxBaSession) (startSeqNum : ℕ) : RxBaSession × List RxEvent :=
  if s.bufSize = 0 then (s, []) else releaseReorderFrames env s startSeqNum

/-- The body of `timer_sta_reorder_release` for one session. -/
def timerRelease (env : Env) (s : RxBaSession) : RxBaSession × List RxEvent :=
  if s.bufSize = 0 then (s, []) else staReorderRelease env s

/-- The loop that both `ieee80211_addba_handler` and `ieee80211_delete_ampdu_rx` begin with: release
the slots `index, index + 1, …`, `count` of them. -/
def flushLoop (env : Env) : ℕ → ℕ → RxBaSession → RxBaSession × List RxEvent
  | 0, _, s => (s, [])
  | count + 1, index, s =>
    let r := releaseReorderFrame env s index
    let rest := flushLoop env count (index + 1) r.1
    (rest.1, .step (some index) s.headSeqNum r.1.headSeqNum r.2 :: rest.2)

/-- Release every slot of the configured buffer. -/
def flushSession (cfg : HostCfg) (env : Env) (s : RxBaSession) : RxBaSession × List RxEvent :=
  flushLoop env cfg.ampduRxBufSize 0 s

/-- `ieee80211_addba_handler`, for the session it addresses. -/
def addbaSession (cfg : HostCfg) (env : Env) (s : RxBaSession) (ssn bufSize : ℕ) :
    RxBaSession × List RxEvent :=
  let r := flushSession cfg env s
  ({ r.1 with bufSize := bufSize, ssn := ssn, headSeqNum := ssn }, r.2)

/-- `ieee80211_delete_ampdu_rx`, for one session. -/
def deleteSession (cfg : HostCfg) (env : Env) (s : RxBaSession) : RxBaSession × List RxEvent :=
  let r := flushSession cfg env s
  ({ r.1 with
      reorderTime := fun j => if j < cfg.ampduRxBufSize then 0 else r.1.reorderTime j
      headSeqNum := 0, storedMpduNum := 0, ssn := 0, bufSize := 0 }, r.2)

/-- A session right after initialisation: the descriptor and both arrays are zeroed. -/
def RxBaSession.zero : RxBaSession where
  reorderBuf := fun _ => none
  reorderTime := fun _ => 0
  headSeqNum := 0
  storedMpduNum := 0
  ssn := 0
  bufSize := 0

/-- `ampdu_rx_buf_size` as `AMPDU_RX_BUF_SIZE` sets it. -/
def HostCfg.default : HostCfg := ⟨64, by decide⟩

/-- Access-point interfaces, which are never disconnected, and a clock that stands still. -/
def Env.ap : Env := ⟨fun _ => ⟨.ap, .connect⟩, 0, fun _ => 0⟩

/-- A QoS data frame of the first session of the table. -/
def RxFrame.data (ptr seqNum : ℕ) : RxFrame := ⟨ptr, seqNum, ⟨0, by decide⟩, 0, 0, false, true⟩

@[simp] theorem Env.ap_disconnected (f : RxFrame) : Env.ap.disconnected f = false := by
  simp [Env.disconnected, Env.ap]

/-- One operation on a session. -/
inductive SessOp
  | frame (env : Env) (f : RxFrame)
  | bar (env : Env) (startSeqNum : ℕ)
  | timer (env : Env)
  | addba (env : Env) (ssn bufSize : ℕ)
  | delete (env : Env)

/-- Every operation runs under the session's `reorder_lock`. -/
def sessStep (cfg : HostCfg) (s : RxBaSession) : SessOp → RxBaSession × List RxEvent
  | .frame env f => rxSession env s f
  | .bar env start => rxBar env s start
  | .timer env => timerRelease env s
  | .addba env ssn bufSize => addbaSession cfg env s ssn bufSize
  | .delete env => deleteSession cfg env s

/-- A run of operations on one session. -/
abbrev sessRun (cfg : HostCfg) : RxBaSession → List SessOp → RxBaSession × List RxEvent :=
  Machine.run (sessStep cfg)

end Fullmac.Rx
