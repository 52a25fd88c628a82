import Fullmac.Rx.ReorderTable
import Mathlib.Data.Fin.VecNotation
import Mathlib.Data.List.FinRange
import Mathlib.Data.Nat.Bitwise
import Mathlib.Data.Vector.Basic
import Mathlib.Logic.Function.Basic
import Mathlib.Tactic.Common

/-!
# The access point's stations and their buffered frames

`ap_sta_info.c` keeps a table of `gMaxAID` stations, `ap_tx.c` and `ap_rx.c` the frames of those
that sleep. A frame for a sleeping station is put, in a descriptor of a fixed pool, into the queue
of its access category; it leaves when the station polls (`staPsDeliverPollResponse`), triggers a
service period (`staPsDeliverUapsd`) or wakes up (`staPsDeliverWakeup`), when it is too old
(`staInfoCleanup`), when room is needed (`purgeOldPsBuffers`), or with the station
(`drvRemove`).

Each operation is one atomic step. A buffered frame that is sent goes through the transmit path
again (`apSendBufferedFrame`) with a mark that keeps it from being queued once more
(`dataCouldBeSend_psFrame`): the recursion of the source is one level deep.

A station is also known outside the table: to the hardware under a number of its own (`wsidIdx`), to
the timers, and to the block-ack sessions. That part of the state is `Driver`.

The frames' contents, the beacon and the timer that calls `sta_info_cleanup` are left out, and so is
what a station record holds for the firmware only.
-/

namespace Fullmac.Ap

/-! ## Data -/

/-- `ETHER_ADDR`. -/
abbrev EtherAddr := Vector UInt8 6

/-- `is_multicast_ether_addr`. -/
def isMulticast (a : EtherAddr) : Bool := a[0] &&& 1 = 1

/-- `is_valid_ether_addr`. -/
def isValidEtherAddr (a : EtherAddr) : Bool := !isMulticast a && a != Vector.replicate 6 0

/-- `enum ieee80211_ac_numbers`: voice, video, best effort, background. -/
abbrev Ac := Fin 4

/-- `up_to_ac`. -/
def upToAc : Fin 8 → Ac := ![2, 3, 3, 2, 1, 1, 0, 0]

/-- `enum timeout_next_e`. -/
inductive TimeoutNext
  | nullfunc | disassoc | deauth | remove
deriving DecidableEq, Repr

/-- The one-bit fields of a station that the access point counts: `nonerp_set` with
`num_sta_non_erp`, `no_short_slot_time_set` with `num_sta_no_short_slot_time`,
`no_short_preamble_set` with `num_sta_no_short_preamble`, `no_ht_gf_set` with `num_sta_ht_no_gf`,
`no_ht_set` with `num_sta_no_ht` and `ht_20mhz_set` with `num_sta_ht_20mhz`. -/
inductive Counted
  | nonErp | noShortSlotTime | noShortPreamble | noHtGf | noHt | ht20mhz
deriving DecidableEq, Repr

/-- What is configured. -/
structure ApCfg where
  /-- `gMaxAID`; its AIDs fit the single word of `sta_aid`. -/
  maxAid : ℕ
  maxAid_pos : 0 < maxAid
  maxAid_le : maxAid ≤ 32
  /-- `g_host_cfg.pool_size`, which is `AP_TOTAL_MAX_TX_BUFFER`. -/
  poolSize : ℕ
  poolSize_pos : 0 < poolSize
  poolSize_lt : poolSize < 65536
  /-- `own_addr`. -/
  ownAddr : EtherAddr
  /-- The bits `WPA_AUTH_ALG_OPEN` and `WPA_AUTH_ALG_SHARED` of `auth_algs`. -/
  authOpen : Bool
  authShared : Bool
  /-- `config.ssid`. -/
  ssid : List UInt8
  /-- `wpa_auth.conf->wpa` is not zero. -/
  wpa : Bool
  /-- `wpa_key_mgmt` is `WPA_KEY_MGMT_PSK`. -/
  keyMgmtPsk : Bool
  /-- `config.disable_11n`. -/
  disable11n : Bool
  /-- `g_host_cfg.erp`. -/
  erp : Bool
  /-- `eCurrentApMode` is `AP_MODE_IEEE80211G`. -/
  modeG : Bool
  /-- `g_host_cfg.AP_TimAllOne`. -/
  timAllOne : Bool
  /-- `g_host_cfg.bcn_interval`. -/
  bcnInterval : ℕ
  /-- `AP_MAX_INACTIVITY`, in milliseconds. -/
  maxInactivity : ℕ
  /-- `MAX_VIF_NUM`. -/
  maxVifNum : ℕ
  /-- `g_host_cfg.ampdu_rx_enable`. -/
  ampduRxEnable : Bool
  /-- `g_host_cfg.ampdu_rx_buf_size`. -/
  host : Rx.HostCfg

variable {cfg : ApCfg}

/-- `AP_TOTAL_MAX_TX_DSP`. -/
def ApCfg.maxTxDsp (cfg : ApCfg) : ℕ := cfg.poolSize + 10

/-- `AP_STA_MAX_TX_BUFFER`. -/
def staMaxTxBuffer : ℕ := 128

/-- `AP_STA_TX_BUFFER_EXPIRE`. -/
def staTxBufferExpire : ℕ := 10000

/-- `UNKNOWN_FW_QUEUE_LENGTH`. -/
def unknownFwQLen : ℤ := -9999

/-- `SSV_MAX_WSID`. -/
def ssvMaxWsid : ℕ := 8

/-- An index into `StaConInfo`. -/
abbrev StaIdx (cfg : ApCfg) := Fin cfg.maxAid

/-- An index into `pApTxData`. -/
abbrev DespIdx (cfg : ApCfg) := Fin cfg.maxTxDsp

/-- The priority of a frame without a QoS control field. -/
def noQosPriority : Fin 8 := 0

/-- What the transmit path reads of a frame. -/
structure TxFrame where
  da : EtherAddr
  /-- An Ethernet frame, or an 802.11 data frame. -/
  isData : Bool
  /-- The user priority of the QoS control field, or `noQosPriority`. -/
  priority : Fin 8
  /-- The bit `AP_PS_FRAME` of the reserved field of the request header. -/
  psFrame : Bool

/-- `struct ap_tx_desp`, with its flags. -/
structure TxDesp (cfg : ApCfg) where
  frame : TxFrame
  sta : Option (StaIdx cfg)
  priority : Fin 8
  unicast : Bool
  data : Bool
  nativeAp : Bool
  pollResponse : Bool
  jiffies : ℕ

/-- `APStaInfo_st`; the bits of `_flags` come first. -/
structure Station (cfg : ApCfg) where
  valid : Bool
  auth : Bool
  assoc : Bool
  authorized : Bool
  pendingPoll : Bool
  shortPreamble : Bool
  wmm : Bool
  ht : Bool
  nonerp : Bool
  psSta : Bool
  sp : Bool
  addr : EtherAddr
  /-- Zero until one is assigned. -/
  aid : ℕ
  capability : ℕ
  listenInterval : ℕ
  supportedRates : List UInt8
  htCapab : ℕ
  counted : Counted → Bool
  challenge : Option (List UInt8)
  timeoutNext : TimeoutNext
  arpRetryCount : ℕ
  uapsdQueues : ℕ
  maxSp : ℕ
  fwQLen : ℤ
  /-- The station's number in the hardware; `gMaxAID` stands for none. -/
  wsidIdx : ℕ
  psTxBuf : Ac → List (DespIdx cfg)

/-- `APStaInfo_StaReset`. -/
def resetStation : Station cfg where
  valid := false
  auth := false
  assoc := false
  authorized := false
  pendingPoll := false
  shortPreamble := false
  wmm := false
  ht := false
  nonerp := false
  psSta := false
  sp := false
  addr := Vector.replicate 6 0
  aid := 0
  capability := 0
  listenInterval := 0
  supportedRates := []
  htCapab := 0
  counted := fun _ => false
  challenge := none
  timeoutNext := .nullfunc
  arpRetryCount := 0
  uapsdQueues := 0
  maxSp := 0
  fwQLen := 0
  wsidIdx := 0
  psTxBuf := fun _ => []

/-- `tx_result`. -/
inductive TxResult
  | continue | drop | queued
deriving DecidableEq, Repr

/-- One call of `ssv6xxx_data_could_be_send`: the frame, the verdict, and the stations as they were
at that moment. -/
structure TxTest (cfg : ApCfg) where
  frame : TxFrame
  bAPFrame : Bool
  result : TxResult
  sta : StaIdx cfg → Station cfg

/-- What the access point has outside its own tables. The last two fields are not in the source:
they remember the number each slot's station was given, and every test of a frame. -/
structure Driver (cfg : ApCfg) where
  /-- The entries of the hardware's table of stations that are in use. -/
  wsid : ℕ → Bool
  /-- How many timers of `ap_handle_timer` are pending, by station. -/
  staTimer : StaIdx cfg → ℕ
  /-- `g_ba_rx_session_desc`. -/
  sessions : Rx.BaTable
  /-- How many timers of `timer_sta_reorder_release` are pending. -/
  reorderTimer : ℕ
  given : StaIdx cfg → ℕ
  tests : List (TxTest cfg)

/-- `ApInfo_st`. The last two fields are not in the source: they remember that `ap_get_tx_desp` has
failed an assertion, and that a counter of stations has been decremented below zero. -/
structure ApInfo (cfg : ApCfg) where
  sta : StaIdx cfg → Station cfg
  numSta : ℕ
  numStaPs : ℕ
  numStaAuthorized : ℕ
  num : Counted → ℕ
  /-- The bits of `sta_aid[0]`. -/
  staAid : ℕ → Bool
  /-- The bits of `tim`, by AID. -/
  tim : ℕ → Bool
  totalPsBuffered : ℕ
  /-- `pApTxData`; a descriptor without a request header is `none`. -/
  txDesp : DespIdx cfg → Option (TxDesp cfg)
  drv : Driver cfg
  assertFailed : Bool
  underflow : Bool

/-- Nothing is in use, nothing is pending. -/
def initDriver (cfg : ApCfg) : Driver cfg where
  wsid := fun _ => false
  staTimer := fun _ => 0
  sessions := Rx.BaTable.zero
  reorderTimer := 0
  given := fun _ => cfg.maxAid
  tests := []

/-- The state after `APStaInfo_Init` and `APTxDespInit`. -/
def initAp (cfg : ApCfg) : ApInfo cfg where
  sta := fun _ => { resetStation with wsidIdx := cfg.maxAid }
  numSta := 0
  numStaPs := 0
  numStaAuthorized := 0
  num := fun _ => 0
  staAid := fun _ => false
  tim := fun _ => false
  totalPsBuffered := 0
  txDesp := fun _ => none
  drv := initDriver cfg
  assertFailed := false
  underflow := false

/-- Change the record of one station. -/
def ApInfo.modSta (s : ApInfo cfg) (i : StaIdx cfg) (f : Station cfg → Station cfg) : ApInfo cfg :=
  { s with sta := Function.update s.sta i (f (s.sta i)) }

/-- An eight-bit counter is incremented. -/
def inc8 (n : ℕ) : ℕ := (n + 1) % 256

/-- An eight-bit counter is decremented. -/
def dec8 (n : ℕ) : ℕ := (n + 255) % 256

/-- `total_ps_buffered++`. -/
def ApInfo.incTotal (s : ApInfo cfg) : ApInfo cfg :=
  { s with totalPsBuffered := (s.totalPsBuffered + 1) % 65536 }

/-- `total_ps_buffered -= n`. -/
def ApInfo.subTotal (s : ApInfo cfg) (n : ℕ) : ApInfo cfg :=
  { s with totalPsBuffered := (s.totalPsBuffered + 65536 - n % 65536) % 65536 }

/-- `APStaInfo_FindStaByAddr`. -/
def findStaByAddr (s : ApInfo cfg) (mac : EtherAddr) : Option (StaIdx cfg) :=
  (List.finRange cfg.maxAid).find? fun i => (s.sta i).valid && (s.sta i).addr == mac

/-! ## Descriptors and queues -/

/-- `ap_get_tx_desp`. -/
def apGetTxDesp (s : ApInfo cfg) : Option (DespIdx cfg) :=
  (List.finRange cfg.maxTxDsp).find? fun d => (s.txDesp d).isNone

/-- `ap_release_tx_desp`. -/
def apReleaseTxDesp (s : ApInfo cfg) (d : DespIdx cfg) : ApInfo cfg :=
  { s with txDesp := Function.update s.txDesp d none }

/-- Replace one queue of a station. -/
def setQueue (s : ApInfo cfg) (i : StaIdx cfg) (ac : Ac) (q : List (DespIdx cfg)) : ApInfo cfg :=
  s.modSta i fun st => { st with psTxBuf := Function.update st.psTxBuf ac q }

/-- `list_q_deq` on a queue of a station. -/
def listQDeq (s : ApInfo cfg) (i : StaIdx cfg) (ac : Ac) : Option (DespIdx cfg) × ApInfo cfg :=
  match (s.sta i).psTxBuf ac with
  | [] => (none, s)
  | d :: q => (some d, setQueue s i ac q)

/-- `list_q_qtail` on a queue of a station. -/
def listQQtail (s : ApInfo cfg) (i : StaIdx cfg) (ac : Ac) (d : DespIdx cfg) : ApInfo cfg :=
  setQueue s i ac ((s.sta i).psTxBuf ac ++ [d])

/-- A frame that has left its queue is dropped: its descriptor is released and it is no longer
counted. -/
def dropDesp (s : ApInfo cfg) (d : DespIdx cfg) : ApInfo cfg := (apReleaseTxDesp s d).subTotal 1

/-- The inner loop of `purge_old_ps_buffers`: drop one frame of the first category that has any. -/
def purgeOldOne (i : StaIdx cfg) : List Ac → ApInfo cfg → ApInfo cfg
  | [], s => s
  | ac :: acs, s =>
    match listQDeq s i ac with
    | (some d, s) => dropDesp s d
    | (none, s) => purgeOldOne i acs s

/-- The access categories from the lowest priority up. -/
def acsUp : List Ac := [3, 2, 1, 0]

/-- `purge_old_ps_buffers`, from the lowest priority up. -/
def purgeOldPsBuffers (s : ApInfo cfg) : ApInfo cfg :=
  (List.finRange cfg.maxAid).foldl
    (fun s i => if (s.sta i).valid then purgeOldOne i [3, 2, 1, 0] s else s) s

/-- The `while` loop of `purge_sta_ps_buffers`, which runs once for each frame of the queue. -/
def purgeAc (i : StaIdx cfg) (ac : Ac) : ℕ → ApInfo cfg → ApInfo cfg
  | 0, s => s
  | n + 1, s =>
    match listQDeq s i ac with
    | (some d, s) => purgeAc i ac n (dropDesp s d)
    | (none, s) => s

/-- `purge_sta_ps_buffers`. -/
def purgeStaPsBuffers (s : ApInfo cfg) (i : StaIdx cfg) : ApInfo cfg :=
  [3, 2, 1, 0].foldl (fun s ac => purgeAc i ac ((s.sta i).psTxBuf ac).length s) s

/-! ## Traffic indication -/

/-- `ignore_for_tim` and `ignore_for_response`: all categories count if all are delivery-enabled. -/
def ignoredAcs (uapsdQueues : ℕ) : ℕ := if uapsdQueues = 15 then 0 else uapsdQueues

/-- What `sta_info_recalc_tim` finds: frames in a queue that is not ignored, or in the firmware. -/
def indicateTim (st : Station cfg) : Bool :=
  (List.finRange 4).any (fun ac =>
    !(ignoredAcs st.uapsdQueues).testBit ac && !(st.psTxBuf ac).isEmpty) || decide (0 < st.fwQLen)

/-- `sta_info_recalc_tim`: the bit of the station, and whether it changed. -/
def staInfoRecalcTim (s : ApInfo cfg) (i : StaIdx cfg) : Bool × ApInfo cfg :=
  let st := s.sta i
  if indicateTim st = s.tim st.aid then (false, s)
  else (true, { s with tim := Function.update s.tim st.aid (indicateTim st) })

/-- `recalc_tim_gen_beacon`. -/
def recalcTimGenBeacon (s : ApInfo cfg) (i : StaIdx cfg) : ApInfo cfg := (staInfoRecalcTim s i).2

/-! ## Transmit path -/

/-- `ssv6xxx_data_prepare_tx_data`: the descriptor of a frame. -/
def dataPrepareTxData (s : ApInfo cfg) (f : TxFrame) (bAPFrame pollFlag : Bool) : TxDesp cfg where
  frame := { f with psFrame := false }
  sta := findStaByAddr s f.da
  priority := f.priority
  unicast := !isMulticast f.da
  data := f.isData
  nativeAp := bAPFrame
  pollResponse := pollFlag || f.psFrame
  jiffies := 0

/-- `ssv6xxx_data_check_authed`. -/
def dataCheckAuthed (s : ApInfo cfg) (t : TxDesp cfg) : TxResult :=
  let bAuthed := match t.sta with
    | some i => (s.sta i).authorized
    | none => false
  if t.unicast then
    if t.nativeAp then .continue
    else if !bAuthed && t.data then .drop
    else .continue
  else if t.data && s.numStaAuthorized == 0 then .drop
  else .continue

/-- `ssv6xxx_data_need_queue`; `psBuf` stands for `tx_h_unicast_ps_buf`, and multicast frames are
never queued. -/
def dataNeedQueue (psBuf : ApInfo cfg → DespIdx cfg → TxDesp cfg → TxResult × ApInfo cfg)
    (s : ApInfo cfg) (d : DespIdx cfg) (t : TxDesp cfg) : TxResult × ApInfo cfg :=
  if t.pollResponse || t.nativeAp then (.continue, s)
  else if t.unicast then psBuf s d t
  else (.continue, s)

/-- The handlers of `ssv6xxx_data_could_be_send`, on a descriptor of their own. -/
def callTxHandlers (psBuf : ApInfo cfg → DespIdx cfg → TxDesp cfg → TxResult × ApInfo cfg)
    (s : ApInfo cfg) (f : TxFrame) (bAPFrame pollFlag : Bool) : TxResult × ApInfo cfg :=
  match apGetTxDesp s with
  | none => (.drop, { s with assertFailed := true })
  | some d =>
    let t := dataPrepareTxData s f bAPFrame pollFlag
    let s := { s with txDesp := Function.update s.txDesp d (some t) }
    match dataCheckAuthed s t with
    | .continue =>
      match dataNeedQueue psBuf s d t with
      | (.queued, s) => (.queued, s)
      | (r, s) => (r, apReleaseTxDesp s d)
    | r => (r, apReleaseTxDesp s d)

/-- A test of a frame is remembered. -/
def ApInfo.logTest (s : ApInfo cfg) (t : TxTest cfg) : ApInfo cfg :=
  { s with drv := { s.drv with tests := s.drv.tests ++ [t] } }

/-- `ssv6xxx_data_could_be_send`. -/
def dataCouldBeSend (psBuf : ApInfo cfg → DespIdx cfg → TxDesp cfg → TxResult × ApInfo cfg)
    (s : ApInfo cfg) (f : TxFrame) (bAPFrame pollFlag : Bool) : TxResult × ApInfo cfg :=
  let r := callTxHandlers psBuf s f bAPFrame pollFlag
  (r.1, r.2.logTest { frame := f, bAPFrame, result := r.1, sta := s.sta })

/-- A frame with the mark of a buffered one never reaches the queues. -/
theorem dataCouldBeSend_psFrame (psBuf psBuf' : ApInfo cfg → DespIdx cfg → TxDesp cfg →
    TxResult × ApInfo cfg) (s : ApInfo cfg) {f : TxFrame} (h : f.psFrame = true) (bAPFrame : Bool) :
    dataCouldBeSend psBuf s f bAPFrame false = dataCouldBeSend psBuf' s f bAPFrame false := by
  simp only [dataCouldBeSend, callTxHandlers, dataNeedQueue, dataPrepareTxData, h, Bool.or_true,
    Bool.true_or, if_true]

/-- The handler for frames that are never queued. -/
def neverQueued (s : ApInfo cfg) (_ : DespIdx cfg) (_ : TxDesp cfg) : TxResult × ApInfo cfg :=
  (.continue, s)

/-- `ap_send_buffered_frame`: mark the frame, send it, release its descriptor. What happens to the
frame behind `ssv6xxx_data_could_be_send` does not concern the access point's state. -/
def apSendBufferedFrame (s : ApInfo cfg) (d : DespIdx cfg) : ApInfo cfg :=
  let s := match s.txDesp d with
    | some t => (dataCouldBeSend neverQueued s { t.frame with psFrame := true } false false).2
    | none => s
  apReleaseTxDesp s d

/-- `ieee80211_send_null_response`: a frame that is sent at once, whatever its priority. -/
def sendNullResponse (s : ApInfo cfg) (i : StaIdx cfg) : ApInfo cfg :=
  let f : TxFrame :=
    { da := (s.sta i).addr, isData := true, priority := noQosPriority, psFrame := false }
  (dataCouldBeSend neverQueued s f true true).2

/-! ## Delivery -/

/-- `enum frame_release_type`. -/
inductive ReleaseType
  | pspoll | uapsd
deriving DecidableEq, Repr

/-- The inner loop of `ieee80211_sta_ps_deliver_response`: take up to `n` frames of one queue. -/
def takeFrames (i : StaIdx cfg) (ac : Ac) : ℕ → ApInfo cfg → List (DespIdx cfg) × ApInfo cfg
  | 0, s => ([], s)
  | n + 1, s =>
    match listQDeq s i ac with
    | (some d, s) =>
      let r := takeFrames i ac n (s.subTotal 1)
      (d :: r.1, r.2)
    | (none, s) => ([], s)

/-- The outer loop: queue after queue, until one keeps frames. -/
def collectFrames (i : StaIdx cfg) (ignored : ℕ) :
    List Ac → ℕ → ApInfo cfg → List (DespIdx cfg) × ApInfo cfg
  | [], _, s => ([], s)
  | ac :: acs, n, s =>
    if ignored.testBit ac then collectFrames i ignored acs n s
    else
      let r := takeFrames i ac n s
      if ((r.2.sta i).psTxBuf ac).isEmpty then
        let r' := collectFrames i ignored acs (n - r.1.length) r.2
        (r.1 ++ r'.1, r'.2)
      else r

/-- One frame of the last loop: it is sent, and a polled frame is one more for the firmware. -/
def deliverFrame (i : StaIdx cfg) (reason : ReleaseType) (s : ApInfo cfg) (d : DespIdx cfg) :
    ApInfo cfg :=
  (apSendBufferedFrame s d).modSta i fun st =>
    { st with fwQLen := if 0 ≤ st.fwQLen ∧ reason = .pspoll then st.fwQLen + 1 else st.fwQLen }

/-- `ieee80211_sta_ps_deliver_response`. -/
def staPsDeliverResponse (s : ApInfo cfg) (i : StaIdx cfg) (nFrames ignored : ℕ)
    (reason : ReleaseType) : ApInfo cfg :=
  let s := if reason = .uapsd then s.modSta i fun st => { st with sp := true } else s
  let r := collectFrames i ignored (List.finRange 4) nFrames s
  let s := r.2
  let s :=
    if r.1 = [] then
      if (s.sta i).fwQLen < 0 ∧ (s.sta i).fwQLen ≠ unknownFwQLen then sendNullResponse s i else s
    else r.1.foldl (deliverFrame i reason) s
  (recalcTimGenBeacon s i).modSta i fun st => { st with sp := false }

/-- `sta_ps_deliver_poll_response`. -/
def staPsDeliverPollResponse (s : ApInfo cfg) (i : StaIdx cfg) : ApInfo cfg :=
  staPsDeliverResponse s i 1 (ignoredAcs (s.sta i).uapsdQueues) .pspoll

/-- `sta_ps_deliver_uapsd`. -/
def staPsDeliverUapsd (s : ApInfo cfg) (i : StaIdx cfg) : ApInfo cfg :=
  let st := s.sta i
  if st.uapsdQueues = 0 then s
  else
    let nFrames := match st.maxSp with
      | 1 => 2
      | 2 => 4
      | 3 => 6
      | 0 => 8
      | n => n
    staPsDeliverResponse s i nFrames (255 - st.uapsdQueues) .uapsd

/-- One queue of `sta_ps_deliver_wakeup`; the loop runs once for each frame and the frames are
counted. -/
def wakeupAc (i : StaIdx cfg) (ac : Ac) : ℕ → ApInfo cfg × ℕ → ApInfo cfg × ℕ
  | 0, r => r
  | n + 1, (s, buffered) =>
    match listQDeq s i ac with
    | (some d, s) => wakeupAc i ac n (apSendBufferedFrame s d, buffered + 1)
    | (none, s) => (s, buffered)

/-- `sta_ps_deliver_wakeup`. -/
def staPsDeliverWakeup (s : ApInfo cfg) (i : StaIdx cfg) : ApInfo cfg :=
  let r := (List.finRange 4).foldl
    (fun r ac => wakeupAc i ac ((r.1.sta i).psTxBuf ac).length r) (s, 0)
  let s := r.1.modSta i fun st => { st with sp := false, psSta := false }
  let s := (s.subTotal r.2).modSta i fun st => { st with fwQLen := unknownFwQLen }
  recalcTimGenBeacon s i

/-! ## Queueing -/

/-- Make room for one more frame: of all stations when the pool is full, of this queue when it
is. -/
def makeRoom (s : ApInfo cfg) (i : StaIdx cfg) (ac : Ac) : ApInfo cfg :=
  let s := if cfg.poolSize ≤ s.totalPsBuffered then purgeOldPsBuffers s else s
  if staMaxTxBuffer ≤ ((s.sta i).psTxBuf ac).length then
    match listQDeq s i ac with
    | (some old, s) => apReleaseTxDesp s old
    | (none, s) => s
  else s.incTotal

/-- The rest of `tx_h_unicast_ps_buf`: a frame is queued, and if the station's bit of the TIM
changes one frame goes to the firmware at once. -/
def queueFrame (now : ℕ) (s : ApInfo cfg) (i : StaIdx cfg) (ac : Ac) (d : DespIdx cfg)
    (t : TxDesp cfg) : ApInfo cfg :=
  let s := makeRoom s i ac
  let s := { s with txDesp := Function.update s.txDesp d (some { t with jiffies := now }) }
  let s := (listQQtail s i ac d).modSta i fun st =>
    { st with fwQLen := if st.fwQLen = unknownFwQLen then 1 else st.fwQLen + 1 }
  if cfg.timAllOne then s
  else
    let r := staInfoRecalcTim s i
    if r.1 then staPsDeliverPollResponse r.2 i else r.2

/-- `tx_h_unicast_ps_buf`. -/
def txHUnicastPsBuf (now : ℕ) (s : ApInfo cfg) (d : DespIdx cfg) (t : TxDesp cfg) :
    TxResult × ApInfo cfg :=
  match t.sta with
  | none => (.continue, s)
  | some i =>
    let ac := upToAc t.priority
    if ((s.sta i).psSta || !((s.sta i).psTxBuf ac).isEmpty) && !t.nativeAp then
      (.queued, queueFrame now s i ac d t)
    else (.continue, s)

/-! ## Expiry -/

/-- `time_after` on 32-bit clocks: the difference is taken as a signed number. -/
def timeAfter (a b : ℕ) : Bool :=
  decide (2147483648 ≤ (b + 4294967296 - a % 4294967296) % 4294967296)

/-- `sta_info_buffer_expired`. -/
def staInfoBufferExpired (now : ℕ) (st : Station cfg) (t : TxDesp cfg) : Bool :=
  let timeout := st.listenInterval * cfg.bcnInterval * 32 / 15625 * 1000
  timeAfter now (t.jiffies + max timeout staTxBufferExpire)

/-- The loop of `sta_info_cleanup_expire_buffered_ac`: it ends at the first frame that is not too
old. -/
def expireAc (now : ℕ) (i : StaIdx cfg) (ac : Ac) : ℕ → ApInfo cfg → ApInfo cfg
  | 0, s => s
  | n + 1, s =>
    match (s.sta i).psTxBuf ac with
    | [] => s
    | d :: _ =>
      if (s.txDesp d).elim false (staInfoBufferExpired now (s.sta i)) then
        expireAc now i ac n (dropDesp (listQDeq s i ac).2 d)
      else s

/-- `sta_info_cleanup_expire_buffered`. -/
def cleanupExpireBuffered (now : ℕ) (s : ApInfo cfg) (i : StaIdx cfg) : ApInfo cfg :=
  (List.finRange 4).foldl
    (fun s ac => recalcTimGenBeacon (expireAc now i ac ((s.sta i).psTxBuf ac).length s) i) s

/-- `sta_info_cleanup`. -/
def staInfoCleanup (now : ℕ) (s : ApInfo cfg) : ApInfo cfg :=
  (List.finRange cfg.maxAid).foldl
    (fun s i => if (s.sta i).valid then cleanupExpireBuffered now s i else s) s

/-! ## Received frames -/

/-- `struct ap_rx_desp`: the station and the flags of a received frame. -/
structure RxDesp (cfg : ApCfg) where
  sta : StaIdx cfg
  psPoll : Bool
  nullData : Bool
  data : Bool
  pm : Bool
  qos : Bool
  up : ℕ

/-- The access category of the frame. -/
def RxDesp.ac (rx : RxDesp cfg) : Ac := upToAc (Fin.ofNat 8 rx.up)

/-- `ap_sta_ps_start`. -/
def apStaPsStart (s : ApInfo cfg) (i : StaIdx cfg) : ApInfo cfg :=
  { s with numStaPs := inc8 s.numStaPs }.modSta i fun st => { st with psSta := true }

/-- `ap_sta_ps_end`. -/
def apStaPsEnd (s : ApInfo cfg) (i : StaIdx cfg) : ApInfo cfg :=
  if s.numStaPs ≠ 0 then staPsDeliverWakeup { s with numStaPs := dec8 s.numStaPs } i else s

/-- `rx_h_uapsd_and_pspoll`; the first component says whether the handlers go on. The two tests of
the source for a trigger frame ask for any of the bits, not for all. -/
def rxHUapsdAndPspoll (s : ApInfo cfg) (rx : RxDesp cfg) : Bool × ApInfo cfg :=
  let st := s.sta rx.sta
  if !st.psSta then (true, s)
  else if rx.psPoll then (false, staPsDeliverPollResponse s rx.sta)
  else if rx.pm && ((rx.qos || rx.data) || (rx.qos || rx.nullData)) then
    let ac := upToAc (Fin.ofNat 8 rx.up)
    if !st.uapsdQueues.testBit ac then (true, s)
    else if st.sp then (true, s)
    else (true, staPsDeliverUapsd s rx.sta)
  else (true, s)

/-- `rx_h_sta_process`. -/
def rxHStaProcess (s : ApInfo cfg) (rx : RxDesp cfg) : ApInfo cfg :=
  let st := s.sta rx.sta
  if st.psSta then
    if (rx.data || rx.nullData) && !rx.pm then apStaPsEnd s rx.sta else s
  else if rx.pm then
    let s := apStaPsStart s rx.sta
    if 0 < st.fwQLen then recalcTimGenBeacon s rx.sta else s
  else s

/-- `ssv6xxx_data_need_to_be_received`: the handlers in turn, for an associated station. -/
def dataNeedToBeReceived (s : ApInfo cfg) (rx : RxDesp cfg) : ApInfo cfg :=
  if (s.sta rx.sta).assoc then
    match rxHUapsdAndPspoll s rx with
    | (true, s) => rxHStaProcess s rx
    | (false, s) => s
  else s

/-! ## Hardware, timers and sessions -/

/-- `ssv6006_hal_get_ava_wsid`, one pass: the first entry from `initId` on that is not in use, or
`SSV_MAX_WSID`. -/
def avaWsidFrom (used : ℕ → Bool) (initId : ℕ) : ℕ :=
  ((List.range' initId (ssvMaxWsid - initId)).find? fun i => !used i).getD ssvMaxWsid

/-- `ssv6006_hal_get_ava_wsid`. -/
def halGetAvaWsid (used : ℕ → Bool) (initId : ℕ) : ℕ :=
  let i := avaWsidFrom used initId
  if initId ≠ 0 ∧ i = ssvMaxWsid then avaWsidFrom used 0 else i

/-- `ap_soc_cmd_sta_oper`: `CFG_STA_ADD` and `CFG_STA_DEL` are sent for a number below `gMaxAID`. -/
def apSocCmdStaOper (s : ApInfo cfg) (i : StaIdx cfg) (add : Bool) : ApInfo cfg :=
  let w := (s.sta i).wsidIdx
  if w < cfg.maxAid then
    { s with drv := { s.drv with wsid := Function.update s.drv.wsid w add } }
  else s

/-- `os_create_timer` for `ap_handle_timer`. -/
def createStaTimer (s : ApInfo cfg) (i : StaIdx cfg) : ApInfo cfg :=
  { s with drv :=
    { s.drv with staTimer := Function.update s.drv.staTimer i (s.drv.staTimer i + 1) } }

/-- One pending timer of a station ends: it fires, or `os_cancel_timer` takes it out. -/
def endStaTimer (s : ApInfo cfg) (i : StaIdx cfg) : ApInfo cfg :=
  { s with drv :=
    { s.drv with staTimer := Function.update s.drv.staTimer i (s.drv.staTimer i - 1) } }

/-- The block-ack sessions of a station end in `APStaInfo_free`, and the timer that releases frames
of sessions is cancelled. Where the frames of the sessions go does not concern the access point. -/
def endSessions (s : ApInfo cfg) (i : StaIdx cfg) : ApInfo cfg :=
  if cfg.ampduRxEnable then
    { s with drv :=
      { s.drv with
        sessions :=
          (Rx.deleteAmpduRx cfg.host Rx.Env.ap s.drv.sessions ((s.sta i).wsidIdx % 256)).1
        reorderTimer := s.drv.reorderTimer - 1 } }
  else s

/-! ## Removal from the driver -/

/-- The first part of `APStaInfo_DrvRemove`: a sleeping station loses its frames. -/
def drvRemovePs (s : ApInfo cfg) (i : StaIdx cfg) : ApInfo cfg :=
  if (s.sta i).psSta then
    let s := s.modSta i fun st => { st with psSta := false }
    let s := purgeStaPsBuffers { s with numStaPs := dec8 s.numStaPs } i
    recalcTimGenBeacon (s.modSta i fun st => { st with fwQLen := unknownFwQLen }) i
  else s

/-- The second part: the hardware forgets the station, and the station its number. -/
def drvDetach (s : ApInfo cfg) (i : StaIdx cfg) : ApInfo cfg :=
  (apSocCmdStaOper s i false).modSta i fun st => { st with wsidIdx := cfg.maxAid }

/-- `APStaInfo_DrvRemove`. -/
def drvRemove (s : ApInfo cfg) (i : StaIdx cfg) : ApInfo cfg := drvDetach (drvRemovePs s i) i

end Fullmac.Ap
