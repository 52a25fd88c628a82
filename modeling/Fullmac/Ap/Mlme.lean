import Fullmac.Ap.Model
import Fullmac.Lib.Machine

/-!
# Stations come and go

The part of `ap_sta_info.c` and `ap_mlme.c` that fills and clears the station table: a request is
authenticated (`mlmeRxAuth`), which takes a slot of the table (`apStaInfoAdd`), then associated
(`handleAssoc`), which takes an AID; `apStaInfoFree` gives both back. A station that is silent for
long is asked, disassociated and freed by its timer (`apHandleTimer`) or to make room for another
one (`removeSilent`).

`apStep` puts this together with the handling of frames: one `ApEvent` is one request, one frame,
one timer, or one call from the WPA state machine. What the source computes outside the station
table is part of the event: the parsed elements of a request, the verdict on its RSN element, the
clock. A call of the WPA state machine from inside a handler comes last in it, or just before the
station is freed anyhow; it is an event of its own.
-/

namespace Fullmac.Ap

variable {cfg : ApCfg}

/-! ## Slots, AIDs and counters -/

/-- A counted bit of a station is set. -/
def setCounted (s : ApInfo cfg) (i : StaIdx cfg) (c : Counted) : ApInfo cfg :=
  if (s.sta i).counted c then s
  else
    { s with num := Function.update s.num c (inc8 (s.num c)) }.modSta i fun st =>
      { st with counted := Function.update st.counted c true }

/-- A counted bit of a station is cleared. -/
def clearCounted (s : ApInfo cfg) (i : StaIdx cfg) (c : Counted) : ApInfo cfg :=
  if (s.sta i).counted c then
    { s with num := Function.update s.num c (dec8 (s.num c))
             underflow := s.underflow || s.num c == 0 }.modSta i fun st =>
      { st with counted := Function.update st.counted c false }
  else s

/-- `ap_sta_set_authorized`. -/
def apStaSetAuthorized (s : ApInfo cfg) (i : StaIdx cfg) (authorized : Bool) : ApInfo cfg :=
  if authorized = (s.sta i).authorized then s
  else if authorized then
    { s with numStaAuthorized := inc8 s.numStaAuthorized }.modSta i fun st =>
      { st with authorized := true }
  else
    { s with numStaAuthorized := dec8 s.numStaAuthorized
             underflow := s.underflow || s.numStaAuthorized == 0 }.modSta i fun st =>
      { st with authorized := false }

/-- `change_sta_disassoc_to_deauth`. -/
def changeStaDisassocToDeauth (s : ApInfo cfg) (i : StaIdx cfg) (timerCreat : Bool) :
    ApInfo cfg :=
  let s := apStaSetAuthorized s i false
  let s := drvRemove (s.modSta i fun st => { st with assoc := false }) i
  if timerCreat ∧ ((s.sta i).timeoutNext = .nullfunc ∨ (s.sta i).timeoutNext = .disassoc) then
    createStaTimer (endStaTimer (s.modSta i fun st => { st with timeoutNext := .deauth }) i) i
  else s

/-- The AID of a station is given back in `APStaInfo_free`. -/
def releaseAid (s : ApInfo cfg) (aid : ℕ) : ApInfo cfg :=
  if 0 < aid then { s with staAid := Function.update s.staAid (aid - 1) false } else s

/-- `num_sta` goes down in `APStaInfo_free`, if it makes sense. -/
def decNumSta (s : ApInfo cfg) : ApInfo cfg :=
  if 0 < s.numSta ∧ s.numSta ≤ cfg.maxAid then { s with numSta := dec8 s.numSta } else s

/-- The counted bits, in the order of `APStaInfo_free`. -/
def countedBits : List Counted :=
  [.nonErp, .noShortSlotTime, .noShortPreamble, .noHtGf, .noHt, .ht20mhz]

/-- `APStaInfo_free`. -/
def apStaInfoFree (s : ApInfo cfg) (i : StaIdx cfg) : ApInfo cfg :=
  if !(s.sta i).valid then s
  else
    let s := endSessions (s.modSta i fun st => { st with valid := false }) i
    let s := drvRemove (apStaSetAuthorized s i false) i
    let s := decNumSta (releaseAid s (s.sta i).aid)
    let s := countedBits.foldl (fun s c => clearCounted s i c) s
    (endStaTimer s i).modSta i fun _ => resetStation

/-- `hostapd_get_aid`; `none` is the return value `-1`. The table has one word of AIDs. -/
def hostapdGetAid (s : ApInfo cfg) (i : StaIdx cfg) : Option (ApInfo cfg) :=
  if 0 < (s.sta i).aid then some s
  else
    match (List.range 32).find? fun j => !s.staAid j with
    | none => none
    | some j =>
      some ({ s with staAid := Function.update s.staAid j true }.modSta i fun st =>
        { st with aid := j + 1 })

/-- A management frame of the access point goes through the transmit path. -/
def sendMgmtFrame (s : ApInfo cfg) (da : EtherAddr) : ApInfo cfg :=
  let f : TxFrame := { da, isData := false, priority := noQosPriority, psFrame := false }
  (dataCouldBeSend neverQueued s f true false).2

/-- `STA_TIMEOUT_RETRY_COUNT`. -/
def staTimeoutRetryCount : ℕ := 5

/-- A station that does not answer is removed, with a deauthentication frame. -/
def removeSilent (s : ApInfo cfg) (i : StaIdx cfg) : ApInfo cfg :=
  let s := (changeStaDisassocToDeauth s i false).modSta i fun st =>
    { st with timeoutNext := .deauth }
  let s := endStaTimer s i
  apStaInfoFree (sendMgmtFrame s (s.sta i).addr) i

/-- The loop of `APStaInfo_add` that looks for the station that has been asked most often without an
answer. -/
def mostSilent (s : ApInfo cfg) : Option (StaIdx cfg) :=
  ((List.finRange cfg.maxAid).foldl
    (fun r i =>
      let n := (s.sta i).arpRetryCount
      if r.2 < n ∧ staTimeoutRetryCount < n then (some i, n) else r)
    ((none : Option (StaIdx cfg)), 0)).1

/-- `APStaInfo_add` makes room for a new station: the station in slot 0 is removed if it is silent,
and when the table is full the most silent one is. -/
def evictSilent (s : ApInfo cfg) : ApInfo cfg :=
  let first : StaIdx cfg := ⟨0, cfg.maxAid_pos⟩
  let s := if staTimeoutRetryCount < (s.sta first).arpRetryCount then removeSilent s first else s
  if cfg.maxAid ≤ s.numSta then
    match mostSilent s with
    | some i => removeSilent s i
    | none => s
  else s

/-- `APStaInfo_GetNewSta`: the first free slot. -/
def getNewSta (s : ApInfo cfg) : Option (StaIdx cfg) :=
  (List.finRange cfg.maxAid).find? fun i => !(s.sta i).valid

/-- The number that `APStaInfo_GetNewSta` gives the station of a slot. -/
def newWsid (s : ApInfo cfg) (i : StaIdx cfg) : ℕ :=
  if 1 < cfg.maxVifNum then halGetAvaWsid s.drv.wsid 1 else i

/-- A new station takes a free slot: the rest of `APStaInfo_GetNewSta`, and what `APStaInfo_add`
does with the slot. -/
def takeSlot (s : ApInfo cfg) (i : StaIdx cfg) (addr : EtherAddr) : ApInfo cfg :=
  let w := newWsid s i
  let s := createStaTimer s i
  { s with numSta := inc8 s.numSta
           drv := { s.drv with given := Function.update s.drv.given i w } }.modSta i fun st =>
    { st with valid := true, wsidIdx := w, addr := addr }

/-- `APStaInfo_add`. -/
def apStaInfoAdd (s : ApInfo cfg) (addr : EtherAddr) : Option (StaIdx cfg) × ApInfo cfg :=
  match findStaByAddr s addr with
  | some i => (some i, s)
  | none =>
    let s := evictSilent s
    match getNewSta s with
    | none => (none, s)
    | some i => (some i, takeSlot s i addr)

/-! ## Requests -/

/-- The status codes of the replies. -/
inductive Status
  | success | micFailure | listenIntTooLarge | unspecifiedFailure | invalidIe | invalidGroupCipher
  | invalidPairwiseCipher | invalidAkmp | invalidMdie | unableToHandleNewSta | notSupportedAuthAlg
  | unknownAuthTransaction | challengeFail
deriving DecidableEq, Repr

/-- What the access point answers. -/
inductive Reply
  | auth (sa : EtherAddr) (status : Status)
  | assoc (da : EtherAddr) (aid : ℕ) (reassoc : Bool) (status : Status)

/-- An authentication frame, with what the source finds outside it. -/
structure AuthReq where
  /-- The frame is not too short. -/
  longEnough : Bool
  sa : EtherAddr
  authAlg : ℕ
  transaction : ℕ
  isWep : Bool
  challenge : Option (List UInt8)
  /-- `tkip_countermeasures`. -/
  tkipCountermeasures : Bool
  /-- What `MALLOC` and `rc4_skip` make of a new challenge. -/
  newChallenge : Option (List UInt8)

/-- `auth_shared_key`. -/
def authSharedKey (st : Station cfg) (r : AuthReq) : Status × Station cfg :=
  if r.transaction = 1 then
    match st.challenge, r.newChallenge with
    | some _, _ => (.success, st)
    | none, some c => (.success, { st with challenge := some c })
    | none, none => (.unspecifiedFailure, st)
  else if r.transaction ≠ 3 then (.unspecifiedFailure, st)
  else if !r.isWep || st.challenge.isNone || r.challenge.isNone || st.challenge ≠ r.challenge then
    (.challengeFail, st)
  else (.success, { st with auth := true, challenge := none })

/-- The checks of `ap_mlme_rx_auth` before a station is looked up. -/
def authStatus (cfg : ApCfg) (r : AuthReq) : Status :=
  if r.tkipCountermeasures then .micFailure
  else if !((cfg.authOpen && r.authAlg == 0) || (cfg.authShared && r.authAlg == 1)) then
    .notSupportedAuthAlg
  else if !(r.transaction == 1 || (r.authAlg == 1 && r.transaction == 3)) then
    .unknownAuthTransaction
  else if r.sa = cfg.ownAddr then .unspecifiedFailure
  else .success

/-- The `switch` of `ap_mlme_rx_auth`. -/
def authenticate (st : Station cfg) (r : AuthReq) : Status × Station cfg :=
  if r.authAlg = 0 then (.success, { st with auth := true }) else authSharedKey st r

/-- `ap_mlme_rx_auth`. -/
def mlmeRxAuth (s : ApInfo cfg) (r : AuthReq) : ApInfo cfg × List Reply :=
  if !r.longEnough then (s, [])
  else if authStatus cfg r ≠ .success then
    (sendMgmtFrame s r.sa, [.auth r.sa (authStatus cfg r)])
  else
    match apStaInfoAdd s r.sa with
    | (none, s) => (sendMgmtFrame s r.sa, [.auth r.sa .unableToHandleNewSta])
    | (some i, s) =>
      let a := authenticate (s.sta i) r
      let s := s.modSta i fun _ => a.2
      let s := if a.1 = .success then s else apStaInfoFree s i
      (sendMgmtFrame s r.sa, [.auth r.sa a.1])

/-- The elements of an association request that are looked at. -/
structure Elems where
  ssid : Option (List UInt8)
  /-- `qos_info` of the WMM element. -/
  wmm : Option ℕ
  suppRates : Option (List UInt8)
  extSuppRates : Option (List UInt8)
  /-- `ht_capabilities_info`. -/
  htCapab : Option ℕ
  /-- What `wpa_validate_wpa_ie` says of the RSN or WPA element that the configuration asks for. -/
  rsn : Option Status

/-- An association or reassociation request; `elems` is `none` when the elements cannot be
parsed. -/
structure AssocReq where
  longEnough : Bool
  sa : EtherAddr
  reassoc : Bool
  capabInfo : ℕ
  listenInterval : ℕ
  elems : Option Elems
  tkipCountermeasures : Bool

/-- `check_wmm`. -/
def checkWmm (st : Station cfg) (wmm : Option ℕ) : Station cfg :=
  match wmm with
  | none => { st with wmm := false, uapsdQueues := 0, maxSp := 0 }
  | some qosInfo => { st with wmm := true, uapsdQueues := qosInfo % 16, maxSp := qosInfo / 32 % 4 }

/-- `copy_supp_rates`. -/
def copySuppRates (st : Station cfg) (e : Elems) : Status × Station cfg :=
  match e.suppRates with
  | none => (.unspecifiedFailure, st)
  | some rates =>
    if 32 < rates.length then (.unspecifiedFailure, st)
    else
      match e.extSuppRates with
      | none => (.success, { st with supportedRates := rates })
      | some ext =>
        if 32 < rates.length + ext.length then
          (.unspecifiedFailure, { st with supportedRates := rates })
        else (.success, { st with supportedRates := rates ++ ext })

/-- `copy_sta_ht_capab`. -/
def copyStaHtCapab (st : Station cfg) (htCapab : Option ℕ) : Station cfg :=
  match htCapab with
  | none => { st with ht := false, htCapab := 0 }
  | some h =>
    if !st.wmm || cfg.disable11n then { st with ht := false, htCapab := 0 }
    else { st with ht := true, htCapab := h }

/-- `check_assoc_ies`. -/
def checkAssocIes (st : Station cfg) (elems : Option Elems) : Status × Station cfg :=
  match elems with
  | none => (.unspecifiedFailure, st)
  | some e =>
    if e.ssid ≠ some cfg.ssid then (.unspecifiedFailure, st)
    else
      let r := copySuppRates (checkWmm st e.wmm) e
      if r.1 ≠ .success then r
      else
        let st := copyStaHtCapab r.2 e.htCapab
        if cfg.wpa then (e.rsn.getD .invalidIe, st) else (.success, st)

/-- `AP_MAX_LISTEN_INTERVAL`. -/
def maxListenInterval : ℕ := 65534

/-- `update_ht_state`. -/
def updateHtState (s : ApInfo cfg) (i : StaIdx cfg) : ApInfo cfg :=
  if (s.sta i).ht then
    let s := if (s.sta i).htCapab.testBit 4 then s else setCounted s i .noHtGf
    if (s.sta i).htCapab.testBit 1 then s else setCounted s i .ht20mhz
  else setCounted s i .noHt

/-- What `handle_assoc` records of a station that is accepted: capabilities, counted bits, flags. -/
def recordAssoc (s : ApInfo cfg) (i : StaIdx cfg) (r : AssocReq) : ApInfo cfg :=
  let fast := (s.sta i).supportedRates.any fun rate => decide (22 < rate.toNat % 128)
  let s := s.modSta i fun st =>
    { st with capability := r.capabInfo
              listenInterval := r.listenInterval
              nonerp := (cfg.modeG || st.nonerp) && !fast }
  let s := if cfg.erp && (s.sta i).nonerp then setCounted s i .nonErp else s
  let s := if r.capabInfo.testBit 10 then s else setCounted s i .noShortSlotTime
  let s := s.modSta i fun st => { st with shortPreamble := r.capabInfo.testBit 5 }
  let s := if r.capabInfo.testBit 5 then s else setCounted s i .noShortPreamble
  let s := (updateHtState s i).modSta i fun st => { st with assoc := true }
  let s := if cfg.keyMgmtPsk then s else apStaSetAuthorized s i true
  s.modSta i fun st => { st with timeoutNext := .nullfunc }

/-- `handle_assoc` between the lookup and the label `fail`. The hardware learns of a station that is
accepted. -/
def tryAssoc (s : ApInfo cfg) (i : StaIdx cfg) (r : AssocReq) : Status × ApInfo cfg :=
  if r.tkipCountermeasures then (.micFailure, s)
  else if maxListenInterval < r.listenInterval then (.listenIntTooLarge, s)
  else
    let c := checkAssocIes (s.sta i) r.elems
    let s := s.modSta i fun _ => c.2
    if c.1 ≠ .success then (c.1, s)
    else
      match hostapdGetAid s i with
      | none => (.unableToHandleNewSta, s)
      | some s => (.success, apSocCmdStaOper (recordAssoc s i r) i true)

/-- `handle_assoc`. A station that is not authenticated gets a deauthentication frame, one that is
refused is freed. -/
def handleAssoc (s : ApInfo cfg) (r : AssocReq) : ApInfo cfg × List Reply :=
  let notAuthed := if isValidEtherAddr r.sa then sendMgmtFrame s r.sa else s
  if !r.longEnough then (s, [])
  else
    match findStaByAddr s r.sa with
    | none => (notAuthed, [])
    | some i =>
      if !(s.sta i).auth then (notAuthed, [])
      else
        let t := tryAssoc s i r
        let s := if t.1 = .success then t.2 else apStaInfoFree t.2 i
        let st := s.sta i
        (sendMgmtFrame s st.addr, [.assoc st.addr st.aid r.reassoc t.1])

/-- `ap_mlme_rx_disassoc`. -/
def mlmeRxDisassoc (s : ApInfo cfg) (sa : EtherAddr) : ApInfo cfg :=
  match findStaByAddr s sa with
  | none => s
  | some i => apStaInfoFree (changeStaDisassocToDeauth s i true) i

/-- `ap_mlme_rx_deauth`. -/
def mlmeRxDeauth (s : ApInfo cfg) (sa : EtherAddr) : ApInfo cfg :=
  match findStaByAddr s sa with
  | none => s
  | some i =>
    let s := (apStaSetAuthorized s i false).modSta i fun st =>
      { st with auth := false, assoc := false }
    apStaInfoFree s i

/-! ## Timer -/

/-- The part of `ap_handle_timer` that forgives a station: it was active `inactive` milliseconds
ago, or it has answered. The first component is `next_time ≠ 0`. -/
def timerForgives (st : Station cfg) (inactive : ℤ) : Bool × Station cfg :=
  let waiting := st.timeoutNext = .nullfunc ∨ st.timeoutNext = .disassoc
  let active := st.assoc ∧ waiting ∧ inactive < cfg.maxInactivity
  let st' := if active then { st with timeoutNext := .nullfunc } else st
  if st'.assoc ∧ st'.timeoutNext = .disassoc ∧ ¬ st'.pendingPoll then
    (decide (cfg.maxInactivity ≠ 0), { st' with timeoutNext := .nullfunc })
  else (decide active, st')

/-- The rest of `ap_handle_timer`: ask, disassociate, deauthenticate. -/
def timerEscalates (s : ApInfo cfg) (i : StaIdx cfg) : ApInfo cfg :=
  let st := s.sta i
  if st.timeoutNext = .nullfunc ∧ st.assoc then
    let s := s.modSta i fun st =>
      { st with pendingPoll := true
                arpRetryCount :=
                  if st.arpRetryCount ≤ staTimeoutRetryCount then st.arpRetryCount + 1
                  else st.arpRetryCount }
    createStaTimer s i
  else
    let s := sendMgmtFrame s st.addr
    match st.timeoutNext with
    | .nullfunc => createStaTimer (s.modSta i fun st => { st with timeoutNext := .disassoc }) i
    | .disassoc =>
      let s := changeStaDisassocToDeauth s i false
      createStaTimer (s.modSta i fun st => { st with timeoutNext := .deauth }) i
    | .deauth | .remove => apStaInfoFree s i

/-- `ap_handle_timer`. The timer that fires is no longer pending. -/
def apHandleTimer (s : ApInfo cfg) (i : StaIdx cfg) (hostApiActive : Bool) (inactive : ℤ) :
    ApInfo cfg :=
  let s := endStaTimer s i
  if !(s.sta i).valid then s
  else if (s.sta i).timeoutNext = .remove then apStaInfoFree s i
  else if !hostApiActive then createStaTimer s i
  else
    let r := timerForgives (s.sta i) inactive
    let s := s.modSta i fun _ => r.2
    if r.1 then createStaTimer s i else timerEscalates s i

/-! ## Events -/

/-- The kinds of received frames that matter to sleeping stations: data (`AP_RxHandleData`), and the
firmware's reports of null data and of polls (`AP_RxHandleEvent`), which tell how many frames the
firmware holds. -/
inductive RxKind
  | data (null : Bool)
  | nullDataEvt (qLen : ℤ)
  | psPollEvt (qLen : ℤ)

/-- What happens to the access point. -/
inductive ApEvent (cfg : ApCfg)
  | auth (r : AuthReq)
  | assoc (r : AssocReq)
  | disassoc (longEnough : Bool) (sa : EtherAddr)
  | deauth (longEnough : Bool) (sa : EtherAddr)
  /-- The WPA state machine authorises a station (`PTKINITDONE`) or withdraws it. -/
  | setAuthorized (addr : EtherAddr) (authorized : Bool)
  /-- `wpa_sta_disconnect` and `send_deauth_and_remove_sta`. -/
  | disconnect (addr : EtherAddr)
  | timer (i : StaIdx cfg) (hostApiActive : Bool) (inactive : ℤ)
  | rx (sa : EtherAddr) (kind : RxKind) (pm : Bool) (up : ℕ)
  | tx (now : ℕ) (f : TxFrame) (bAPFrame pollFlag : Bool)
  | pollResponse (i : StaIdx cfg)
  | uapsd (i : StaIdx cfg)
  | cleanup (now : ℕ)
  | drvRemove (i : StaIdx cfg)
  | free (i : StaIdx cfg)

/-- A frame of a station resets its count of unanswered questions and, if it is a report, brings the
length of the firmware's queue; then the handlers see it. -/
def rxFrame (s : ApInfo cfg) (sa : EtherAddr) (kind : RxKind) (pm : Bool) (up : ℕ) : ApInfo cfg :=
  match findStaByAddr s sa with
  | none => sendMgmtFrame s sa
  | some i =>
    let s := s.modSta i fun st =>
      { st with arpRetryCount := 0
                fwQLen := match kind with
                  | .data _ => st.fwQLen
                  | .nullDataEvt qLen => if 0 < qLen then qLen else unknownFwQLen
                  | .psPollEvt qLen => qLen }
    let s := if (s.sta i).assoc then s else sendMgmtFrame s sa
    let rx : RxDesp cfg := match kind with
      | .data null =>
        { sta := i, psPoll := false, nullData := null, data := !null, pm, qos := (s.sta i).wmm, up }
      | .nullDataEvt _ =>
        { sta := i, psPoll := false, nullData := true, data := false, pm, qos := (s.sta i).wmm, up }
      | .psPollEvt _ =>
        { sta := i, psPoll := true, nullData := false, data := false, pm := false
          qos := (s.sta i).wmm, up := 0 }
    dataNeedToBeReceived s rx

/-- One event. Delivery to a station may also happen outside the handling of a frame. -/
def apStep (s : ApInfo cfg) : ApEvent cfg → ApInfo cfg × List Reply
  | .auth r => mlmeRxAuth s r
  | .assoc r => handleAssoc s r
  | .disassoc longEnough sa => (if longEnough then mlmeRxDisassoc s sa else s, [])
  | .deauth longEnough sa => (if longEnough then mlmeRxDeauth s sa else s, [])
  | .setAuthorized addr authorized =>
    (match findStaByAddr s addr with
      | some i => apStaSetAuthorized s i authorized
      | none => s, [])
  | .disconnect addr =>
    (match findStaByAddr s addr with
      | some i => removeSilent s i
      | none => s, [])
  | .timer i hostApiActive inactive => (apHandleTimer s i hostApiActive inactive, [])
  | .rx sa kind pm up => (rxFrame s sa kind pm up, [])
  | .tx now f bAPFrame pollFlag =>
    ((dataCouldBeSend (txHUnicastPsBuf now) s f bAPFrame pollFlag).2, [])
  | .pollResponse i => (staPsDeliverPollResponse s i, [])
  | .uapsd i => (staPsDeliverUapsd s i, [])
  | .cleanup now => (staInfoCleanup now s, [])
  | .drvRemove i => (drvRemove s i, [])
  | .free i => (apStaInfoFree s i, [])

end Fullmac.Ap
