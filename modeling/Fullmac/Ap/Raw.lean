import Fullmac.Ap.WpaIe

/-!
# Received frames, byte by byte

Reference: `host/ap/ap_mlme.c`, `AP_RxHandleAPMode` and the handlers of `AP_RxHandler`;
`host/ap/ieee802_11_mgmt.c`, `check_assoc_ies` and what it calls; `host/ap/ieee802_11_ht.c`,
`copy_sta_ht_capab`; `host/ap/wmm.c`, `hostapd_eid_wmm_valid`; `host/ap/neighbor_ap_list.c`,
`neighbor_ap_list_process_beacon`; `host/lib/ssv_lib.c`, `ssv6xxx_memcmp`.

The handlers of `Mlme` work on requests that are taken apart already. Here they are given the frame
as it stands in memory, and take it apart themselves; what they do with the parts is what `Mlme`
does. Each handler looks at the length in its own way: association, authentication,
disassociation, deauthentication and beacons have a smallest length, probe requests and EAPOL frames
have none, and the dispatcher has looked at the frame control and at the sender before.

A log message reads what it prints. The time of the last frame of a station (`last_rx`) and the
replies to probe requests are left out; `wpa_receive` is only called.
-/

namespace Fullmac.Ap.Raw

open Bytes (Mem slice getU16)
open Reads
open Tlv (Elem)

variable {cfg : ApCfg}

/-! ## Data -/

/-- A received frame: where it stands, with whatever is behind it, and how long it is. The length
field of its descriptor has 16 bits, so that the parameter of the handlers holds it. -/
structure RxFrame where
  f80211 : Bool
  data : Mem
  len : ℕ
  len_lt : len < 65536

/-- What the handlers look at besides the frame and the stations. -/
structure RxEnv where
  tkipCountermeasures : Bool
  /-- `wpa_auth.conf`. -/
  conf : WpaAuthConfig
  /-- What `MALLOC` and `rc4_skip` make of a new challenge. -/
  newChallenge : Option (List UInt8)
  /-- `g_probe_req_cnt`. -/
  probeReqCnt : ℕ
  /-- The milliseconds since the first of the counted probe requests. -/
  probeReqTime : ℕ
  /-- The sender of a beacon is in `neighbor_ap_list`. -/
  knownAp : Bool

/-- `IEEE80211_HDRLEN`. -/
def hdrLen : ℕ := 24

/-- `mgmt->sa`. -/
def saOff : ℕ := 10

/-- `mgmt->bssid`. -/
def bssidOff : ℕ := 16

/-- The address at `off`. -/
def addrAt (m : Mem) (off : ℕ) : EtherAddr := Vector.ofFn fun i => m (off + i)

/-- Read an address. -/
def readAddr (off : ℕ) : Reads EtherAddr := fun m => (addrAt m off, touches m (readSlice off 6))

/-- The loop of `APStaInfo_FindStaByAddr`. `memcmp` of the library looks at all six bytes. -/
def findLoop (s : ApInfo cfg) (mac : ℕ) : List (StaIdx cfg) → Reads (Option (StaIdx cfg))
  | [] => pure none
  | i :: is =>
    if (s.sta i).valid then do
      let a ← readAddr mac
      if (s.sta i).addr = a then pure (some i) else findLoop s mac is
    else findLoop s mac is

/-- `APStaInfo_FindStaByAddr`. -/
def findStaByAddr (s : ApInfo cfg) (mac : ℕ) : Reads (Option (StaIdx cfg)) :=
  findLoop s mac (List.finRange cfg.maxAid)

/-! ## Elements of an association request -/

/-- `ieee802_11_print_ssid`, into a buffer of `IEEE80211_MAX_SSID_LEN + 1` bytes. -/
def printSsid (ssid : Elem) : Reads Unit := do
  let _ ← readSlice ssid.off (min ssid.len 32)
  fill 33 (min ssid.len 32 + 1)

/-- The element holds the SSID that is configured. -/
def isOwnSsid (cfg : ApCfg) (ssid : Elem) : Reads Bool :=
  if ssid.len = cfg.ssid.length then memcmp ssid.off ssid.len cfg.ssid else pure false

/-- `check_ssid`. -/
def checkSsid (cfg : ApCfg) : Option Elem → Reads Status
  | none => pure .unspecifiedFailure
  | some ssid => do
    let own ← isOwnSsid cfg ssid
    if own then pure .success
    else do
      printSsid ssid
      pure .unspecifiedFailure

/-- `hostapd_eid_wmm_valid`. -/
def hostapdEidWmmValid (e : Elem) : Reads Bool :=
  if e.len < 7 then pure false
  else do
    let subtype ← read (e.off + 4)
    if subtype ≠ 0 then pure false
    else do
      let version ← read (e.off + 5)
      pure (version = 1)

/-- `check_wmm`. That an element is not valid is logged, and `qos_info` is read all the same. -/
def checkWmm (st : Station cfg) : Option Elem → Reads (Station cfg)
  | none => pure (Ap.checkWmm st none)
  | some wmm => do
    let _ ← hostapdEidWmmValid wmm
    let qosInfo ← read (wmm.off + 6)
    pure (Ap.checkWmm st (some qosInfo.toNat))

/-- The second half of `copy_supp_rates`, with `rates` copied. -/
def copyExtSuppRates (st : Station cfg) (rates : List UInt8) :
    Option Elem → Reads (Status × Station cfg)
  | none => pure (.success, { st with supportedRates := rates })
  | some ext =>
    if 32 < rates.length + ext.len then
      pure (.unspecifiedFailure, { st with supportedRates := rates })
    else do
      let extRates ← readSlice ext.off ext.len
      fill 32 (rates.length + ext.len)
      pure (.success, { st with supportedRates := rates ++ extRates })

/-- `copy_supp_rates`. -/
def copySuppRates (st : Station cfg) (elems : Elements) : Reads (Status × Station cfg) :=
  match elems .suppRates with
  | none => pure (.unspecifiedFailure, st)
  | some supp =>
    if 32 < supp.len then pure (.unspecifiedFailure, st)
    else do
      let rates ← readSlice supp.off supp.len
      fill 32 supp.len
      copyExtSuppRates st rates (elems .extSuppRates)

/-- `copy_sta_ht_capab`, which copies a `struct ieee80211_ht_capabilities`, 26 bytes, however long
the element is. The first two are `ht_capabilities_info`. -/
def copyStaHtCapab (st : Station cfg) : Option Elem → Reads (Station cfg)
  | none => pure (Ap.copyStaHtCapab st none)
  | some ht =>
    if !st.wmm || cfg.disable11n then pure (Ap.copyStaHtCapab st none)
    else do
      let htCapab ← readU16 ht.off
      let _ ← readSlice (ht.off + 2) 24
      fill 26 26
      pure (Ap.copyStaHtCapab st (some htCapab))

/-- The element that `check_assoc_ies` picks as `wpa_ie`. -/
def pickWpaIe (conf : WpaAuthConfig) (elems : Elements) : Option Elem :=
  if conf.protoRsn && (elems .rsnIe).isSome then elems .rsnIe
  else if conf.protoWpa then elems .wpaIe
  else none

/-- The end of `check_assoc_ies`; `wpa_ie` is moved back to the head of its element. -/
def checkWpaIe (conf : WpaAuthConfig) (elems : Elements) : Reads Status :=
  if conf.wpa = 0 then pure .success
  else
    match pickWpaIe conf elems with
    | none => pure .invalidIe
    | some e => wpaValidateWpaIe conf (e.off - 2) (e.len + 2)

/-- `check_assoc_ies`, behind the parser. -/
def checkElems (conf : WpaAuthConfig) (st : Station cfg) (elems : Elements) :
    Reads (Status × Station cfg) := do
  let resp ← checkSsid cfg (elems .ssid)
  if resp ≠ .success then pure (resp, st)
  else do
    let st ← checkWmm st (elems .wmm)
    let r ← copySuppRates st elems
    if r.1 ≠ .success then pure r
    else do
      let st ← copyStaHtCapab r.2 (elems .htCapabilities)
      let resp ← checkWpaIe conf elems
      pure (resp, st)

/-- `check_assoc_ies`. -/
def checkAssocIes (conf : WpaAuthConfig) (st : Station cfg) (ies iesLen : ℕ) :
    Reads (Status × Station cfg) := do
  let p ← parseElems ies iesLen
  if p.1 = .failed then pure (.unspecifiedFailure, st) else checkElems conf st p.2

/-! ## Association -/

/-- `sizeof(mgmt->u.assoc_req)` or `sizeof(mgmt->u.reassoc_req)`. -/
def assocFixedLen (reassoc : Bool) : ℕ := if reassoc then 10 else 4

/-- Where the elements of an association request begin. -/
def assocIes (reassoc : Bool) : ℕ := hdrLen + assocFixedLen reassoc

/-- A reassociation request is logged, with `current_ap`. -/
def logReassoc (reassoc : Bool) : Reads Unit :=
  if reassoc then do
    let _ ← readAddr saOff
    let _ ← readAddr 28
    pure ()
  else pure ()

/-- `current_ap` of a reassociation request is copied to `previous_ap`. -/
def copyPreviousAp (reassoc : Bool) : Reads Unit :=
  if reassoc then do
    let _ ← readAddr 28
    fill 6 6
  else pure ()

/-- `handle_assoc` between the checks and the label `fail`. -/
def acceptAssoc (s : ApInfo cfg) (i : StaIdx cfg) (r : AssocReq) (c : Status × Station cfg) :
    Reads (Status × ApInfo cfg) :=
  if c.1 ≠ .success then pure (c.1, s.modSta i fun _ => c.2)
  else
    match hostapdGetAid (s.modSta i fun _ => c.2) i with
    | none => pure (.unableToHandleNewSta, s.modSta i fun _ => c.2)
    | some s => do
      copyPreviousAp r.reassoc
      pure (.success, apSocCmdStaOper (recordAssoc s i r) i true)

/-- `handle_assoc` between the lookup and the label `fail`. -/
def tryAssoc (s : ApInfo cfg) (env : RxEnv) (len : ℕ) (i : StaIdx cfg) (r : AssocReq) :
    Reads (Status × ApInfo cfg) :=
  if env.tkipCountermeasures then pure (.micFailure, s)
  else if maxListenInterval < r.listenInterval then pure (.listenIntTooLarge, s)
  else do
    let c ← checkAssocIes env.conf (s.sta i) (assocIes r.reassoc) (len - assocIes r.reassoc)
    acceptAssoc s i r c

/-- The sender of an association request is not authenticated. -/
def refuseAssoc (s : ApInfo cfg) : Reads (ApInfo cfg × List Reply) := do
  let sa ← readAddr saOff
  pure (if isValidEtherAddr sa then sendMgmtFrame s sa else s, [])

/-- `handle_assoc`. -/
def handleAssoc (s : ApInfo cfg) (env : RxEnv) (len : ℕ) (reassoc : Bool) :
    Reads (ApInfo cfg × List Reply) :=
  if len < assocIes reassoc then pure (s, [])
  else do
    let capabInfo ← readU16 24
    let listenInterval ← readU16 26
    logReassoc reassoc
    let sta ← findStaByAddr s saOff
    match sta with
    | none => refuseAssoc s
    | some i =>
      if !(s.sta i).auth then refuseAssoc s
      else do
        -- What is recorded of the request are its fixed fields.
        let t ← tryAssoc s env len i
          { longEnough := true, sa := (s.sta i).addr, reassoc, capabInfo, listenInterval,
            elems := none, tkipCountermeasures := env.tkipCountermeasures }
        let s := if t.1 = .success then t.2 else apStaInfoFree t.2 i
        pure (sendMgmtFrame s (s.sta i).addr, [.assoc (s.sta i).addr (s.sta i).aid reassoc t.1])

/-! ## Probe requests and beacons -/

/-- The difference of two lengths as a `size_t`. -/
def sizeSub (a b : ℕ) : ℕ := (a + 2 ^ 32 - b) % 2 ^ 32

/-- The limit on probe requests of unknown stations: whether the next one is looked at. -/
def RxEnv.probeAllowed (env : RxEnv) : Bool :=
  if env.probeReqCnt = 0xffff then false
  else if 2 < env.probeReqCnt + 1 then decide (50 < env.probeReqTime)
  else true

/-- The probe request is for everybody, or for the SSID that is configured. -/
def asksForUs (cfg : ApCfg) (ssid : Elem) : Reads Bool :=
  if ssid.len = 0 then pure true else isOwnSsid cfg ssid

/-- A sender that was not found is looked up once more. -/
def lookAgain (s : ApInfo cfg) (sta : Option (StaIdx cfg)) : Reads Unit :=
  if sta.isNone then do
    let _ ← findStaByAddr s saOff
    pure ()
  else pure ()

/-- `ap_mlme_rx_probe_request` behind the parser. -/
def answerProbe (s : ApInfo cfg) (sta : Option (StaIdx cfg)) (elems : Elements) : Reads Unit :=
  match elems .ssid, elems .suppRates with
  | some ssid, some _ => do
    lookAgain s sta
    let us ← asksForUs cfg ssid
    if us then do
      let _ ← readAddr saOff
      pure ()
    else printSsid ssid
  | _, _ => do
    let _ ← readAddr saOff
    pure ()

/-- `ap_mlme_rx_probe_request`. -/
def rxProbeRequest (s : ApInfo cfg) (env : RxEnv) (len : ℕ) : Reads Unit := do
  let sta ← findStaByAddr s saOff
  if sta.isNone && !env.probeAllowed then pure ()
  else do
    let p ← parseElems hdrLen (sizeSub len hdrLen)
    if p.1 = .failed then do
      let _ ← readAddr saOff
      pure ()
    else answerProbe s sta p.2

/-- At most `size` bytes of an element are copied into a field of `size` bytes, behind `used` that
are there already. -/
def copyCapped (size used : ℕ) (e : Elem) : Reads Unit := do
  let _ ← readSlice e.off (min e.len (size - used))
  fill size (used + min e.len (size - used))

/-- The first byte of an element of length one. -/
def readSingle (e : Elem) : Reads Unit :=
  if e.len = 1 then do
    let _ ← read e.off
    pure ()
  else pure ()

/-- How many rates `neighbor_ap_list_process_beacon` has copied before the extended ones. -/
def usedRates (elems : Elements) : ℕ :=
  match elems .suppRates with
  | none => 0
  | some supp => min supp.len 32

/-- `ap_ap_add` copies the address of a new access point. -/
def addAp (env : RxEnv) : Reads Unit :=
  if env.knownAp then pure ()
  else do
    let _ ← readAddr bssidOff
    pure ()

/-- `neighbor_ap_list_process_beacon`. -/
def processBeacon (env : RxEnv) (elems : Elements) : Reads Unit := do
  let _ ← readAddr bssidOff
  addAp env
  let _ ← readU16 32
  let _ ← readU16 34
  forSome (elems .ssid) (copyCapped 32 0)
  forSome (elems .suppRates) (copyCapped 32 0)
  forSome (elems .extSuppRates) (copyCapped 32 (usedRates elems))
  forSome (elems .erpInfo) readSingle
  forSome (elems .dsParams) readSingle

/-- `ap_mlme_rx_beacon`, which goes on whatever the parser says. -/
def rxBeacon (env : RxEnv) (len : ℕ) : Reads Unit :=
  if len < hdrLen + 12 then pure ()
  else do
    let p ← parseElems (hdrLen + 12) (len - (hdrLen + 12))
    processBeacon env p.2

/-! ## Authentication -/

/-- The frame has a challenge. -/
def hasChallenge (len : ℕ) : Reads Bool :=
  if len < hdrLen + 6 + 2 + 128 then pure false
  else do
    let id ← read 30
    if id ≠ 16 then pure false
    else do
      let elen ← read 31
      pure (elen = 128)

/-- The checks of `ap_mlme_rx_auth` before a station is looked up. -/
def authStatus (cfg : ApCfg) (env : RxEnv) (authAlg transaction : ℕ) : Reads Status :=
  if env.tkipCountermeasures then pure .micFailure
  else if !((cfg.authOpen && authAlg == 0) || (cfg.authShared && authAlg == 1)) then
    pure .notSupportedAuthAlg
  else if !(transaction == 1 || (authAlg == 1 && transaction == 3)) then
    pure .unknownAuthTransaction
  else do
    let own ← memcmp saOff 6 cfg.ownAddr.toList
    pure (if own then .unspecifiedFailure else .success)

/-- `auth_shared_key`; `challenge` is where the challenge of the frame stands. -/
def authSharedKey (st : Station cfg) (env : RxEnv) (transaction : ℕ) (isWep : Bool)
    (challenge : Option ℕ) : Reads (Status × Station cfg) :=
  if transaction = 1 then
    pure (match st.challenge, env.newChallenge with
      | some _, _ => (.success, st)
      | none, some c => (.success, { st with challenge := some c })
      | none, none => (.unspecifiedFailure, st))
  else if transaction ≠ 3 then pure (.unspecifiedFailure, st)
  else
    match isWep, st.challenge, challenge with
    | true, some c, some off => do
      let same ← memcmp off 128 c
      pure (if same then (.success, { st with auth := true, challenge := none })
        else (.challengeFail, st))
    | _, _, _ => pure (.challengeFail, st)

/-- The `switch` of `ap_mlme_rx_auth`. -/
def authenticate (st : Station cfg) (env : RxEnv) (authAlg transaction : ℕ) (isWep : Bool)
    (challenge : Option ℕ) : Reads (Status × Station cfg) :=
  if authAlg = 0 then pure (.success, { st with auth := true })
  else authSharedKey st env transaction isWep challenge

/-- `send_auth_reply`. -/
def sendAuthReply (s : ApInfo cfg) (status : Status) : Reads (ApInfo cfg × List Reply) := do
  let sa ← readAddr saOff
  let _ ← readAddr bssidOff
  pure (sendMgmtFrame s sa, [.auth sa status])

/-- `ap_mlme_rx_auth` from `APStaInfo_add` on. -/
def admitSta (s : ApInfo cfg) (env : RxEnv) (authAlg transaction : ℕ) (isWep : Bool)
    (challenge : Option ℕ) : Reads (ApInfo cfg × List Reply) := do
  let _ ← findStaByAddr s saOff
  let sa ← readAddr saOff
  match apStaInfoAdd s sa with
  | (none, s) => sendAuthReply s .unableToHandleNewSta
  | (some i, s) => do
    let a ← authenticate (s.sta i) env authAlg transaction isWep challenge
    let s := s.modSta i fun _ => a.2
    sendAuthReply (if a.1 = .success then s else apStaInfoFree s i) a.1

/-- `ap_mlme_rx_auth`. -/
def rxAuth (s : ApInfo cfg) (env : RxEnv) (len : ℕ) : Reads (ApInfo cfg × List Reply) :=
  if len < hdrLen + 6 then pure (s, [])
  else do
    let authAlg ← readU16 24
    let transaction ← readU16 26
    let _ ← readU16 28
    let fc ← readU16 0
    let found ← hasChallenge len
    let status ← authStatus cfg env authAlg transaction
    if status ≠ .success then sendAuthReply s status
    else admitSta s env authAlg transaction (fc.testBit 14) (if found then some 32 else none)

/-! ## Leaving -/

/-- `ap_mlme_rx_disassoc` and `ap_mlme_rx_deauth`, which differ in what they do with the station. -/
def rxLeave (s : ApInfo cfg) (len : ℕ) (leave : ApInfo cfg → EtherAddr → ApInfo cfg) :
    Reads (ApInfo cfg × List Reply) :=
  if len < hdrLen + 2 then pure (s, [])
  else do
    let sa ← readAddr saOff
    let _ ← readU16 24
    let _ ← findStaByAddr s saOff
    pure (leave s sa, [])

/-- `ap_mlme_rx_disassoc`. -/
def rxDisassoc (s : ApInfo cfg) (len : ℕ) : Reads (ApInfo cfg × List Reply) :=
  rxLeave s len mlmeRxDisassoc

/-- `ap_mlme_rx_deauth`. -/
def rxDeauth (s : ApInfo cfg) (len : ℕ) : Reads (ApInfo cfg × List Reply) :=
  rxLeave s len mlmeRxDeauth

/-! ## The dispatcher -/

/-- The entries of `AP_RxHandler`. -/
inductive Handler
  | assoc (reassoc : Bool)
  | probe
  | beacon
  | disassoc
  | auth
  | deauth
  /-- ATIM and action frames, whose handlers do nothing, and the entries that are `NULL`. -/
  | idle
deriving DecidableEq, Repr

/-- `AP_RxHandler`, by subtype. -/
def handlerOf : ℕ → Handler
  | 0 => .assoc false
  | 2 => .assoc true
  | 4 => .probe
  | 8 => .beacon
  | 10 => .disassoc
  | 11 => .auth
  | 12 => .deauth
  | _ => .idle

/-- `WLAN_FC_GET_TYPE`. -/
def fcType (fc : ℕ) : ℕ := fc / 4 % 4

/-- `WLAN_FC_GET_STYPE`. -/
def fcStype (fc : ℕ) : ℕ := fc / 16 % 16

/-- The call of a handler. -/
def callHandler (s : ApInfo cfg) (env : RxEnv) (len : ℕ) :
    Handler → Reads (ApInfo cfg × List Reply)
  | .assoc reassoc => handleAssoc s env len reassoc
  | .probe => do
    rxProbeRequest s env len
    pure (s, [])
  | .beacon => do
    rxBeacon env len
    pure (s, [])
  | .disassoc => rxDisassoc s len
  | .auth => rxAuth s env len
  | .deauth => rxDeauth s len
  | .idle => pure (s, [])

/-- Read a big-endian 16-bit field. -/
def readBe16 (off : ℕ) : Reads ℕ := do
  let hi ← read off
  let lo ← read (off + 1)
  pure (256 * hi.toNat + lo.toNat)

/-- `AP_RxHandleAPMode`: management frames go to their handlers, anything else is taken for EAPOL
and goes to `wpa_receive`, with the length it says it has. -/
def rxHandleApMode (s : ApInfo cfg) (env : RxEnv) (f : RxFrame) :
    Reads (ApInfo cfg × List Reply) :=
  if f.f80211 then do
    let fc ← readU16 0
    if fcType fc = 0 ∧ fcStype fc < 14 then do
      let _ ← findStaByAddr s saOff
      callHandler s env f.len (handlerOf (fcStype fc))
    else pure (s, [])
  else do
    let sta ← findStaByAddr s 6
    let eapolLen ← readBe16 16
    if sta.isSome then do
      hand 14 (eapolLen + 4)
      pure (s, [])
    else pure (s, [])

end Fullmac.Ap.Raw
