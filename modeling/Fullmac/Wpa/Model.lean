import Fullmac.Lib.Loops
import Fullmac.Lib.Machine
import Fullmac.Crypto.Rc4
import Fullmac.Wpa.Eapol

/-!
# The authenticator

Reference: `host/ap/wpa_auth.c`; `host/ap/wpa_auth_i.h`; `host/ap/state_machine.h`;
`host/ap/ap_mlme.c`, `handle_assoc`, `ap_mlme_rx_deauth`; `host/ap/ap_sta_info.c`,
`APStaInfo_free`, `change_sta_disassoc_to_deauth`.

The state machine of one station with the data that all stations share (`Auth`), and everything that
happens to it, in any order: an association request, the answer of the firmware, frames, timeouts, a
deauthentication, the end of the station's entry. What the code does to the outside world, to timers
and to the station's keys and port is an `Output`.

A memory allocation takes its answer from `mallocs`. The statistics are left out, except for the
number of failed handshakes.
-/

namespace Fullmac.Wpa

open Fullmac.Crypto

/-! ## State -/

/-- `wpa_ptk_state`. -/
inductive PtkState
  | ptkInitialize | disconnect | disconnected | authentication | authentication2 | initPmk | initPsk
  | ptkStart | ptkCalcNegotiating | ptkCalcNegotiating2 | ptkInitNegotiating | ptkInitDone
deriving DecidableEq, Repr

/-- `enum wpa_alg`, as far as it is used for a station. -/
inductive Alg
  | none | ccmp | tkip
deriving DecidableEq, Repr

/-- What the authenticator does. -/
inductive Output
  /-- `os_cancel_timer` of `wpa_send_eapol_timeout`. -/
  | cancelTimer
  /-- `os_create_timer` of `wpa_send_eapol_timeout`. -/
  | createTimer (ms : ℕ)
  /-- `wpa_auth_send_eapol`. -/
  | sendEapol (frame : List UInt8) (encrypt : Bool)
  /-- `wpa_auth_set_key` for the station. -/
  | setKey (alg : Alg) (key : List UInt8)
  /-- `ap_sta_set_authorized`. -/
  | setAuthorized (yes : Bool)
  /-- `i802_sta_deauth`. -/
  | deauth
deriving DecidableEq, Repr

/-- An entry of `key_replay`. -/
structure Replay where
  counter : Octets 8
  valid : Bool
deriving DecidableEq, Repr

/-- `WPA_VERSION_WPA2`. -/
def versionWpa2 : ℕ := 2

/-- `WPA_VERSION_WPA`. -/
def versionWpa : ℕ := 1

/-- `struct wpa_state_machine`. -/
structure Sm where
  addr : Octets 6
  state : PtkState
  init : Bool
  deauthenticationRequest : Bool
  authenticationRequest : Bool
  reAuthenticationRequest : Bool
  disconnect : Bool
  timeoutCtr : ℕ
  timeoutEvt : Bool
  eapolKeyReceived : Bool
  eapolKeyPairwise : Bool
  eapolKeyRequest : Bool
  micVerified : Bool
  aNonce : Octets 32
  sNonce : Octets 32
  pmk : Octets 32
  ptk : Ptk
  ptkValid : Bool
  pairwiseSet : Bool
  pair : Bool
  keyReplay : Replay × Replay × Replay × Replay
  ptkRequest : Bool
  lastRxEapolKey : List UInt8
  changed : Bool
  inStepLoop : Bool
  started : Bool
  rxEapolKeySecure : Bool
  reqReplayCounter : Octets 8
  reqReplayCounterUsed : Bool
  wpaIe : Option (List UInt8)
  wpa : ℕ
  pairwise : ℕ
  wpaKeyMgmt : ℕ
deriving DecidableEq, Repr

/-- `MEMSET(sm, 0, ..)`. -/
def Sm.zero : Sm where
  addr := .zero 6
  state := .ptkInitialize
  init := false
  deauthenticationRequest := false
  authenticationRequest := false
  reAuthenticationRequest := false
  disconnect := false
  timeoutCtr := 0
  timeoutEvt := false
  eapolKeyReceived := false
  eapolKeyPairwise := false
  eapolKeyRequest := false
  micVerified := false
  aNonce := .zero 32
  sNonce := .zero 32
  pmk := .zero 32
  ptk := .zero
  ptkValid := false
  pairwiseSet := false
  pair := false
  keyReplay := (⟨.zero 8, false⟩, ⟨.zero 8, false⟩, ⟨.zero 8, false⟩, ⟨.zero 8, false⟩)
  ptkRequest := false
  lastRxEapolKey := []
  changed := false
  inStepLoop := false
  started := false
  rxEapolKeySecure := false
  reqReplayCounter := .zero 8
  reqReplayCounterUsed := false
  wpaIe := none
  wpa := 0
  pairwise := 0
  wpaKeyMgmt := 0

/-- What the stations share: `struct wpa_group`, `struct wpa_authenticator`, its configuration, and
the key that `enable_beacon` gets. -/
structure Auth where
  counter : Octets 32
  gn : ℕ
  gtk : List UInt8
  psk : Octets 32
  ownAddr : Octets 6
  wpaIe : List UInt8
  confWpa : ℕ
  confWpaGroup : ℕ
  confWpaKeyMgmt : ℕ
  failures : ℕ
deriving DecidableEq, Repr

/-- The authenticator, one station and its entry: whether the entry is in use, and the flags that
start the handshake. -/
structure World where
  auth : Auth
  sm : Sm
  valid : Bool
  assocRsp : Bool
  addStaFlag : Bool
  reassoc : Bool
  mallocs : List Bool
  out : List Output
deriving DecidableEq, Repr

/-- Something is done. -/
def World.emit (w : World) (o : Output) : World := { w with out := w.out ++ [o] }

/-- The state machine changes. -/
def World.mapSm (w : World) (f : Sm → Sm) : World := { w with sm := f w.sm }

/-- `MALLOC`: its answer, and the world after it. -/
def World.malloc (w : World) : Bool × World :=
  (w.mallocs.headD true, { w with mallocs := w.mallocs.tail })

/-! ## The end of a station -/

/-- `wpa_auth_sta_deinit`. What it does to the state machine is lost when the entry is wiped. -/
def wpaAuthStaDeinit (w : World) : World := if w.sm.started then w.emit .cancelTimer else w

/-- `APStaInfo_free`. -/
def apStaInfoFree (w : World) : World :=
  if w.valid then
    { wpaAuthStaDeinit (w.emit (.setAuthorized false)) with
      sm := .zero, valid := false, assocRsp := false, addStaFlag := false, reassoc := false }
  else w

/-- `wpa_sta_disconnect`, with `change_sta_disassoc_to_deauth`. -/
def wpaStaDisconnect (w : World) : World :=
  if w.valid then
    apStaInfoFree
      { ((w.emit (.setAuthorized false)).emit .cancelTimer).emit .deauth with
        assocRsp := false, addStaFlag := false, reassoc := false }
  else w

/-! ## Sending -/

/-- The entries of `key_replay` move by one place, and the first one gets the next counter. -/
def shiftReplay (r : Replay × Replay × Replay × Replay) : Replay × Replay × Replay × Replay :=
  (⟨incByteArray r.1.counter, true⟩, r.1, r.2.1, r.2.2.1)

/-- `key_length` of a cipher. -/
def keyLength (cipher : ℕ) : ℕ :=
  if cipher = Ap.Cipher.ccmp.bit then 16
  else if cipher = Ap.Cipher.tkip.bit then 32
  else if cipher = Ap.Cipher.wep40.bit then 5
  else if cipher = Ap.Cipher.wep104.bit then 13
  else 0

/-- The key data of `__wpa_send_eapol` that is enciphered: the elements, the padding for
`aes_wrap`, and eight bytes of room in front. -/
def paddedKde (kde : List UInt8) : List UInt8 :=
  let padLen := if kde.length % 8 = 0 then 0 else 8 - kde.length % 8
  kde ++ (if padLen = 0 then [] else 0xdd :: List.replicate (padLen - 1) 0)

/-- `__wpa_send_eapol`: the world, the initial vector and the enciphered key data, by `aes_wrap` or
by `rc4_skip`. -/
def encipherKde (w : World) (version : ℕ) (kde : List UInt8) : World × Octets 16 × List UInt8 :=
  if version = KeyInfo.typeHmacSha1Aes then
    let plain := paddedKde kde
    (w, .zero 16, aesWrap w.sm.ptk.kek.1 (plain.length / 8) plain)
  else
    let iv := octetsAt w.auth.counter.1 16 16
    ({ w with auth := { w.auth with counter := incByteArray w.auth.counter } }, iv,
      rc4Skip (iv.1 ++ w.sm.ptk.kek.1) 256 kde)

/-- `__wpa_send_eapol`: the end, with the key data and the initial vector that were made. -/
def finishEapol (w : World) (version keyInfo keyLen : ℕ) (rsc : Octets 8) (nonce : Octets 32)
    (iv : Octets 16) (keyData : List UInt8) : World :=
  let sm := w.sm
  let type : UInt8 := if sm.wpa = versionWpa2 then 2 else 254
  let frame := eapolFrame type keyInfo keyLen sm.keyReplay.1.counter nonce iv rsc (.zero 16) keyData
  if keyInfo.testBit KeyInfo.mic then
    if !sm.ptkValid then w
    else
      w.emit (.sendEapol (match wpaEapolKeyMic sm.ptk.kck version frame with
        | none => frame
        | some mic => setMic frame mic) sm.pairwiseSet)
  else w.emit (.sendEapol frame sm.pairwiseSet)

/-- `__wpa_send_eapol`, never with a version that is forced. -/
def wpaSendEapolFrame (w : World) (keyInfo : KeyInfo) (rsc : Octets 8) (nonce : Octets 32)
    (kde : Option (List UInt8)) (keyidx : ℕ) (encr : Bool) : World :=
  let sm := w.sm
  let version :=
    if sm.pairwise = Ap.Cipher.ccmp.bit then KeyInfo.typeHmacSha1Aes else KeyInfo.typeHmacMd5Rc4
  let hdr := w.malloc
  if !hdr.1 then hdr.2
  else
    let keyInfo' := (keyInfo ||| version) |||
      (if encr && sm.wpa = versionWpa2 then 2 ^ KeyInfo.encrKeyData else 0) |||
      (if sm.wpa ≠ versionWpa2 then keyidx <<< 4 else 0)
    let keyLen :=
      keyLength (if keyInfo.testBit KeyInfo.keyType then sm.pairwise else w.auth.confWpaGroup)
    let w := hdr.2.mapSm fun sm => { sm with keyReplay := shiftReplay sm.keyReplay }
    match kde with
    | none => finishEapol w version keyInfo' keyLen rsc nonce (.zero 16) []
    | some kde =>
      if !encr then finishEapol w version keyInfo' keyLen rsc nonce (.zero 16) kde
      else
        let buf := w.malloc
        if !buf.1 then buf.2
        else
          let e := encipherKde buf.2 version kde
          finishEapol e.1 version keyInfo' keyLen rsc nonce e.2.1 e.2.2

/-- `wpa_send_eapol`. -/
def wpaSendEapol (w : World) (keyInfo : KeyInfo) (rsc : Octets 8) (nonce : Octets 32)
    (kde : Option (List UInt8)) (keyidx : ℕ) (encr : Bool) : World :=
  if !w.sm.started then w
  else
    let w := wpaSendEapolFrame w keyInfo rsc nonce kde keyidx encr
    w.emit (.createTimer (if w.sm.timeoutCtr = 1 then 100 else 1000))

/-! ## The states -/

/-- `WPA_ALG_NONE` for the station, and the pairwise key wiped (`wpa_remove_ptk`). -/
def wpaRemovePtk (w : World) : World :=
  if w.sm.pairwiseSet then
    (w.emit (.setKey .none [])).mapSm fun sm => { sm with ptk := .zero, pairwiseSet := false }
  else w

/-- `SM_ENTRY_MA`: `SM_ENTER` always gives zero for `global`. -/
def smEntry (state : PtkState) (w : World) : World :=
  w.mapSm fun sm => { sm with state := state, changed := true }

/-- `SM_STATE(WPA_PTK, INITIALIZE)`. -/
def enterInitialize (w : World) : World :=
  let w := smEntry .ptkInitialize w
  let w := w.mapSm fun sm => { sm with changed := sm.changed && !sm.init, pair := true }
  (wpaRemovePtk w).mapSm fun sm => { sm with timeoutCtr := 0 }

/-- `SM_STATE(WPA_PTK, DISCONNECT)`. -/
def enterDisconnect (w : World) : World :=
  wpaStaDisconnect ((smEntry .disconnect w).mapSm fun sm => { sm with disconnect := false })

/-- `SM_STATE(WPA_PTK, DISCONNECTED)`. -/
def enterDisconnected (w : World) : World :=
  (smEntry .disconnected w).mapSm fun sm => { sm with deauthenticationRequest := false }

/-- `SM_STATE(WPA_PTK, AUTHENTICATION)`. -/
def enterAuthentication (w : World) : World :=
  (smEntry .authentication w).mapSm fun sm =>
    { sm with ptk := .zero, ptkValid := false, authenticationRequest := false }

/-- `SM_STATE(WPA_PTK, AUTHENTICATION2)`. -/
def enterAuthentication2 (w : World) : World :=
  let w := (smEntry .authentication2 w).mapSm fun sm =>
    { sm with aNonce := w.auth.counter, reAuthenticationRequest := false, timeoutCtr := 0 }
  { w with auth := { w.auth with counter := incByteArray w.auth.counter } }

/-- `SM_STATE(WPA_PTK, INITPMK)`. -/
def enterInitPmk (w : World) : World :=
  (smEntry .initPmk w).mapSm fun sm => { sm with reqReplayCounterUsed := false }

/-- `SM_STATE(WPA_PTK, INITPSK)`. -/
def enterInitPsk (w : World) : World :=
  (smEntry .initPsk w).mapSm fun sm =>
    { sm with pmk := w.auth.psk, reqReplayCounterUsed := false }

/-- `dot11RSNAConfigPairwiseUpdateCount`. -/
def pairwiseUpdateCount : ℕ := 4

/-- `SM_STATE(WPA_PTK, PTKSTART)`. -/
def enterPtkStart (w : World) : World :=
  let w := (smEntry .ptkStart w).mapSm fun sm =>
    { sm with ptkRequest := false, timeoutEvt := false, timeoutCtr := sm.timeoutCtr + 1 }
  if pairwiseUpdateCount < w.sm.timeoutCtr then w
  else
    wpaSendEapol w (2 ^ KeyInfo.ack ||| 2 ^ KeyInfo.keyType) (.zero 8) w.sm.aNonce none 0 false

/-- `SM_STATE(WPA_PTK, PTKCALCNEGOTIATING)`: its loop is left after one pass. -/
def enterPtkCalcNegotiating (w : World) : World :=
  let w := (smEntry .ptkCalcNegotiating w).mapSm fun sm => { sm with eapolKeyReceived := false }
  let sm := w.sm
  let pmk := if sm.wpaKeyMgmt = Ap.keyMgmtPsk then w.auth.psk else sm.pmk
  let ptk := wpaDerivePtk sm.pairwise pmk w.auth.ownAddr sm.addr sm.aNonce sm.sNonce
  if wpaVerifyKeyMic ptk sm.lastRxEapolKey then
    (w.emit .cancelTimer).mapSm fun sm =>
      { sm with pmk := pmk, micVerified := true, ptk := ptk, ptkValid := true }
  else w

/-- `SM_STATE(WPA_PTK, PTKCALCNEGOTIATING2)`. -/
def enterPtkCalcNegotiating2 (w : World) : World :=
  (smEntry .ptkCalcNegotiating2 w).mapSm fun sm => { sm with timeoutCtr := 0 }

/-- The element of message 3: the one of the access point, or what is behind it for a station that
knows WPA only. -/
def message3Ie (w : World) : List UInt8 :=
  let ie := w.auth.wpaIe
  let len := (ie.getD 1 0).toNat + 2
  if w.sm.wpa = versionWpa ∧ w.auth.confWpa.testBit 1 ∧ len < 22 ∧ ie.getD 0 0 = 48 then
    (ie.drop len).take (((ie.drop len).getD 1 0).toNat + 2)
  else ie.take 22

/-- The key data of message 3: the element, and for WPA2 the group key. -/
def message3Kde (w : World) : List UInt8 :=
  message3Ie w ++
    if w.sm.wpa = versionWpa2 then
      wpaAddKde rsnKeyDataGroupkey [UInt8.ofNat (w.auth.gn % 4), 0] w.auth.gtk
    else []

/-- `wpa_auth_get_seqnum` of the group key, whatever key is asked for. -/
def firstRsc : Octets 8 := ⟨[1, 0, 0, 0, 0, 0, 0, 0], rfl⟩

/-- `SM_STATE(WPA_PTK, PTKINITNEGOTIATING)`. -/
def enterPtkInitNegotiating (w : World) : World :=
  let w := (smEntry .ptkInitNegotiating w).mapSm fun sm =>
    { sm with timeoutEvt := false, timeoutCtr := sm.timeoutCtr + 1 }
  if pairwiseUpdateCount < w.sm.timeoutCtr then w
  else
    let wpa2 : Bool := w.sm.wpa = versionWpa2
    let secure := wpa2 || w.sm.rxEapolKeySecure
    let kde := w.malloc
    if !kde.1 then kde.2.emit (.createTimer 100)
    else
      wpaSendEapol kde.2 ((if secure then 2 ^ KeyInfo.secure else 0) ||| 2 ^ KeyInfo.mic |||
          2 ^ KeyInfo.ack ||| 2 ^ KeyInfo.install ||| 2 ^ KeyInfo.keyType)
        (if wpa2 then firstRsc else .zero 8) w.sm.aNonce
        (some (message3Kde w)) (if wpa2 then w.auth.gn else 0) wpa2

/-- `SM_STATE(WPA_PTK, PTKINITDONE)`. A key for TKIP is longer than `tk1`, and the bytes behind it
are left out. -/
def enterPtkInitDone (w : World) : World :=
  let w := (smEntry .ptkInitDone w).mapSm fun sm => { sm with eapolKeyReceived := false }
  let w :=
    if w.sm.pair then
      (w.emit (.setKey (if w.sm.pairwise = Ap.Cipher.tkip.bit then .tkip else .ccmp)
        w.sm.ptk.tk1.1)).mapSm fun sm => { sm with pairwiseSet := true }
    else w
  if w.valid then w.emit (.setAuthorized true) else w

/-- `SM_STATE(WPA_PTK, ..)`. -/
def smEnter (state : PtkState) : World → World :=
  match state with
  | .ptkInitialize => enterInitialize
  | .disconnect => enterDisconnect
  | .disconnected => enterDisconnected
  | .authentication => enterAuthentication
  | .authentication2 => enterAuthentication2
  | .initPmk => enterInitPmk
  | .initPsk => enterInitPsk
  | .ptkStart => enterPtkStart
  | .ptkCalcNegotiating => enterPtkCalcNegotiating
  | .ptkCalcNegotiating2 => enterPtkCalcNegotiating2
  | .ptkInitNegotiating => enterPtkInitNegotiating
  | .ptkInitDone => enterPtkInitDone

/-! ## The step -/

/-- A frame of a pairwise handshake that is not a request has been received. -/
def Sm.pairwiseReceived (sm : Sm) : Bool :=
  sm.eapolKeyReceived && !sm.eapolKeyRequest && sm.eapolKeyPairwise

/-- The `switch` of `SM_STEP(WPA_PTK)`: the state that is entered, if one is. -/
def localState (sm : Sm) : Option PtkState :=
  match sm.state with
  | .ptkInitialize => none
  | .disconnect => some .disconnected
  | .disconnected => some .ptkInitialize
  | .authentication => some .authentication2
  | .authentication2 =>
    if sm.wpaKeyMgmt = Ap.keyMgmtIeee8021x then some .initPmk
    else if sm.wpaKeyMgmt = Ap.keyMgmtPsk then some .initPsk
    else none
  | .initPmk => some .disconnect
  | .initPsk => some .ptkStart
  | .ptkStart =>
    if sm.pairwiseReceived then some .ptkCalcNegotiating
    else if pairwiseUpdateCount < sm.timeoutCtr then some .disconnect
    else if sm.timeoutEvt then some .ptkStart
    else none
  | .ptkCalcNegotiating =>
    if sm.micVerified then some .ptkCalcNegotiating2
    else if sm.pairwiseReceived then some .ptkCalcNegotiating
    else if sm.timeoutEvt then some .ptkStart
    else none
  | .ptkCalcNegotiating2 => some .ptkInitNegotiating
  | .ptkInitNegotiating =>
    if sm.pairwiseReceived && sm.micVerified then some .ptkInitDone
    else if pairwiseUpdateCount < sm.timeoutCtr then some .disconnect
    else if sm.timeoutEvt then some .ptkInitNegotiating
    else none
  | .ptkInitDone => none

/-- The state that `SM_STEP(WPA_PTK)` enters, if it enters one. -/
def nextState (sm : Sm) : Option PtkState :=
  if sm.init then some .ptkInitialize
  else if sm.disconnect then some .disconnect
  else if sm.deauthenticationRequest then some .disconnected
  else if sm.authenticationRequest then some .authentication
  else if sm.reAuthenticationRequest then some .authentication2
  else if sm.ptkRequest then some .ptkStart
  else localState sm

/-- Whether the step counts a failed handshake: it gives up in these states. -/
def givesUp (sm : Sm) (next : PtkState) : Bool :=
  next = .disconnect && !sm.disconnect

/-- `SM_STEP(WPA_PTK)`. -/
def smStep (w : World) : World :=
  match nextState w.sm with
  | none => w
  | some next =>
    smEnter next
      (if givesUp w.sm next then
        { w with auth := { w.auth with failures := w.auth.failures + 1 } }
      else w)

/-- One pass of the loop of `wpa_sm_step`: it goes on with the next world or leaves with it. -/
def smPass (w : World) : World ⊕ World :=
  if !w.sm.started then .inr w
  else
    let w := smStep (w.mapSm fun sm => { sm with changed := false })
    if w.sm.changed then .inl w else .inr w

/-- More passes than the loop of `wpa_sm_step` makes (`smPass_ends`). -/
def passBound : ℕ := 128

/-- `wpa_sm_step`. -/
def wpaSmStep (w : World) : World :=
  if !w.sm.started then w
  else if w.sm.inStepLoop then w
  else
    let w := w.mapSm fun sm => { sm with inStepLoop := true }
    ((Loops.passes smPass passBound w).getD w).mapSm fun sm => { sm with inStepLoop := false }

/-! ## Receiving -/

/-- The kind of a frame that is received. -/
inductive Msg
  | pairwise2 | pairwise4 | group2 | request | smk
deriving DecidableEq, Repr

/-- The kind that `wpa_receive` takes a frame for. -/
def frameMsg (data : List UInt8) : Msg :=
  let keyInfo := frameKeyInfo data
  if keyInfo.testBit KeyInfo.smkMessage then .smk
  else if keyInfo.testBit KeyInfo.request then .request
  else if !keyInfo.testBit KeyInfo.keyType then .group2
  else if frameKeyDataLength data = 0 then .pairwise4
  else .pairwise2

/-- `key_replay` as a list. -/
def Sm.replays (sm : Sm) : List Replay :=
  [sm.keyReplay.1, sm.keyReplay.2.1, sm.keyReplay.2.2.1, sm.keyReplay.2.2.2]

/-- `wpa_replay_counter_valid`. -/
def wpaReplayCounterValid (sm : Sm) (counter : Octets 8) : Bool :=
  (sm.replays.takeWhile (·.valid)).any (·.counter = counter)

/-- The header of a frame is as the state machine expects it: the length of the key data, the type,
the version of the integrity code and the replay counter. -/
def headerFits (sm : Sm) (data : List UInt8) : Bool :=
  let keyInfo := frameKeyInfo data
  decide (frameKeyDataLength data ≤ data.length - headerLen) &&
    (frameType data = 254 || (sm.wpa = versionWpa2 && frameType data = 2)) &&
    (frameMsg data = .smk || sm.pairwise ≠ Ap.Cipher.ccmp.bit ||
      keyInfo % 8 = KeyInfo.typeHmacSha1Aes) &&
    (if keyInfo.testBit KeyInfo.request then
      !sm.reqReplayCounterUsed ||
        decide (0 < memcmp (frameReplayCounter data).1 sm.reqReplayCounter.1)
    else wpaReplayCounterValid sm (frameReplayCounter data))

/-- What the kind of a frame asks for: it is dropped, the station is disconnected, or the rest of
the frame is looked at. -/
inductive Verdict
  | drop | disconnect | go
deriving DecidableEq, Repr

/-- The `switch` over the kind of a frame; `room` is for the copy that `wpa_compare_rsn_ie`
makes. -/
def frameVerdict (sm : Sm) (data : List UInt8) (room : Bool) : Verdict :=
  match frameMsg data with
  | .pairwise2 =>
    if sm.state ≠ .ptkStart ∧ sm.state ≠ .ptkCalcNegotiating then .drop
    else
      match wpaParseKdeIes (frameKeyData data) with
      | none => .drop
      | some kde =>
        if wpaCompareRsnIe sm.wpaIe (kde.rsnIe <|> kde.wpaIe) room then .go else .disconnect
  | .pairwise4 =>
    if sm.state ≠ .ptkInitNegotiating ∨ !sm.ptkValid then .drop else .go
  | .group2 => .go
  | .request => .go
  | .smk => .drop

/-- `wpa_request_new_ptk`. -/
def wpaRequestNewPtk (sm : Sm) : Sm :=
  if !sm.started then sm else { sm with ptkRequest := true, ptkValid := false }

/-- What a request whose integrity code is right asks for. -/
def processRequest (data : List UInt8) (sm : Sm) : Sm :=
  let keyInfo := frameKeyInfo data
  let sm := { sm with reqReplayCounterUsed := true, reqReplayCounter := frameReplayCounter data }
  if keyInfo.testBit KeyInfo.error || keyInfo.testBit KeyInfo.keyType then wpaRequestNewPtk sm
  else sm

/-- The end of `wpa_receive`: the frame is kept and the state machine runs. -/
def acceptFrame (w : World) (data : List UInt8) : World :=
  let keyInfo := frameKeyInfo data
  let copy := w.malloc
  if !copy.1 then
    (copy.2.mapSm fun sm => { sm with lastRxEapolKey := [] }).emit (.createTimer 100)
  else
    wpaSmStep (copy.2.mapSm fun sm =>
      { sm with
        lastRxEapolKey := data
        rxEapolKeySecure := keyInfo.testBit KeyInfo.secure
        eapolKeyReceived := true
        eapolKeyPairwise := keyInfo.testBit KeyInfo.keyType
        eapolKeyRequest := keyInfo.testBit KeyInfo.request
        sNonce := frameNonce data })

/-- `wpa_receive` of a frame that is neither dropped nor disconnected before its integrity code is
looked at. -/
def checkFrame (w : World) (data : List UInt8) : World :=
  let keyInfo := frameKeyInfo data
  if keyInfo.testBit KeyInfo.ack ∨ !keyInfo.testBit KeyInfo.mic then w
  else
    let w := w.mapSm fun sm => { sm with micVerified := false }
    if w.sm.ptkValid && !wpaVerifyKeyMic w.sm.ptk data then w
    else
      let w :=
        if w.sm.ptkValid then
          (w.mapSm fun sm => { sm with micVerified := true }).emit .cancelTimer
        else w
      if keyInfo.testBit KeyInfo.request then
        if w.sm.micVerified then acceptFrame (w.mapSm (processRequest data)) data
        else w.emit (.createTimer 100)
      else
        acceptFrame (w.mapSm fun sm =>
          { sm with keyReplay := (⟨sm.keyReplay.1.counter, false⟩, sm.keyReplay.2) }) data

/-- `wpa_receive`. -/
def wpaReceive (w : World) (data : List UInt8) : World :=
  if w.auth.confWpa = 0 ∨ !w.sm.started then w
  else if data.length < headerLen then w
  else
    let w := w.emit .cancelTimer
    if !headerFits w.sm data then w
    else
      let room := w.malloc
      match frameVerdict w.sm data room.1 with
      | .drop => w
      | .disconnect => wpaStaDisconnect room.2
      | .go => checkFrame room.2 data

/-- `wpa_send_eapol_timeout`. -/
def wpaSendEapolTimeout (w : World) : World :=
  if !w.sm.started then w
  else wpaSmStep (w.mapSm fun sm => { sm with timeoutEvt := true })

/-! ## Association -/

/-- `wpa_auth_sta_associated`. -/
def wpaAuthStaAssociated (w : World) : World :=
  if w.auth.confWpa = 0 then w
  else if w.sm.started then
    wpaSmStep (w.mapSm fun sm =>
      { sm with keyReplay := Sm.zero.keyReplay, reAuthenticationRequest := true })
  else
    let w := wpaSmStep (w.mapSm fun sm => { sm with started := true, init := true })
    wpaSmStep (w.mapSm fun sm => { sm with init := false, authenticationRequest := true })

/-- The events of `wpa_auth_sm_event` that are raised. -/
inductive WpaEvent
  | deauth | reauth
deriving DecidableEq, Repr

/-- `wpa_auth_sm_event`. -/
def wpaAuthSmEvent (w : World) (event : WpaEvent) : World :=
  if !w.sm.started then w
  else
    let w := w.mapSm fun sm =>
      match event with
      | .deauth => { sm with deauthenticationRequest := true }
      | .reauth => { sm with reAuthenticationRequest := true }
    wpaSmStep (wpaRemovePtk (w.mapSm fun sm => { sm with ptkValid := false, ptk := .zero }))

/-- `process_4Ways_start`. -/
def process4WaysStart (w : World) : World :=
  if w.assocRsp && w.addStaFlag then
    let w := if w.reassoc then wpaAuthSmEvent w .reauth else wpaAuthStaAssociated w
    { w with assocRsp := false, reassoc := false, addStaFlag := false }
  else w

/-- What `wpa_validate_wpa_ie` leaves in the state machine. -/
structure AssocIe where
  wpa : ℕ
  pairwise : ℕ
  keyMgmt : ℕ
  ie : List UInt8
deriving DecidableEq, Repr

/-- What `check_assoc_ies` finds in an association request for WPA. -/
inductive AssocCheck
  /-- There is no element, or the request was refused before. -/
  | missing
  /-- `wpa_validate_wpa_ie` refuses the element. -/
  | refused
  | accepted (ie : AssocIe)
deriving DecidableEq, Repr

/-- `wpa_auth_sta_no_wpa`. -/
def wpaAuthStaNoWpa (sm : Sm) : Sm := if !sm.started then sm else { sm with wpaKeyMgmt := 0 }

/-- `handle_assoc` of a station that is let in: without a key it is authorized at once. -/
def letIn (w : World) : World :=
  let w := { w with addStaFlag := false, assocRsp := false, reassoc := false }
  if w.auth.confWpaKeyMgmt = Ap.keyMgmtPsk then { process4WaysStart w with assocRsp := true }
  else w.emit (.setAuthorized true)

/-- `handle_assoc` of a station at `addr`, from where the element is looked at; `wpa_auth_sta_init`
starts its state machine again. -/
def handleAssoc (w : World) (addr : Octets 6) (check : AssocCheck) : World :=
  let w := { w with valid := true }
  if w.auth.confWpa = 0 then letIn (w.mapSm wpaAuthStaNoWpa)
  else
    match check with
    | .missing => apStaInfoFree w
    | .refused => apStaInfoFree { w with sm := { Sm.zero with addr := addr } }
    | .accepted ie =>
      letIn { w with sm := { Sm.zero with
        addr := addr, wpa := ie.wpa, pairwise := ie.pairwise, wpaKeyMgmt := ie.keyMgmt,
        wpaIe := ie.ie } }

/-- `start_4way_handshake` for the station. -/
def start4wayHandshake (w : World) : World :=
  let w := { w with addStaFlag := true }
  if w.auth.confWpa = 2 then process4WaysStart w else w

/-- `ap_mlme_rx_deauth`. -/
def rxDeauth (w : World) : World :=
  if !w.valid then w
  else
    let w := w.emit (.setAuthorized false)
    apStaInfoFree (if w.auth.confWpaKeyMgmt = Ap.keyMgmtPsk then wpaAuthSmEvent w .deauth else w)

/-! ## Runs -/

/-- What happens to the authenticator. -/
inductive Input
  /-- `handle_assoc`. -/
  | assoc (addr : Octets 6) (check : AssocCheck)
  /-- The firmware has added the station: `start_4way_handshake`. -/
  | added
  /-- `wpa_receive`. -/
  | receive (data : List UInt8)
  /-- `wpa_send_eapol_timeout`. -/
  | timeout
  /-- `ap_mlme_rx_deauth`. -/
  | deauth
  /-- `APStaInfo_free` for another reason. -/
  | free
  /-- `enable_beacon`. -/
  | pmk (psk : Octets 32)
  /-- The handshake of another station takes a value of the group counter. -/
  | other
deriving DecidableEq, Repr

/-- One event, with the answers of the memory allocations in it. -/
def handle (w : World) : Input → World
  | .assoc addr check => handleAssoc w addr check
  | .added => start4wayHandshake w
  | .receive data => wpaReceive w data
  | .timeout => wpaSendEapolTimeout w
  | .deauth => rxDeauth w
  | .free => apStaInfoFree w
  | .pmk psk => { w with auth := { w.auth with psk := psk } }
  | .other => { w with auth := { w.auth with counter := incByteArray w.auth.counter } }

/-- A step of the authenticator with what it does. -/
def step (w : World) (i : Input × List Bool) : World × List Output :=
  let w := handle { w with mallocs := i.2, out := [] } i.1
  ({ w with out := [] }, w.out)

/-- The authenticator with no station. -/
def World.start (auth : Auth) : World where
  auth := auth
  sm := .zero
  valid := false
  assocRsp := false
  addStaFlag := false
  reassoc := false
  mallocs := []
  out := []

end Fullmac.Wpa
