import Fullmac.Wpa.Step

/-!
# A handshake that succeeds

Reference: `host/ap/wpa_auth.c`, `wpa_derive_ptk`, `wpa_verify_key_mic`, `__wpa_send_eapol`,
`wpa_receive`.

A `Station` is the other side of the handshake: what it sends is not the code's, but what the
handshake asks of a station that knows the pre-shared key. With WPA2 and CCMP, and with memory for
what is sent and received, the station comes through (`handshake_completes`): it is let in with the
key that it derives itself, and from message 3 it gets the group key and the element of the access
point.
-/

namespace Fullmac.Wpa

open Fullmac.Crypto

/-! ## Both sides derive one key -/

theorem memcmp_neg (a b : List UInt8) : memcmp b a = -memcmp a b := by
  induction a generalizing b with
  | nil => cases b <;> rfl
  | cons x a ih =>
    cases b with
    | nil => rfl
    | cons y b =>
      rw [memcmp, memcmp]
      by_cases hxy : x = y
      · rw [if_pos hxy.symm, if_pos hxy, ih]
      · rw [if_neg (Ne.symm hxy), if_neg hxy]
        omega

theorem eq_of_memcmp_eq_zero {a b : List UInt8} (hlen : a.length = b.length)
    (h : memcmp a b = 0) : a = b := by
  induction a generalizing b with
  | nil => exact (List.length_eq_zero_iff.mp hlen.symm).symm
  | cons x a ih =>
    cases b with
    | nil => cases hlen
    | cons y b =>
      rw [memcmp] at h
      split at h
      case isTrue hxy => rw [hxy, ih (Nat.succ.inj hlen) h]
      case isFalse hxy =>
        refine absurd (UInt8.toNat_inj.mp ?_) hxy
        omega

/-- The smaller array comes first, whichever side sorts. -/
theorem sorted_comm {a b : List UInt8} (hlen : a.length = b.length) : sorted a b = sorted b a := by
  have hneg := memcmp_neg a b
  rw [sorted, sorted]
  split_ifs with h1 h2
  · omega
  · rfl
  · rfl
  · rw [eq_of_memcmp_eq_zero hlen (by omega)]

theorem wpaDerivePtk_comm (pairwise : ℕ) (pmk : Octets 32) (ownAddr addr : Octets 6)
    (aNonce sNonce : Octets 32) :
    wpaDerivePtk pairwise pmk ownAddr addr aNonce sNonce
      = wpaDerivePtk pairwise pmk addr ownAddr sNonce aNonce := by
  have haddr := sorted_comm (ownAddr.2.trans addr.2.symm)
  have hnonce := sorted_comm (aNonce.2.trans sNonce.2.symm)
  rw [wpaDerivePtk, wpaDerivePtk, haddr, hnonce]

/-! ## The station -/

/-- The integrity code of a frame, by `wpa_eapol_key_mic`. -/
def micOf (kck : Octets 16) (frame : List UInt8) : Octets 16 :=
  octetsAt (Fips.hmac kck.1 frame) 0 16

/-- A station that knows the pre-shared key; behind the first two bytes, the element of its
association request has at most 255. -/
structure Station where
  addr : Octets 6
  psk : Octets 32
  sNonce : Octets 32
  ieBody : {l : List UInt8 // l.length < 256}

namespace Station

variable (st : Station)

/-- The RSN element of the association request. -/
def ie : List UInt8 := 48 :: UInt8.ofNat st.ieBody.1.length :: st.ieBody.1

/-- What the access point takes from the element. -/
def assocIe : AssocIe where
  wpa := versionWpa2
  pairwise := Ap.Cipher.ccmp.bit
  keyMgmt := Ap.keyMgmtPsk
  ie := st.ie

/-- The key, by the side of the station: its own address and nonce come first. -/
def ptk (apAddr : Octets 6) (m1 : List UInt8) : Ptk :=
  wpaDerivePtk Ap.Cipher.ccmp.bit st.psk st.addr apAddr st.sNonce (frameNonce m1)

/-- A frame of the station but for its integrity code. -/
def frame (keyInfo : ℕ) (counter : Octets 8) (nonce : Octets 32) (keyData : List UInt8)
    (mic : Octets 16) : List UInt8 :=
  eapolFrame 2 keyInfo 0 counter nonce (.zero 16) (.zero 8) mic keyData

/-- Message 2. -/
def message2 (apAddr : Octets 6) (m1 : List UInt8) : List UInt8 :=
  let unsigned := frame 266 (frameReplayCounter m1) st.sNonce st.ie
  unsigned (micOf (st.ptk apAddr m1).kck (unsigned (.zero 16)))

/-- Message 4. -/
def message4 (apAddr : Octets 6) (m1 m3 : List UInt8) : List UInt8 :=
  let unsigned := frame 778 (frameReplayCounter m3) (.zero 32) []
  unsigned (micOf (st.ptk apAddr m1).kck (unsigned (.zero 16)))

end Station

/-- What a handshake needs of the access point: WPA2 with the pre-shared key of the station, a group
key, and an element with one suite of each kind. -/
structure Ready (auth : Auth) (st : Station) : Prop where
  confWpa : auth.confWpa = 2
  confWpaKeyMgmt : auth.confWpaKeyMgmt = Ap.keyMgmtPsk
  psk : auth.psk = st.psk
  gtk : auth.gtk ≠ [] ∧ auth.gtk.length ≤ 32
  wpaIe : ∃ body : List UInt8, body.length = 20 ∧ auth.wpaIe = 48 :: 20 :: body

/-- Whether a frame is verified with a key. -/
theorem wpaVerifyKeyMic_eapolFrame (ptk : Ptk) (type : UInt8) {keyInfo : ℕ} (keyLen : ℕ)
    (counter : Octets 8) (nonce : Octets 32) (iv : Octets 16) (rsc : Octets 8) (mic : Octets 16)
    (keyData : List UInt8) (hinfo : keyInfo < 65536)
    (hversion : keyInfo % 8 = KeyInfo.typeHmacSha1Aes) :
    wpaVerifyKeyMic ptk (eapolFrame type keyInfo keyLen counter nonce iv rsc mic keyData)
      = (micOf ptk.kck (eapolFrame type keyInfo keyLen counter nonce iv rsc (.zero 16) keyData)
        == mic) := by
  rw [wpaVerifyKeyMic, length_eapolFrame, if_neg (by omega), frameKeyInfo_eapolFrame (h := hinfo),
    hversion, wpaEapolKeyMic, if_pos rfl, setMic_eapolFrame, frameMic_eapolFrame]
  rfl

/-- A frame whose integrity code was made with the key is verified with it. -/
theorem wpaVerifyKeyMic_signed (ptk : Ptk) (type : UInt8) {keyInfo : ℕ} (keyLen : ℕ)
    (counter : Octets 8) (nonce : Octets 32) (iv : Octets 16) (rsc : Octets 8)
    (keyData : List UInt8) (hinfo : keyInfo < 65536)
    (hversion : keyInfo % 8 = KeyInfo.typeHmacSha1Aes) :
    wpaVerifyKeyMic ptk (eapolFrame type keyInfo keyLen counter nonce iv rsc
      (micOf ptk.kck (eapolFrame type keyInfo keyLen counter nonce iv rsc (.zero 16) keyData))
      keyData) = true := by
  rw [wpaVerifyKeyMic_eapolFrame _ _ _ _ _ _ _ _ _ hinfo hversion]
  exact beq_self_eq_true _

/-! ## Sending to the station -/

variable {st : Station} {auth : Auth} {w : World}

/-- The frame that `__wpa_send_eapol` makes for a station with CCMP and WPA2. -/
def ccmpFrame (w : World) (keyInfo : KeyInfo) (rsc : Octets 8) (nonce : Octets 32)
    (keyData : List UInt8) (mic : Octets 16) : List UInt8 :=
  eapolFrame 2 keyInfo
    (keyLength (if keyInfo.testBit KeyInfo.keyType then Ap.Cipher.ccmp.bit
      else w.auth.confWpaGroup))
    (incByteArray w.sm.keyReplay.1.counter) nonce (.zero 16) rsc mic keyData

/-- A frame has been sent. -/
def sent (w : World) (frame : List UInt8) : World :=
  { w with
    out := w.out ++ [.sendEapol frame w.sm.pairwiseSet]
    sm := { w.sm with keyReplay := shiftReplay w.sm.keyReplay } }

/-- The key data as it is enciphered. -/
def wrapped (kek : Octets 16) (kde : List UInt8) : List UInt8 :=
  aesWrap kek.1 ((paddedKde kde).length / 8) (paddedKde kde)

section Send

variable (keyInfo : KeyInfo) (hmem : w.mallocs = [])
  (hpairwise : w.sm.pairwise = Ap.Cipher.ccmp.bit) (hwpa : w.sm.wpa = versionWpa2)

include hmem hpairwise hwpa

/-- Without key data and without an integrity code. -/
theorem wpaSendEapolFrame_none (rsc : Octets 8) (nonce : Octets 32)
    (hmic : (keyInfo ||| 2).testBit KeyInfo.mic = false)
    (htype : keyInfo.testBit KeyInfo.keyType = true) :
    wpaSendEapolFrame w keyInfo rsc nonce none 0 false
      = sent w (ccmpFrame w (keyInfo ||| 2) rsc nonce [] (.zero 16)) := by
  have htype' : (keyInfo ||| 2).testBit KeyInfo.keyType = true := by
    rw [Nat.testBit_or, htype, Bool.true_or]
  simp only [wpaSendEapolFrame, finishEapol, World.mapSm, World.malloc, hmem, hpairwise, hwpa,
    KeyInfo.typeHmacSha1Aes, List.headD_nil, Bool.not_true, Bool.false_eq_true, if_false, if_true,
    Bool.false_and, ne_eq, not_true_eq_false, Nat.or_zero, hmic, World.emit, sent, ccmpFrame,
    htype, htype', List.tail_nil]
  rfl

/-- With key data that is enciphered. -/
theorem wpaSendEapolFrame_wrapped (rsc : Octets 8) (nonce : Octets 32) (kde : List UInt8)
    (keyidx : ℕ) (hmic : keyInfo.testBit KeyInfo.mic = true)
    (htype : keyInfo.testBit KeyInfo.keyType = true) (hvalid : w.sm.ptkValid = true) :
    wpaSendEapolFrame w keyInfo rsc nonce (some kde) keyidx true
      = sent w (ccmpFrame w (keyInfo ||| 2 ||| 2 ^ KeyInfo.encrKeyData) rsc nonce
          (wrapped w.sm.ptk.kek kde)
          (micOf w.sm.ptk.kck (ccmpFrame w (keyInfo ||| 2 ||| 2 ^ KeyInfo.encrKeyData) rsc nonce
            (wrapped w.sm.ptk.kek kde) (.zero 16)))) := by
  have htype' : (keyInfo ||| 2 ||| 2 ^ KeyInfo.encrKeyData).testBit KeyInfo.keyType = true := by
    rw [Nat.testBit_or, Nat.testBit_or, htype, Bool.true_or, Bool.true_or]
  have hmic' : (keyInfo ||| 2 ||| 2 ^ KeyInfo.encrKeyData).testBit KeyInfo.mic = true := by
    rw [Nat.testBit_or, Nat.testBit_or, hmic, Bool.true_or, Bool.true_or]
  simp only [wpaSendEapolFrame, finishEapol, encipherKde, World.mapSm, World.malloc, hmem,
    hpairwise, hwpa, KeyInfo.typeHmacSha1Aes, List.headD_nil, Bool.not_true, Bool.false_eq_true,
    if_false, if_true, Bool.true_and, ne_eq, not_true_eq_false, Nat.or_zero, hmic', World.emit,
    sent, ccmpFrame, htype, htype', List.tail_nil, decide_true, hvalid, wpaEapolKeyMic,
    setMic_eapolFrame, micOf, wrapped]
  rfl

/-- Entering `PTKSTART` for the first time. -/
theorem enterPtkStart_first (hstarted : w.sm.started = true) (hctr : w.sm.timeoutCtr = 0) :
    smEnter .ptkStart w =
      (sent { w with sm := { w.sm with
          state := .ptkStart, changed := true, ptkRequest := false, timeoutEvt := false
          timeoutCtr := 1 } }
        (ccmpFrame w 138 (.zero 8) w.sm.aNonce [] (.zero 16))).emit (.createTimer 100) := by
  have hsend := wpaSendEapolFrame_none (w := (smEntry .ptkStart w).mapSm fun sm =>
      { sm with ptkRequest := false, timeoutEvt := false, timeoutCtr := sm.timeoutCtr + 1 })
    (2 ^ KeyInfo.ack ||| 2 ^ KeyInfo.keyType) hmem hpairwise hwpa (.zero 8) w.sm.aNonce
    rfl rfl
  simp only [smEntry, World.mapSm, hctr, Nat.zero_add] at hsend
  simp only [smEnter, enterPtkStart, smEntry, World.mapSm, hctr, Nat.zero_add]
  rw [if_neg (by decide), wpaSendEapol, if_neg (by rw [hstarted]; exact Bool.false_ne_true), hsend]
  rfl

/-- The end of entering `PTKINITNEGOTIATING`: message 3 is sent. -/
theorem wpaSendEapol_message3 (hstarted : w.sm.started = true) (hctr : w.sm.timeoutCtr = 1)
    (hvalid : w.sm.ptkValid = true) :
    wpaSendEapol w
        (2 ^ KeyInfo.secure ||| 2 ^ KeyInfo.mic ||| 2 ^ KeyInfo.ack ||| 2 ^ KeyInfo.install |||
          2 ^ KeyInfo.keyType) firstRsc w.sm.aNonce (some (message3Kde w))
        w.auth.gn true =
      (sent w (ccmpFrame w 5066 firstRsc w.sm.aNonce
          (wrapped w.sm.ptk.kek (message3Kde w))
          (micOf w.sm.ptk.kck (ccmpFrame w 5066 firstRsc w.sm.aNonce
            (wrapped w.sm.ptk.kek (message3Kde w)) (.zero 16))))).emit (.createTimer 100) := by
  have htimer : ∀ frame, (sent w frame).sm.timeoutCtr = 1 := fun frame => hctr
  rw [wpaSendEapol, if_neg (by rw [hstarted]; exact Bool.false_ne_true),
    wpaSendEapolFrame_wrapped _ hmem hpairwise hwpa _ _ _ _ rfl rfl hvalid]
  simp only [htimer, if_true]
  rfl

omit hpairwise in
/-- Entering `PTKINITNEGOTIATING` for the first time. -/
theorem enterPtkInitNegotiating_first (hctr : w.sm.timeoutCtr = 0) :
    ∃ v, v = { w with sm := { w.sm with
        state := .ptkInitNegotiating, changed := true, timeoutEvt := false, timeoutCtr := 1 } } ∧
      smEnter .ptkInitNegotiating w = wpaSendEapol v
        (2 ^ KeyInfo.secure ||| 2 ^ KeyInfo.mic ||| 2 ^ KeyInfo.ack ||| 2 ^ KeyInfo.install |||
          2 ^ KeyInfo.keyType) firstRsc v.sm.aNonce (some (message3Kde v))
        v.auth.gn true := by
  obtain ⟨v, hv⟩ : ∃ v, v = { w with sm := { w.sm with
      state := .ptkInitNegotiating, changed := true, timeoutEvt := false, timeoutCtr := 1 } } :=
    ⟨_, rfl⟩
  have hentry : ((smEntry .ptkInitNegotiating w).mapSm fun sm =>
      { sm with timeoutEvt := false, timeoutCtr := sm.timeoutCtr + 1 }) = v := by
    rw [hv]
    simp only [smEntry, World.mapSm, hctr, Nat.zero_add]
  have hvmem : v.mallocs = [] := by rw [hv]; exact hmem
  have hvctr : v.sm.timeoutCtr = 1 := by rw [hv]
  have hvwpa : v.sm.wpa = versionWpa2 := by rw [hv]; exact hwpa
  have hmalloc : v.malloc = (true, v) := by
    rw [World.malloc, hvmem]
    show (true, { v with mallocs := [] }) = _
    rw [← hvmem]
  refine ⟨v, hv, ?_⟩
  simp only [smEnter, enterPtkInitNegotiating, hentry, hvctr, hvwpa, hmalloc, Bool.not_true,
    Bool.false_eq_true, if_false, if_true, decide_true, Bool.true_or]
  rw [if_neg (by decide)]

end Send

/-! ## Receiving from the station -/

section Receive

/-- A frame of the station is accepted if it is what the state machine waits for. -/
theorem accepts_frame {keyInfo : ℕ} {counter : Octets 8} {nonce : Octets 32} {keyData : List UInt8}
    {mic : Octets 16} (hmem : w.mallocs = []) (hconf : w.auth.confWpa ≠ 0)
    (hstarted : w.sm.started = true) (hwpa : w.sm.wpa = versionWpa2) (hinfo : keyInfo < 65536)
    (hversion : keyInfo % 8 = KeyInfo.typeHmacSha1Aes)
    (hack : keyInfo.testBit KeyInfo.ack = false) (hmic : keyInfo.testBit KeyInfo.mic = true)
    (hrequest : keyInfo.testBit KeyInfo.request = false) (hlen : keyData.length < 65536)
    (hreplay : wpaReplayCounterValid w.sm counter = true)
    (hgo : frameVerdict w.sm (Station.frame keyInfo counter nonce keyData mic) true = .go)
    (hverify : w.sm.ptkValid = true →
      wpaVerifyKeyMic w.sm.ptk (Station.frame keyInfo counter nonce keyData mic) = true) :
    accepts w (Station.frame keyInfo counter nonce keyData mic) = true := by
  have hinfo' : frameKeyInfo (Station.frame keyInfo counter nonce keyData mic) = keyInfo :=
    frameKeyInfo_eapolFrame _ _ _ _ _ _ _ _ _ hinfo
  have hcounter : frameReplayCounter (Station.frame keyInfo counter nonce keyData mic) = counter :=
    frameReplayCounter_eapolFrame _ _ _ _ _ _ _ _ _
  have hlength : (Station.frame keyInfo counter nonce keyData mic).length
      = headerLen + keyData.length := length_eapolFrame _ _ _ _ _ _ _ _ _
  have hdata : frameKeyDataLength (Station.frame keyInfo counter nonce keyData mic)
      ≤ (Station.frame keyInfo counter nonce keyData mic).length - headerLen := by
    rw [hlength, Station.frame, frameKeyDataLength_eapolFrame (h := hlen)]
    omega
  have htype : frameType (Station.frame keyInfo counter nonce keyData mic) = 2 := rfl
  have hfits : headerFits w.sm (Station.frame keyInfo counter nonce keyData mic) = true := by
    simp only [headerFits, hdata, htype, hwpa, hinfo', hversion, hrequest, hcounter, hreplay,
      decide_true, Bool.and_self, Bool.or_true, Bool.false_eq_true, if_false]
  have hroom : w.malloc.1 = true := by
    rw [World.malloc, hmem]
    rfl
  have hle : headerLen ≤ (Station.frame keyInfo counter nonce keyData mic).length := by
    rw [hlength]
    omega
  rw [accepts, hinfo', hroom, hgo, hfits, hstarted, hack, hmic, hrequest, decide_eq_true hconf,
    decide_eq_true hle]
  cases hk : w.sm.ptkValid with
  | false => rfl
  | true =>
    rw [hverify hk]
    rfl

/-- What is done with it. -/
theorem wpaReceive_frame (keyInfo : ℕ) (counter : Octets 8) (nonce : Octets 32)
    (keyData : List UInt8) (mic : Octets 16) (hmem : w.mallocs = []) (hinfo : keyInfo < 65536)
    (hrequest : keyInfo.testBit KeyInfo.request = false)
    (haccepts : accepts w (Station.frame keyInfo counter nonce keyData mic) = true) :
    wpaReceive w (Station.frame keyInfo counter nonce keyData mic) =
      wpaSmStep { replayUsed (verified (w.emit .cancelTimer)) with
        sm := { (replayUsed (verified (w.emit .cancelTimer))).sm with
          lastRxEapolKey := Station.frame keyInfo counter nonce keyData mic
          rxEapolKeySecure := keyInfo.testBit KeyInfo.secure
          eapolKeyReceived := true
          eapolKeyPairwise := keyInfo.testBit KeyInfo.keyType
          eapolKeyRequest := keyInfo.testBit KeyInfo.request
          sNonce := nonce } } := by
  have hinfo' : frameKeyInfo (Station.frame keyInfo counter nonce keyData mic) = keyInfo :=
    frameKeyInfo_eapolFrame _ _ _ _ _ _ _ _ _ hinfo
  have hnonce : frameNonce (Station.frame keyInfo counter nonce keyData mic) = nonce :=
    frameNonce_eapolFrame _ _ _ _ _ _ _ _ _
  have hroom : (w.emit .cancelTimer).malloc.2 = w.emit .cancelTimer := by
    rw [World.malloc, World.emit, hmem]
    show { w with out := _, mallocs := [] } = _
    rw [← hmem]
  rw [wpaReceive_of_accepts haccepts, handedOn,
    if_neg (by rw [hinfo', hrequest]; exact Bool.false_ne_true), hroom,
    acceptFrame_eq (w := replayUsed (verified (w.emit .cancelTimer))) hmem, takeFrame, hinfo',
    hnonce]

/-- Message 2 of a station whose element is the one of its association request. -/
theorem frameVerdict_second {sm : Sm} {data : List UInt8} {kde : WpaEapolIeParse}
    {ie : List UInt8} (hmsg : frameMsg data = .pairwise2) (hstate : sm.state = .ptkStart)
    (hkde : wpaParseKdeIes (frameKeyData data) = some kde) (hrsn : kde.rsnIe = some ie)
    (hie : sm.wpaIe = some ie) : frameVerdict sm data true = .go := by
  have hsame : wpaCompareRsnIe (some ie) (some ie) true = true := by
    rw [wpaCompareRsnIe, if_pos rfl, decide_eq_true rfl, Bool.true_or]
  have hfound : (kde.rsnIe <|> kde.wpaIe) = some ie := by
    rw [hrsn]
    rfl
  rw [frameVerdict, hmsg]
  simp only [hstate, hkde, hfound, hie, hsame, ne_eq, not_true_eq_false, false_and, if_false,
    if_true]

/-- Message 4. -/
theorem frameVerdict_fourth {sm : Sm} {data : List UInt8} (hmsg : frameMsg data = .pairwise4)
    (hstate : sm.state = .ptkInitNegotiating) (hvalid : sm.ptkValid = true) :
    frameVerdict sm data true = .go := by
  rw [frameVerdict, hmsg]
  simp only [hstate, hvalid, ne_eq, not_true_eq_false, Bool.not_true, Bool.false_eq_true, or_self,
    if_false]

end Receive

/-! ## The association -/

/-- Message 1. -/
def message1 (auth : Auth) : List UInt8 :=
  eapolFrame 2 138 16 (incByteArray (.zero 8)) auth.counter (.zero 16) (.zero 8) (.zero 16) []

/-- The state machine of a station that has been let in. -/
def admittedSm (st : Station) : Sm :=
  { Sm.zero with
    addr := st.addr, wpa := versionWpa2, pairwise := Ap.Cipher.ccmp.bit
    wpaKeyMgmt := Ap.keyMgmtPsk, wpaIe := some st.ie }

/-- The world when the association request has been answered. -/
def admittedWorld (auth : Auth) (st : Station) : World where
  auth := auth
  sm := admittedSm st
  valid := true
  assocRsp := true
  addStaFlag := false
  reassoc := false
  mallocs := []
  out := []

/-- The state machine when message 1 has been sent. -/
def startSm (auth : Auth) (st : Station) : Sm :=
  { admittedSm st with
    started := true, pair := true, state := .ptkStart, timeoutCtr := 1, aNonce := auth.counter
    pmk := auth.psk, keyReplay := shiftReplay Sm.zero.keyReplay }

/-- The world when message 1 has been sent. -/
def startWorld (auth : Auth) (st : Station) : World :=
  { admittedWorld auth st with
    auth := { auth with counter := incByteArray auth.counter }
    sm := startSm auth st
    assocRsp := false }

/-- What is done until message 1 has been sent. -/
def startOutputs (auth : Auth) : List Output := [.sendEapol (message1 auth) false, .createTimer 100]

theorem step_assoc (h : Ready w.auth st) :
    step w (.assoc st.addr (.accepted st.assocIe), []) = (admittedWorld w.auth st, []) := by
  have hconf : ¬ w.auth.confWpa = 0 := by
    rw [h.confWpa]
    decide
  simp only [step, handle, handleAssoc, hconf, if_false, letIn, h.confWpaKeyMgmt, if_true,
    process4WaysStart, Bool.false_and, Bool.false_eq_true]
  rfl

/-- The world before the loop. -/
def askingWorld (auth : Auth) (st : Station) : World :=
  { admittedWorld auth st with
    addStaFlag := true
    sm := { admittedSm st with started := true, authenticationRequest := true, pair := true } }

theorem passes_asking (auth : Auth) (st : Station) :
    Loops.passes smPass passBound (looping (askingWorld auth st))
      = some { looping (startWorld auth st) with
        assocRsp := true, addStaFlag := true, out := startOutputs auth } := by
  rw [show passBound = 123 + 1 + 1 + 1 + 1 + 1 from rfl,
    passes_enter .authentication _ rfl rfl rfl rfl,
    passes_enter .authentication2 _ rfl rfl rfl rfl, passes_enter .initPsk _ rfl rfl rfl rfl]
  have henter := enterPtkStart_first (w := cleared (smEnter .initPsk (cleared
    (smEnter .authentication2 (cleared (smEnter .authentication
      (cleared (looping (askingWorld auth st))))))))) rfl rfl rfl rfl rfl
  rw [passes_enter .ptkStart _ rfl rfl rfl (by rw [henter]; rfl), henter,
    passes_rest _ rfl rfl]
  rfl

/-- The world when the firmware has added the station. -/
def addedWorld (auth : Auth) (st : Station) : World :=
  { admittedWorld auth st with addStaFlag := true }

theorem wpaAuthStaAssociated_added (h : Ready auth st) :
    wpaAuthStaAssociated (addedWorld auth st) = { startWorld auth st with
      assocRsp := true, addStaFlag := true, out := startOutputs auth } := by
  have hconf : ¬ (addedWorld auth st).auth.confWpa = 0 := by
    show ¬ auth.confWpa = 0
    rw [h.confWpa]
    decide
  have hinit := wpaSmStep_init (w := (addedWorld auth st).mapSm fun sm =>
    { sm with started := true, init := true }) rfl rfl rfl
  rw [wpaAuthStaAssociated, if_neg hconf,
    if_neg (show ¬ (addedWorld auth st).sm.started = true from Bool.false_ne_true), hinit]
  exact wpaSmStep_of_passes (w := askingWorld auth st) rfl rfl (passes_asking auth st)

theorem step_added (h : Ready auth st) :
    step (admittedWorld auth st) (.added, []) = (startWorld auth st, startOutputs auth) := by
  have hconf : auth.confWpa = 2 := h.confWpa
  have hstart : start4wayHandshake (admittedWorld auth st)
      = { startWorld auth st with out := startOutputs auth } := by
    show (if auth.confWpa = 2 then process4WaysStart (addedWorld auth st) else _) = _
    rw [if_pos hconf]
    show { wpaAuthStaAssociated (addedWorld auth st) with
      assocRsp := false, reassoc := false, addStaFlag := false } = _
    rw [wpaAuthStaAssociated_added h]
    rfl
  have hstep : step (admittedWorld auth st) (.added, [])
      = ({ start4wayHandshake (admittedWorld auth st) with out := [] },
          (start4wayHandshake (admittedWorld auth st)).out) := rfl
  rw [hstep, hstart]
  rfl

/-- The run until message 1 has been sent. -/
def untilFirst (st : Station) : List (Input × List Bool) :=
  [(.assoc st.addr (.accepted st.assocIe), []), (.added, [])]

theorem run_untilFirst (h : Ready w.auth st) : Machine.run step w (untilFirst st)
    = (startWorld w.auth st, startOutputs w.auth) := by
  rw [untilFirst, Machine.run_cons, step_assoc h, Machine.run_cons, step_added h]
  rfl

/-! ## Message 2 -/

/-- The key of the station and the access point. -/
def sharedPtk (auth : Auth) (st : Station) : Ptk := st.ptk auth.ownAddr (message1 auth)

/-- Message 2 of the station. -/
def second (auth : Auth) (st : Station) : List UInt8 := st.message2 auth.ownAddr (message1 auth)

theorem second_eq (auth : Auth) (st : Station) : ∃ mic, second auth st
    = Station.frame 266 (incByteArray (.zero 8)) st.sNonce st.ie mic := by
  have hcounter : frameReplayCounter (message1 auth) = incByteArray (.zero 8) :=
    frameReplayCounter_eapolFrame _ _ _ _ _ _ _ _ _
  exact ⟨_, by rw [second, Station.message2, hcounter]⟩

theorem length_ie_lt (st : Station) : st.ie.length < 65536 := by
  have := st.ieBody.2
  simp only [Station.ie, List.length_cons]
  omega

theorem wpaParseKdeIes_ie (st : Station) :
    wpaParseKdeIes st.ie = some { rsnIe := some st.ie } := by
  have h := parseKdes_cons 48 st.ieBody.1 [] {} st.ieBody.2 (fun h => absurd h.1 (by decide))
  rw [List.append_nil] at h
  rw [wpaParseKdeIes, Station.ie, h, parseKdes_nil]
  rfl

theorem verify_second (auth : Auth) (st : Station) :
    wpaVerifyKeyMic (sharedPtk auth st) (second auth st) = true := by
  have hcounter : frameReplayCounter (message1 auth) = incByteArray (.zero 8) :=
    frameReplayCounter_eapolFrame _ _ _ _ _ _ _ _ _
  rw [second, Station.message2, hcounter]
  exact wpaVerifyKeyMic_signed _ _ _ _ _ _ _ _ (by decide) rfl

/-- The state machine that runs on message 2. -/
def secondSm (auth : Auth) (st : Station) : Sm :=
  { startSm auth st with
    lastRxEapolKey := second auth st, eapolKeyReceived := true, eapolKeyPairwise := true
    sNonce := st.sNonce
    keyReplay := (⟨incByteArray (.zero 8), false⟩, Sm.zero.keyReplay.1, Sm.zero.keyReplay.2.1,
      Sm.zero.keyReplay.2.2.1) }

/-- The world that runs on message 2. -/
def secondWorld (auth : Auth) (st : Station) : World :=
  { startWorld auth st with out := [.cancelTimer], sm := secondSm auth st }

/-- Message 2 is accepted, whatever its integrity code. -/
theorem accepts_second (h : Ready auth st) (mic : Octets 16) : accepts (startWorld auth st)
    (Station.frame 266 (incByteArray (.zero 8)) st.sNonce st.ie mic) = true := by
  have hlen := length_ie_lt st
  have hconf : (startWorld auth st).auth.confWpa ≠ 0 := by
    show auth.confWpa ≠ 0
    rw [h.confWpa]
    decide
  have hmsg : frameMsg (Station.frame 266 (incByteArray (.zero 8)) st.sNonce st.ie mic)
      = .pairwise2 := by
    rw [frameMsg, Station.frame, frameKeyInfo_eapolFrame (h := by decide),
      frameKeyDataLength_eapolFrame (h := hlen)]
    rfl
  have hkey : frameKeyData (Station.frame 266 (incByteArray (.zero 8)) st.sNonce st.ie mic)
      = st.ie := frameKeyData_eapolFrame _ _ _ _ _ _ _ _ _ hlen
  have hgo : frameVerdict (startSm auth st)
      (Station.frame 266 (incByteArray (.zero 8)) st.sNonce st.ie mic) true = .go :=
    frameVerdict_second hmsg rfl (by rw [hkey]; exact wpaParseKdeIes_ie st) rfl rfl
  have hreplay : wpaReplayCounterValid (startSm auth st) (incByteArray (.zero 8)) = true :=
    List.any_eq_true.mpr ⟨_, List.mem_cons_self, decide_eq_true rfl⟩
  exact accepts_frame (w := startWorld auth st) rfl hconf rfl rfl (by decide) rfl rfl rfl rfl hlen
    hreplay hgo fun hk => by cases hk

theorem wpaReceive_second (h : Ready auth st) :
    wpaReceive (startWorld auth st) (second auth st) = wpaSmStep (secondWorld auth st) := by
  obtain ⟨mic, heq⟩ := second_eq auth st
  have hreceive := wpaReceive_frame (w := startWorld auth st) 266 _ st.sNonce st.ie mic rfl
    (by decide) rfl (accepts_second h mic)
  rw [← heq] at hreceive
  exact hreceive

/-- The state machine that has the key. -/
def calcSm (auth : Auth) (st : Station) : Sm :=
  { secondSm auth st with
    state := .ptkCalcNegotiating, changed := true, eapolKeyReceived := false, micVerified := true
    ptk := sharedPtk auth st, ptkValid := true }

/-- The key data of message 3. -/
def thirdKde (auth : Auth) : List UInt8 :=
  auth.wpaIe ++ wpaAddKde rsnKeyDataGroupkey [UInt8.ofNat (auth.gn % 4), 0] auth.gtk

/-- Message 3. -/
def third (auth : Auth) (st : Station) : List UInt8 :=
  let unsigned := fun mic => eapolFrame 2 5066 16 (incByteArray (incByteArray (.zero 8)))
    auth.counter (.zero 16) firstRsc mic
    (wrapped (sharedPtk auth st).kek (thirdKde auth))
  unsigned (micOf (sharedPtk auth st).kck (unsigned (.zero 16)))

/-- The state machine when message 3 has been sent. -/
def thirdSm (auth : Auth) (st : Station) : Sm :=
  { calcSm auth st with
    state := .ptkInitNegotiating, timeoutCtr := 1, changed := false
    keyReplay := shiftReplay (secondSm auth st).keyReplay }

/-- The world when message 3 has been sent. -/
def thirdWorld (auth : Auth) (st : Station) : World :=
  { startWorld auth st with sm := thirdSm auth st }

/-- What is done with message 2. -/
def thirdOutputs (auth : Auth) (st : Station) : List Output :=
  [.cancelTimer, .cancelTimer, .sendEapol (third auth st) false, .createTimer 100]

theorem derivedPtk_second (h : Ready auth st) {w : World}
    (hsm : w.sm = { secondSm auth st with inStepLoop := w.sm.inStepLoop, changed := w.sm.changed })
    (hauth : w.auth = { auth with counter := w.auth.counter }) :
    derivedPtk w = sharedPtk auth st := by
  have hnonce : frameNonce (message1 auth) = auth.counter :=
    frameNonce_eapolFrame _ _ _ _ _ _ _ _ _
  rw [derivedPtk, hsm, hauth, sharedPtk, Station.ptk, hnonce, ← h.psk]
  exact wpaDerivePtk_comm _ _ _ _ _ _

/-- The world in `PTKCALCNEGOTIATING2`. -/
def calc2World (auth : Auth) (st : Station) : World :=
  { looping (secondWorld auth st) with
    out := [.cancelTimer, .cancelTimer]
    sm := { calcSm auth st with
      state := .ptkCalcNegotiating2, timeoutCtr := 0, inStepLoop := true, changed := false } }

theorem message3Kde_eq (h : Ready auth st) {v : World} (hwpa : v.sm.wpa = versionWpa2)
    (hauth : v.auth = { auth with counter := v.auth.counter }) :
    message3Kde v = thirdKde auth := by
  obtain ⟨body, hbody, hie⟩ := h.wpaIe
  have htake : auth.wpaIe.take 22 = auth.wpaIe :=
    List.take_of_length_le (by rw [hie, List.length_cons, List.length_cons, hbody])
  rw [message3Kde, message3Ie, hwpa, hauth, if_neg (fun h => absurd h.1 (by decide)), if_pos rfl,
    thirdKde]
  exact congrArg (· ++ _) htake

theorem enterPtkInitNegotiating_calc2 (h : Ready auth st) :
    smEnter .ptkInitNegotiating (calc2World auth st) = { calc2World auth st with
      out := [.cancelTimer, .cancelTimer, .sendEapol (third auth st) false, .createTimer 100]
      sm := { thirdSm auth st with inStepLoop := true, changed := true } } := by
  obtain ⟨v, hv, hneg⟩ :=
    enterPtkInitNegotiating_first (w := calc2World auth st) rfl rfl rfl
  subst hv
  rw [hneg, wpaSendEapol_message3 rfl rfl rfl rfl rfl rfl, message3Kde_eq h rfl rfl]
  rfl

theorem passes_second (h : Ready auth st) :
    Loops.passes smPass passBound (looping (secondWorld auth st))
      = some { looping (thirdWorld auth st) with out := thirdOutputs auth st } := by
  have hptk : derivedPtk (cleared (looping (secondWorld auth st))) = sharedPtk auth st :=
    derivedPtk_second h rfl rfl
  have hverify := verify_second auth st
  have hcalc : smEnter .ptkCalcNegotiating (cleared (looping (secondWorld auth st)))
      = { looping (secondWorld auth st) with
        out := [.cancelTimer, .cancelTimer]
        sm := { calcSm auth st with inStepLoop := true } } := by
    rw [smEnter, enterPtkCalcNegotiating_eq, hptk]
    exact if_pos hverify
  have hcalc2 : cleared (smEnter .ptkCalcNegotiating2 (cleared { looping (secondWorld auth st) with
      out := [.cancelTimer, .cancelTimer], sm := { calcSm auth st with inStepLoop := true } }))
      = calc2World auth st := rfl
  have hneg := enterPtkInitNegotiating_calc2 h
  rw [show passBound = 124 + 1 + 1 + 1 + 1 from rfl,
    passes_enter .ptkCalcNegotiating _ rfl rfl rfl (by rw [hcalc]; rfl), hcalc,
    passes_enter .ptkCalcNegotiating2 _ rfl rfl rfl rfl,
    passes_enter .ptkInitNegotiating _ rfl rfl rfl (by rw [hcalc2, hneg]), hcalc2, hneg,
    passes_rest _ rfl rfl]
  rfl

theorem step_second (h : Ready auth st) :
    step (startWorld auth st) (.receive (second auth st), [])
      = (thirdWorld auth st, thirdOutputs auth st) := by
  have hloop : wpaReceive (startWorld auth st) (second auth st)
      = { thirdWorld auth st with out := thirdOutputs auth st } := by
    rw [wpaReceive_second h]
    exact wpaSmStep_of_passes rfl rfl (passes_second h)
  show ({ wpaReceive (startWorld auth st) (second auth st) with out := [] },
    (wpaReceive (startWorld auth st) (second auth st)).out) = _
  rw [hloop]
  rfl

/-! ## Message 4 -/

/-- Message 4 of the station. -/
def fourth (auth : Auth) (st : Station) : List UInt8 :=
  st.message4 auth.ownAddr (message1 auth) (third auth st)

theorem fourth_eq (auth : Auth) (st : Station) : fourth auth st
    = Station.frame 778 (incByteArray (incByteArray (.zero 8))) (.zero 32) []
      (micOf (sharedPtk auth st).kck
        (Station.frame 778 (incByteArray (incByteArray (.zero 8))) (.zero 32) [] (.zero 16))) := by
  have hcounter : frameReplayCounter (third auth st) = incByteArray (incByteArray (.zero 8)) :=
    frameReplayCounter_eapolFrame _ _ _ _ _ _ _ _ _
  rw [fourth, Station.message4, hcounter]
  rfl

/-- The state machine of a station that is let in. -/
def doneSm (auth : Auth) (st : Station) : Sm :=
  { thirdSm auth st with
    lastRxEapolKey := fourth auth st, rxEapolKeySecure := true, eapolKeyReceived := false
    sNonce := .zero 32, state := .ptkInitDone, pairwiseSet := true
    keyReplay := (⟨incByteArray (incByteArray (.zero 8)), false⟩, (thirdSm auth st).keyReplay.2) }

/-- The world that runs on message 4. -/
def fourthWorld (auth : Auth) (st : Station) : World :=
  { thirdWorld auth st with
    out := [.cancelTimer, .cancelTimer]
    sm := { doneSm auth st with
      state := .ptkInitNegotiating, eapolKeyReceived := true, pairwiseSet := false } }

/-- What is done with message 4. -/
def fourthOutputs (auth : Auth) (st : Station) : List Output :=
  [.cancelTimer, .cancelTimer, .setKey .ccmp (sharedPtk auth st).tk1.1, .setAuthorized true]

theorem accepts_fourth (h : Ready auth st) :
    accepts (thirdWorld auth st) (fourth auth st) = true := by
  have hconf : (thirdWorld auth st).auth.confWpa ≠ 0 := by
    show auth.confWpa ≠ 0
    rw [h.confWpa]
    decide
  have hmsg : frameMsg (fourth auth st) = .pairwise4 := by
    rw [fourth_eq, frameMsg, Station.frame, frameKeyInfo_eapolFrame (h := by decide),
      frameKeyDataLength_eapolFrame (h := by decide)]
    rfl
  have hgo : frameVerdict (thirdSm auth st) (fourth auth st) true = .go :=
    frameVerdict_fourth hmsg rfl rfl
  have hverify : wpaVerifyKeyMic (sharedPtk auth st) (fourth auth st) = true := by
    rw [fourth_eq]
    exact wpaVerifyKeyMic_signed _ _ _ _ _ _ _ _ (by decide) rfl
  have hreplay : wpaReplayCounterValid (thirdSm auth st) (incByteArray (incByteArray (.zero 8)))
      = true :=
    List.any_eq_true.mpr ⟨_, List.mem_cons_self, decide_eq_true rfl⟩
  rw [fourth_eq] at hgo hverify ⊢
  exact accepts_frame (w := thirdWorld auth st) rfl hconf rfl rfl (by decide) rfl rfl rfl rfl
    (by decide) hreplay hgo fun _ => hverify

theorem wpaReceive_fourth (h : Ready auth st) :
    wpaReceive (thirdWorld auth st) (fourth auth st) = wpaSmStep (fourthWorld auth st) := by
  have haccepts := accepts_fourth h
  rw [fourth_eq] at haccepts
  have hreceive := wpaReceive_frame (w := thirdWorld auth st) 778 _ (.zero 32) [] _ rfl
    (by decide) rfl haccepts
  rw [← fourth_eq] at hreceive
  exact hreceive

theorem passes_fourth (auth : Auth) (st : Station) :
    Loops.passes smPass passBound (looping (fourthWorld auth st))
      = some { looping (thirdWorld auth st) with
        out := fourthOutputs auth st, sm := { doneSm auth st with inStepLoop := true } } := by
  rw [show passBound = 126 + 1 + 1 from rfl, passes_enter .ptkInitDone _ rfl rfl rfl rfl,
    passes_rest _ rfl rfl]
  rfl

theorem step_fourth (h : Ready auth st) :
    step (thirdWorld auth st) (.receive (fourth auth st), [])
      = ({ thirdWorld auth st with sm := doneSm auth st }, fourthOutputs auth st) := by
  have hloop : wpaReceive (thirdWorld auth st) (fourth auth st)
      = { thirdWorld auth st with out := fourthOutputs auth st, sm := doneSm auth st } := by
    rw [wpaReceive_fourth h]
    exact wpaSmStep_of_passes rfl rfl (passes_fourth auth st)
  show ({ wpaReceive (thirdWorld auth st) (fourth auth st) with out := [] },
    (wpaReceive (thirdWorld auth st) (fourth auth st)).out) = _
  rw [hloop]
  rfl

/-! ## What message 3 says -/

/-- Behind the elements there is nothing, or one padding that fills the last block. -/
theorem paddedKde_cases (kde : List UInt8) :
    ∃ rest, paddedKde kde = kde ++ rest ∧ rest.length ≤ 7 ∧ (kde.length + rest.length) % 8 = 0 ∧
      (rest = [] ∨ ∃ k, rest = 0xdd :: List.replicate k 0) := by
  by_cases hmod : kde.length % 8 = 0
  · refine ⟨[], ?_, by decide, hmod, .inl rfl⟩
    rw [paddedKde]
    simp only [hmod, if_true]
  · refine ⟨0xdd :: List.replicate (8 - kde.length % 8 - 1) 0, ?_, ?_, ?_, .inr ⟨_, rfl⟩⟩
    · rw [paddedKde]
      simp only [hmod, if_false]
      rw [if_neg (by omega)]
    · rw [List.length_cons, List.length_replicate]
      omega
    · rw [List.length_cons, List.length_replicate]
      omega

theorem length_paddedKde (kde : List UInt8) :
    (paddedKde kde).length = 8 * ((paddedKde kde).length / 8) := by
  obtain ⟨rest, heq, -, hmod, -⟩ := paddedKde_cases kde
  rw [heq, List.length_append]
  omega

theorem length_wrapped (kek : Octets 16) (kde : List UInt8) :
    (wrapped kek kde).length = (paddedKde kde).length + 8 := by
  have hlen := length_paddedKde kde
  rw [wrapped, length_aesWrap]
  omega

/-- The key data of message 3 comes out again. -/
theorem aesUnwrap_wrapped (kek : Octets 16) (kde : List UInt8) :
    aesUnwrap kek.1 ((wrapped kek kde).length / 8 - 1) (wrapped kek kde)
      = some (paddedKde kde) := by
  have hlen := length_paddedKde kde
  have hcount : (wrapped kek kde).length / 8 - 1 = (paddedKde kde).length / 8 := by
    rw [length_wrapped]
    omega
  rw [hcount]
  exact aesUnwrap_aesWrap kek.1 hlen

/-- The group key in the key data of message 3. -/
def gtkKde (auth : Auth) : List UInt8 :=
  rsnKeyDataGroupkey ++ [UInt8.ofNat (auth.gn % 4), 0] ++ auth.gtk

theorem thirdKde_eq {body : List UInt8} (hie : auth.wpaIe = 48 :: 20 :: body) :
    thirdKde auth = 48 :: 20 :: (body ++ (0xdd :: UInt8.ofNat (gtkKde auth).length ::
      gtkKde auth)) := by
  have hlength : (gtkKde auth).length = 4 + 2 + auth.gtk.length := by
    rw [gtkKde, List.length_append, List.length_append]
    rfl
  rw [thirdKde, hie, hlength]
  rfl

/-- In the key data of message 3 are the element of the access point and the group key. -/
theorem wpaParseKdeIes_third (h : Ready auth st) :
    wpaParseKdeIes (paddedKde (thirdKde auth)) = some
      { rsnIe := some auth.wpaIe, gtk := some (UInt8.ofNat (auth.gn % 4) :: 0 :: auth.gtk) } := by
  obtain ⟨body, hbody, hie⟩ := h.wpaIe
  obtain ⟨hne, hgtk⟩ := h.gtk
  obtain ⟨rest, hrest, -, -, hpadding⟩ := paddedKde_cases (thirdKde auth)
  have hlength : (gtkKde auth).length = 4 + 2 + auth.gtk.length := by
    rw [gtkKde, List.length_append, List.length_append]
    rfl
  -- the element of the access point, then the group key, then the padding
  have hfirst := parseKdes_cons 48 body
    (0xdd :: UInt8.ofNat (gtkKde auth).length :: (gtkKde auth ++ rest)) {} (by omega)
    (fun h => absurd h.1 (by decide))
  have hsecond := parseKdes_cons 0xdd (gtkKde auth) rest { rsnIe := some auth.wpaIe } (by omega)
    (fun h => List.cons_ne_nil _ _ h.2)
  have hgeneric := wpaParseGeneric_gtk (UInt8.ofNat (auth.gn % 4)) auth.gtk
    (2 + (gtkKde auth).length + rest.length) { rsnIe := some auth.wpaIe } (by omega) hne
  have hlast : ∀ ie, parseKdes rest ie = some ie := fun ie => by
    obtain rfl | ⟨k, rfl⟩ := hpadding
    · exact parseKdes_nil ie
    · exact parseKdes_padding k ie
  have hkde : wpaAddKde rsnKeyDataGroupkey [UInt8.ofNat (auth.gn % 4), 0] auth.gtk
      = 0xdd :: UInt8.ofNat (gtkKde auth).length :: gtkKde auth := by
    rw [hlength]
    rfl
  rw [hbody] at hfirst
  rw [hkde] at hgeneric
  rw [wpaParseKdeIes, hrest, thirdKde_eq hie, List.cons_append, List.cons_append,
    List.append_assoc, List.cons_append, List.cons_append]
  refine hfirst.trans ?_
  rw [if_pos rfl]
  refine (congrArg _ ?_).trans (hsecond.trans ?_)
  · rw [hie]
    rfl
  · rw [if_neg (by decide), if_pos rfl, hgeneric, hlast]

theorem length_thirdKde_le (h : Ready auth st) : (thirdKde auth).length ≤ 62 := by
  obtain ⟨body, hbody, hie⟩ := h.wpaIe
  obtain ⟨-, hgtk⟩ := h.gtk
  rw [thirdKde, hie, wpaAddKde]
  simp only [List.length_append, List.length_cons, List.length_nil, hbody, rsnKeyDataGroupkey]
  omega

/-- A station that knows the pre-shared key comes through the handshake: it is let in with the key
that it has derived itself, and message 3 tells it the element of the access point and the group
key. -/
theorem handshake_completes (w : World) (st : Station) (h : Ready w.auth st) :
    ∃ m1 m3 w1 w2 w3,
      Machine.run step w (untilFirst st) = (w1, [.sendEapol m1 false, .createTimer 100]) ∧
      step w1 (.receive (st.message2 w.auth.ownAddr m1), [])
        = (w2, [.cancelTimer, .cancelTimer, .sendEapol m3 false, .createTimer 100]) ∧
      step w2 (.receive (st.message4 w.auth.ownAddr m1 m3), [])
        = (w3, [.cancelTimer, .cancelTimer, .setKey .ccmp (st.ptk w.auth.ownAddr m1).tk1.1,
            .setAuthorized true]) ∧
      w3.sm.state = .ptkInitDone ∧ wpaVerifyKeyMic (st.ptk w.auth.ownAddr m1) m3 = true ∧
      ∃ plain kde,
        aesUnwrap (st.ptk w.auth.ownAddr m1).kek.1 ((frameKeyData m3).length / 8 - 1)
          (frameKeyData m3) = some plain ∧
        wpaParseKdeIes plain = some kde ∧ kde.rsnIe = some w.auth.wpaIe ∧
        kde.gtk = some (UInt8.ofNat (w.auth.gn % 4) :: 0 :: w.auth.gtk) := by
  have hverify : wpaVerifyKeyMic (sharedPtk w.auth st) (third w.auth st) = true :=
    wpaVerifyKeyMic_signed _ _ _ _ _ _ _ _ (by decide) rfl
  have hlen : (wrapped (sharedPtk w.auth st).kek (thirdKde w.auth)).length < 65536 := by
    obtain ⟨rest, hrest, hle, -, -⟩ := paddedKde_cases (thirdKde w.auth)
    have hthird := length_thirdKde_le h
    rw [length_wrapped, hrest, List.length_append]
    omega
  have hkey : frameKeyData (third w.auth st)
      = wrapped (sharedPtk w.auth st).kek (thirdKde w.auth) :=
    frameKeyData_eapolFrame _ _ _ _ _ _ _ _ _ hlen
  refine ⟨message1 w.auth, third w.auth st, _, _, _, run_untilFirst h, step_second h,
    step_fourth h, rfl,
    hverify, paddedKde (thirdKde w.auth), _, ?_, wpaParseKdeIes_third h, rfl, rfl⟩
  rw [hkey]
  exact aesUnwrap_wrapped _ _

/-- A network with a group key of one byte, and with zeros. -/
def homeAuth : Auth where
  counter := .zero 32
  gn := 1
  gtk := [1]
  psk := .zero 32
  ownAddr := .zero 6
  wpaIe := 48 :: 20 :: List.replicate 20 0
  confWpa := 2
  confWpaGroup := Ap.Cipher.ccmp.bit
  confWpaKeyMgmt := Ap.keyMgmtPsk
  failures := 0

/-- A station in it. -/
def homeStation : Station where
  addr := .zero 6
  psk := .zero 32
  sNonce := .zero 32
  ieBody := ⟨[], by decide⟩

theorem ready_home : Ready homeAuth homeStation where
  confWpa := rfl
  confWpaKeyMgmt := rfl
  psk := rfl
  gtk := ⟨List.cons_ne_nil _ _, by decide⟩
  wpaIe := ⟨List.replicate 20 0, List.length_replicate, rfl⟩

theorem handshake_completes_home :
    ∃ m2 m4, (Machine.run step (World.start homeAuth)
      (untilFirst homeStation ++ [(.receive m2, []), (.receive m4, [])])).1.sm.state
        = .ptkInitDone := by
  obtain ⟨m1, m3, w1, w2, w3, hrun, h2, h4, hstate, -⟩ :=
    handshake_completes (World.start homeAuth) homeStation ready_home
  refine ⟨homeStation.message2 homeAuth.ownAddr m1,
    homeStation.message4 homeAuth.ownAddr m1 m3, ?_⟩
  have h2' : step w1 (.receive (homeStation.message2 homeAuth.ownAddr m1), [])
      = (w2, _) := h2
  have h4' : step w2 (.receive (homeStation.message4 homeAuth.ownAddr m1 m3), [])
      = (w3, _) := h4
  rw [Machine.run_append, hrun, Machine.run_cons, h2', Machine.run_cons, h4']
  exact hstate

end Fullmac.Wpa
