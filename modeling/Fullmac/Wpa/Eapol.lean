import Fullmac.Ap.WpaIe
import Fullmac.Crypto.Hmac
import Fullmac.Crypto.KeyWrap

/-!
# Key frames

Reference: `host/ap/common/wpa_common.h`, `struct wpa_eapol_key`, `struct wpa_ptk`;
`host/ap/common/wpa_common.c`, `wpa_eapol_key_mic`, `wpa_compare_rsn_ie`, `wpa_fixup_wpa_ie_rsn`,
`inc_byte_array`; `host/ap/wpa_auth.c`, `wpa_verify_key_mic`, `wpa_derive_ptk`;
`host/ap/wpa_auth_ie.c`, `wpa_add_kde`, `wpa_parse_generic`, `wpa_parse_kde_ies`;
`host/lib/ssv_lib.c`, `ssv6xxx_memcmp`.

The frames of the 4-way handshake, as lists of bytes from the version field on: what is read from
them, their integrity code, the pairwise key and the elements of the key data. The hash and the
pseudo-random function stand for the code that computes them (`Crypto.hmacSha1Vector_eq`,
`Crypto.sha1Prf_eq`).
-/

namespace Fullmac.Wpa

open Fullmac.Crypto

/-! ## Arrays of bytes -/

/-- `u8[n]`. -/
abbrev Octets (n : ℕ) := {l : List UInt8 // l.length = n}

/-- `os_memset(.., 0, ..)`. -/
def Octets.zero (n : ℕ) : Octets n := ⟨List.replicate n 0, List.length_replicate⟩

instance (n : ℕ) : Inhabited (Octets n) := ⟨.zero n⟩

/-- The `n` bytes of `data` from `off` on. -/
def octetsAt (data : List UInt8) (off n : ℕ) : Octets n :=
  ⟨(List.range n).map fun k => data.getD (off + k) 0, by rw [List.length_map, List.length_range]⟩

/-- `WPA_GET_BE16`. -/
def getBe16 (data : List UInt8) (off : ℕ) : ℕ :=
  256 * (data.getD off 0).toNat + (data.getD (off + 1) 0).toNat

/-- The bytes of `WPA_PUT_BE16`. -/
def putBe16 (v : ℕ) : List UInt8 := [UInt8.ofNat (v / 256), UInt8.ofNat v]

/-- The loop of `inc_byte_array`, with the last byte in front. -/
def incBytes : List UInt8 → List UInt8
  | [] => []
  | b :: bs => if b + 1 = 0 then 0 :: incBytes bs else (b + 1) :: bs

theorem length_incBytes (bs : List UInt8) : (incBytes bs).length = bs.length := by
  induction bs with
  | nil => rfl
  | cons b bs ih =>
    rw [incBytes]
    split
    · rw [List.length_cons, ih, List.length_cons]
    · rfl

/-- `inc_byte_array`. -/
def incByteArray {n : ℕ} (counter : Octets n) : Octets n :=
  ⟨(incBytes counter.1.reverse).reverse, by
    rw [List.length_reverse, length_incBytes, List.length_reverse, counter.2]⟩

/-- `ssv6xxx_memcmp` of arrays of one length. -/
def memcmp : List UInt8 → List UInt8 → ℤ
  | a :: as, b :: bs => if a = b then memcmp as bs else a.toNat - b.toNat
  | _, _ => 0

/-! ## Fields -/

/-- The bits of `key_info`, by their numbers. -/
abbrev KeyInfo := ℕ

namespace KeyInfo

/-- `WPA_KEY_INFO_KEY_TYPE`: pairwise. -/
def keyType : ℕ := 3

/-- `WPA_KEY_INFO_INSTALL`. -/
def install : ℕ := 6

/-- `WPA_KEY_INFO_ACK`. -/
def ack : ℕ := 7

/-- `WPA_KEY_INFO_MIC`. -/
def mic : ℕ := 8

/-- `WPA_KEY_INFO_SECURE`. -/
def secure : ℕ := 9

/-- `WPA_KEY_INFO_ERROR`. -/
def error : ℕ := 10

/-- `WPA_KEY_INFO_REQUEST`. -/
def request : ℕ := 11

/-- `WPA_KEY_INFO_ENCR_KEY_DATA`. -/
def encrKeyData : ℕ := 12

/-- `WPA_KEY_INFO_SMK_MESSAGE`. -/
def smkMessage : ℕ := 13

/-- `WPA_KEY_INFO_TYPE_HMAC_MD5_RC4`. -/
def typeHmacMd5Rc4 : ℕ := 1

/-- `WPA_KEY_INFO_TYPE_HMAC_SHA1_AES`. -/
def typeHmacSha1Aes : ℕ := 2

end KeyInfo

/-- `sizeof(*hdr) + sizeof(*key)`. -/
def headerLen : ℕ := 99

/-- `key->type`. -/
def frameType (data : List UInt8) : UInt8 := data.getD 4 0

/-- `key->key_info`. -/
def frameKeyInfo (data : List UInt8) : KeyInfo := getBe16 data 5

/-- `key->replay_counter`. -/
def frameReplayCounter (data : List UInt8) : Octets 8 := octetsAt data 9 8

/-- `key->key_nonce`. -/
def frameNonce (data : List UInt8) : Octets 32 := octetsAt data 17 32

/-- `key->key_mic`. -/
def frameMic (data : List UInt8) : Octets 16 := octetsAt data 81 16

/-- `key->key_data_length`. -/
def frameKeyDataLength (data : List UInt8) : ℕ := getBe16 data 97

/-- The key data. -/
def frameKeyData (data : List UInt8) : List UInt8 :=
  (data.drop headerLen).take (frameKeyDataLength data)

/-- The frame with another integrity code. -/
def setMic (data : List UInt8) (mic : Octets 16) : List UInt8 :=
  data.take 81 ++ mic.1 ++ data.drop 97

/-- The bytes of a frame, as `__wpa_send_eapol` puts them together. -/
def eapolFrame (type : UInt8) (keyInfo keyLen : ℕ) (replayCounter : Octets 8) (nonce : Octets 32)
    (iv : Octets 16) (rsc : Octets 8) (mic : Octets 16) (keyData : List UInt8) : List UInt8 :=
  [1, 3] ++ putBe16 (95 + keyData.length) ++ [type] ++ putBe16 keyInfo ++ putBe16 keyLen ++
    replayCounter.1 ++ nonce.1 ++ iv.1 ++ rsc.1 ++ (Octets.zero 8).1 ++ mic.1 ++
    putBe16 keyData.length ++ keyData

/-! ## Keys -/

/-- `struct wpa_ptk`. -/
structure Ptk where
  kck : Octets 16
  kek : Octets 16
  tk1 : Octets 16
deriving DecidableEq, Repr

/-- A key that has been wiped. -/
def Ptk.zero : Ptk := ⟨.zero 16, .zero 16, .zero 16⟩

instance : Inhabited Ptk := ⟨.zero⟩

/-- `wpa_eapol_key_mic`. -/
def wpaEapolKeyMic (key : Octets 16) (ver : ℕ) (buf : List UInt8) : Option (Octets 16) :=
  if ver = KeyInfo.typeHmacSha1Aes then some (octetsAt (Fips.hmac key.1 buf) 0 16) else none

/-- `wpa_verify_key_mic`: whether the integrity code of a frame is right. -/
def wpaVerifyKeyMic (ptk : Ptk) (data : List UInt8) : Bool :=
  if data.length < headerLen then false
  else
    match wpaEapolKeyMic ptk.kck (frameKeyInfo data % 8) (setMic data (.zero 16)) with
    | none => false
    | some mic => mic == frameMic data

/-- The label of the pairwise key. -/
def pairwiseKeyExpansion : List UInt8 :=
  "Pairwise key expansion".toList.map fun c => UInt8.ofNat c.toNat

/-- Two arrays, the smaller one first. -/
def sorted (a b : List UInt8) : List UInt8 := if memcmp a b < 0 then a ++ b else b ++ a

/-- `wpa_derive_ptk`; what is written behind the structure for another cipher than CCMP is left
out. -/
def wpaDerivePtk (pairwise : ℕ) (pmk : Octets 32) (ownAddr addr : Octets 6)
    (aNonce sNonce : Octets 32) : Ptk :=
  let ptkLen := if pairwise = Ap.Cipher.ccmp.bit then 48 else 64
  let out := Fips.prf pmk.1 pairwiseKeyExpansion
    (sorted ownAddr.1 addr.1 ++ sorted aNonce.1 sNonce.1) ptkLen
  { kck := octetsAt out 0 16, kek := octetsAt out 16 16, tk1 := octetsAt out 32 16 }

/-! ## Elements of the key data -/

/-- `WPA_OUI_TYPE`. -/
def wpaOuiType : List UInt8 := [0x00, 0x50, 0xf2, 1]

/-- `RSN_KEY_DATA_GROUPKEY`. -/
def rsnKeyDataGroupkey : List UInt8 := [0x00, 0x0f, 0xac, 1]

/-- `RSN_KEY_DATA_MAC_ADDR`. -/
def rsnKeyDataMacAddr : List UInt8 := [0x00, 0x0f, 0xac, 3]

/-- `RSN_KEY_DATA_PMKID`. -/
def rsnKeyDataPmkid : List UInt8 := [0x00, 0x0f, 0xac, 4]

/-- The bytes that `wpa_add_kde` writes. -/
def wpaAddKde (kde data data2 : List UInt8) : List UInt8 :=
  0xdd :: UInt8.ofNat (4 + data.length + data2.length) :: kde ++ data ++ data2

/-- `struct wpa_eapol_ie_parse`, the fields that a parser sets, each with its bytes. -/
structure WpaEapolIeParse where
  wpaIe : Option (List UInt8) := none
  rsnIe : Option (List UInt8) := none
  pmkid : Option (List UInt8) := none
  gtk : Option (List UInt8) := none
  macAddr : Option (List UInt8) := none
deriving DecidableEq, Repr

/-- `wpa_parse_generic` of an element that is in the buffer and not empty; `left` is the number of
bytes from the element to the end of the buffer. -/
def wpaParseGeneric (elem : List UInt8) (left : ℕ) (ie : WpaEapolIeParse) : WpaEapolIeParse :=
  let len := (elem.getD 1 0).toNat
  let selector := (elem.drop 2).take 4
  if 6 ≤ len ∧ selector = wpaOuiType ∧ elem.getD 6 0 = 1 ∧ elem.getD 7 0 = 0 then
    { ie with wpaIe := some elem }
  else if 5 < left ∧ 20 ≤ len ∧ selector = rsnKeyDataPmkid then
    { ie with pmkid := some ((elem.drop 6).take 16) }
  else if 6 < len ∧ selector = rsnKeyDataGroupkey then { ie with gtk := some (elem.drop 6) }
  else if 6 < len ∧ selector = rsnKeyDataMacAddr then { ie with macAddr := some (elem.drop 6) }
  else ie

/-- The loop of `wpa_parse_kde_ies` over what is left of the key data. -/
def parseKdes (buf : List UInt8) (ie : WpaEapolIeParse) : Option WpaEapolIeParse :=
  if 1 < buf.length then
    let id := buf.getD 0 0
    let len := (buf.getD 1 0).toNat
    if id = 0xdd ∧ len = 0 then some ie
    else if buf.length < 2 + len then none
    else
      let elem := buf.take (2 + len)
      let ie :=
        if id = 48 then { ie with rsnIe := some elem }
        else if id = 0xdd then wpaParseGeneric elem buf.length ie
        else ie
      parseKdes (buf.drop (2 + len)) ie
  else some ie
termination_by buf.length
decreasing_by rw [List.length_drop]; omega

/-- `wpa_parse_kde_ies`. -/
def wpaParseKdeIes (buf : List UInt8) : Option WpaEapolIeParse := parseKdes buf {}

/-- The bytes of `getD` as a number, the low one first (`WPA_GET_LE16`). -/
def getLe16 (data : List UInt8) (off : ℕ) : ℕ :=
  256 * (data.getD (off + 1) 0).toNat + (data.getD off 0).toNat

/-- Where the capabilities of an RSN element are, if they are inside: behind the two counted lists
of suites that `wpa_fixup_wpa_ie_rsn` skips. -/
def rsnCapabilitiesAt (msgIe : List UInt8) (len : ℕ) : Option ℕ :=
  let pos := 8
  if len < pos + 2 then none
  else
    let pos := pos + (2 + getLe16 msgIe pos * 4)
    if len < pos + 2 then none
    else
      let pos := pos + (2 + getLe16 msgIe pos * 4)
      if len < pos + 2 then none else some pos

/-- `wpa_fixup_wpa_ie_rsn`: capabilities that were zero are taken from the other element. -/
def wpaFixupWpaIeRsn (assocIe msgIe : List UInt8) (len : ℕ) : List UInt8 :=
  match rsnCapabilitiesAt msgIe len with
  | none => assocIe
  | some pos =>
    if assocIe.getD pos 0 = 0 ∧ assocIe.getD (pos + 1) 0 = 0 ∧
        (msgIe.getD pos 0 ≠ 0 ∨ msgIe.getD (pos + 1) 0 ≠ 0) then
      (assocIe.set pos (msgIe.getD pos 0)).set (pos + 1) (msgIe.getD (pos + 1) 0)
    else assocIe

/-- `wpa_compare_rsn_ie`, whether it answers zero; `room` is whether there is memory for the
copy. -/
def wpaCompareRsnIe (ie1 ie2 : Option (List UInt8)) (room : Bool) : Bool :=
  match ie1, ie2 with
  | some ie1, some ie2 =>
    if ie1.length = ie2.length then
      ie1 = ie2 || (room && wpaFixupWpaIeRsn ie1 ie2 ie1.length = ie2)
    else false
  | _, _ => false

/-! ## What a frame holds -/

theorem octetsAt_congr {l l' : List UInt8} {off off' n : ℕ}
    (h : ∀ k, k < n → l.getD (off + k) 0 = l'.getD (off' + k) 0) :
    octetsAt l off n = octetsAt l' off' n :=
  Subtype.ext (List.map_congr_left fun k hk => h k (List.mem_range.mp hk))

/-- Bytes in front are skipped. -/
theorem octetsAt_skip {a l : List UInt8} {off n : ℕ} (h : a.length ≤ off) :
    octetsAt (a ++ l) off n = octetsAt l (off - a.length) n := by
  refine octetsAt_congr fun i _ => ?_
  rw [List.getD_append_right _ _ _ _ (by omega)]
  congr 1
  omega

/-- An array at the beginning. -/
theorem octetsAt_here {n : ℕ} (x : Octets n) (l : List UInt8) : octetsAt (x.1 ++ l) 0 n = x := by
  apply Subtype.ext
  apply List.ext_getElem
  · rw [(octetsAt _ _ _).2, x.2]
  · intro i hi hi'
    have hn : i < n := by rwa [(octetsAt _ _ _).2] at hi
    simp only [octetsAt, List.getElem_map, List.getElem_range]
    rw [Nat.zero_add, List.getD_append _ _ _ _ hi', List.getD_eq_getElem?_getD,
      List.getElem?_eq_getElem hi', Option.getD_some]

/-- The integrity code is behind the fields that are looked at. -/
theorem octetsAt_setMic {data : List UInt8} (mic : Octets 16) {off n : ℕ} (h : off + n ≤ 81)
    (hdata : 81 ≤ data.length) : octetsAt (setMic data mic) off n = octetsAt data off n := by
  refine octetsAt_congr fun k hk => ?_
  have htake : (data.take 81).length = 81 := List.length_take_of_le hdata
  rw [setMic, List.append_assoc, List.getD_append _ _ _ _ (by omega), List.getD_eq_getElem?_getD,
    List.getElem?_take_of_lt (by omega), ← List.getD_eq_getElem?_getD]

theorem getBe16_eq {v : ℕ} (h : v < 65536) (data : List UInt8) (off : ℕ)
    (h0 : data.getD off 0 = UInt8.ofNat (v / 256)) (h1 : data.getD (off + 1) 0 = UInt8.ofNat v) :
    getBe16 data off = v := by
  rw [getBe16, h0, h1, UInt8.toNat_ofNat', UInt8.toNat_ofNat']
  omega

section Frame

variable (type : UInt8) (keyInfo keyLen : ℕ) (counter : Octets 8) (nonce : Octets 32)
  (iv : Octets 16) (rsc : Octets 8) (mic : Octets 16) (keyData : List UInt8)

theorem length_eapolFrame :
    (eapolFrame type keyInfo keyLen counter nonce iv rsc mic keyData).length
      = headerLen + keyData.length := by
  simp only [eapolFrame, List.length_append, counter.2, nonce.2, iv.2, rsc.2, mic.2,
    (Octets.zero 8).2, putBe16, List.length_cons, List.length_nil, headerLen]

theorem length_putBe16 (v : ℕ) : (putBe16 v).length = 2 := rfl

theorem frameReplayCounter_eapolFrame :
    frameReplayCounter (eapolFrame type keyInfo keyLen counter nonce iv rsc mic keyData)
      = counter := by
  simp only [frameReplayCounter, eapolFrame, List.append_assoc]
  simp (disch := simp only [List.length_cons, List.length_nil, length_putBe16]; decide) only
    [octetsAt_skip, List.length_cons, List.length_nil, length_putBe16]
  exact octetsAt_here _ _

/-- The fields in front of the integrity code. -/
def eapolFields (len : ℕ) : List UInt8 :=
  [1, 3] ++ putBe16 (95 + len) ++ [type] ++ putBe16 keyInfo ++ putBe16 keyLen ++
    counter.1 ++ nonce.1 ++ iv.1 ++ rsc.1 ++ (Octets.zero 8).1

theorem length_eapolFields (len : ℕ) :
    (eapolFields type keyInfo keyLen counter nonce iv rsc len).length = 81 := by
  simp only [eapolFields, List.length_append, counter.2, nonce.2, iv.2, rsc.2,
    (Octets.zero 8).2, length_putBe16, List.length_cons, List.length_nil]

theorem eapolFrame_eq : eapolFrame type keyInfo keyLen counter nonce iv rsc mic keyData
    = eapolFields type keyInfo keyLen counter nonce iv rsc keyData.length ++
      (mic.1 ++ (putBe16 keyData.length ++ keyData)) := by
  simp only [eapolFrame, eapolFields, List.append_assoc]

theorem setMic_eapolFrame (mic' : Octets 16) :
    setMic (eapolFrame type keyInfo keyLen counter nonce iv rsc mic keyData) mic'
      = eapolFrame type keyInfo keyLen counter nonce iv rsc mic' keyData := by
  have hlen := length_eapolFields type keyInfo keyLen counter nonce iv rsc keyData.length
  rw [eapolFrame_eq, eapolFrame_eq, setMic, List.take_left' hlen,
    show 97 = 81 + 16 by rfl, ← List.drop_drop, List.drop_left' hlen, List.drop_left' mic.2,
    List.append_assoc]

theorem frameMic_eapolFrame :
    frameMic (eapolFrame type keyInfo keyLen counter nonce iv rsc mic keyData) = mic := by
  have hlen := length_eapolFields type keyInfo keyLen counter nonce iv rsc keyData.length
  rw [frameMic, eapolFrame_eq, octetsAt_skip (by rw [hlen]), hlen]
  exact octetsAt_here mic _

theorem frameNonce_eapolFrame :
    frameNonce (eapolFrame type keyInfo keyLen counter nonce iv rsc mic keyData) = nonce := by
  simp only [frameNonce, eapolFrame, List.append_assoc]
  simp (disch := simp only [List.length_cons, List.length_nil, length_putBe16, counter.2]; decide)
    only [octetsAt_skip, List.length_cons, List.length_nil, length_putBe16, counter.2]
  exact octetsAt_here _ _

theorem frameType_eapolFrame :
    frameType (eapolFrame type keyInfo keyLen counter nonce iv rsc mic keyData) = type := rfl

theorem frameKeyInfo_eapolFrame (h : keyInfo < 65536) :
    frameKeyInfo (eapolFrame type keyInfo keyLen counter nonce iv rsc mic keyData) = keyInfo :=
  getBe16_eq h _ _ rfl rfl

theorem frameKeyDataLength_eapolFrame (h : keyData.length < 65536) : frameKeyDataLength
    (eapolFrame type keyInfo keyLen counter nonce iv rsc mic keyData) = keyData.length := by
  have hlen := length_eapolFields type keyInfo keyLen counter nonce iv rsc keyData.length
  have hat : ∀ k, (eapolFrame type keyInfo keyLen counter nonce iv rsc mic keyData).getD (97 + k) 0
      = (putBe16 keyData.length ++ keyData).getD k 0 := fun k => by
    rw [eapolFrame_eq, List.getD_append_right _ _ _ _ (by omega), hlen,
      List.getD_append_right _ _ _ _ (by rw [mic.2]; omega), mic.2]
    congr 1
    omega
  exact getBe16_eq h _ _ (hat 0) (hat 1)

theorem frameKeyData_eapolFrame (h : keyData.length < 65536) : frameKeyData
    (eapolFrame type keyInfo keyLen counter nonce iv rsc mic keyData) = keyData := by
  have hlen := length_eapolFields type keyInfo keyLen counter nonce iv rsc keyData.length
  rw [frameKeyData, frameKeyDataLength_eapolFrame _ _ _ _ _ _ _ _ _ h, eapolFrame_eq, headerLen,
    show 99 = 81 + 16 + 2 by rfl, ← List.drop_drop, ← List.drop_drop, List.drop_left' hlen,
    List.drop_left' mic.2, List.drop_left' (length_putBe16 _), List.take_length]

end Frame

/-! ## Elements one behind the other -/

/-- An element in front of others. -/
theorem parseKdes_cons (id : UInt8) (body rest : List UInt8) (ie : WpaEapolIeParse)
    (hlen : body.length < 256) (hend : ¬ (id = 0xdd ∧ body = [])) :
    parseKdes (id :: UInt8.ofNat body.length :: (body ++ rest)) ie = parseKdes rest
      (if id = 48 then { ie with rsnIe := some (id :: UInt8.ofNat body.length :: body) }
      else if id = 0xdd then
        wpaParseGeneric (id :: UInt8.ofNat body.length :: body) (2 + body.length + rest.length) ie
      else ie) := by
  have hnat : (UInt8.ofNat body.length).toNat = body.length := by
    rw [UInt8.toNat_ofNat']
    omega
  have hlength : (id :: UInt8.ofNat body.length :: (body ++ rest)).length
      = 2 + body.length + rest.length := by
    simp only [List.length_cons, List.length_append]
    omega
  have hid : (id :: UInt8.ofNat body.length :: (body ++ rest)).getD 0 0 = id := rfl
  have hbyte : (id :: UInt8.ofNat body.length :: (body ++ rest)).getD 1 0
      = UInt8.ofNat body.length := rfl
  have htake : (id :: UInt8.ofNat body.length :: (body ++ rest)).take (2 + body.length)
      = id :: UInt8.ofNat body.length :: body := by
    rw [show 2 + body.length = body.length + 1 + 1 by omega, List.take_succ_cons,
      List.take_succ_cons, List.take_left]
  have hdrop : (id :: UInt8.ofNat body.length :: (body ++ rest)).drop (2 + body.length) = rest := by
    rw [show 2 + body.length = body.length + 1 + 1 by omega, List.drop_succ_cons,
      List.drop_succ_cons, List.drop_left]
  have hnotend : ¬ (id = 0xdd ∧ body.length = 0) := fun h =>
    hend ⟨h.1, List.length_eq_zero_iff.mp h.2⟩
  rw [parseKdes, if_pos (by rw [hlength]; omega)]
  simp only [hid, hbyte, hnat, htake, hdrop, hlength]
  rw [if_neg hnotend, if_neg (by omega)]

/-- Nothing, or the padding for `aes_wrap`. -/
theorem parseKdes_padding (k : ℕ) (ie : WpaEapolIeParse) :
    parseKdes (0xdd :: List.replicate k 0) ie = some ie := by
  cases k with
  | zero => rw [parseKdes, if_neg (by simp)]
  | succ k =>
    rw [parseKdes, if_pos (by simp)]
    exact if_pos ⟨rfl, rfl⟩

theorem parseKdes_nil (ie : WpaEapolIeParse) : parseKdes [] ie = some ie := by
  rw [parseKdes, if_neg (by simp)]

/-- The element of a group key. -/
theorem wpaParseGeneric_gtk (index : UInt8) (gtk : List UInt8) (left : ℕ) (ie : WpaEapolIeParse)
    (hlen : gtk.length < 250) (hne : gtk ≠ []) :
    wpaParseGeneric (wpaAddKde rsnKeyDataGroupkey [index, 0] gtk) left ie
      = { ie with gtk := some (index :: 0 :: gtk) } := by
  have hpos : 0 < gtk.length := List.length_pos_iff.mpr hne
  have hnat : ((wpaAddKde rsnKeyDataGroupkey [index, 0] gtk).getD 1 0).toNat = 6 + gtk.length := by
    show (UInt8.ofNat (4 + 2 + gtk.length)).toNat = _
    rw [UInt8.toNat_ofNat']
    omega
  have hselector : ((wpaAddKde rsnKeyDataGroupkey [index, 0] gtk).drop 2).take 4
      = rsnKeyDataGroupkey := rfl
  rw [wpaParseGeneric]
  simp only [hnat, hselector]
  rw [if_neg (fun h => absurd h.2.1 (by decide)), if_neg (fun h => absurd h.2.2 (by decide)),
    if_pos ⟨by omega, trivial⟩]
  rfl

end Fullmac.Wpa
