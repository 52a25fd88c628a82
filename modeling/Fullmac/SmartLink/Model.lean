import Fullmac.Lib.Bytes
import Mathlib.Data.Nat.Bitwise
import Mathlib.Logic.Function.Iterate

/-!
# The SmartLink decoder (`smartConf.c`)

A phone that knows the network but is not connected to the device broadcasts frames whose *lengths*
carry the SSID and the password; the device sees the lengths of encrypted frames and decodes them.
`rxProcessSmartConf` handles one frame. The decoder keeps one `Chan` for each direction a frame can
be seen in (`AP_MODE`, `PHONE_MODE`): it first looks for four lengths that go up by one
(`checkBaseLen`), the first of which is the base, and from then on takes a length of at least the
base plus 256 as a sequence number (`checkSeqSetPacket`) and a shorter one as a data byte
(`checkCrcWithSaveData`). Both are exclusive-ored with a fixed ARC4 key stream. A byte is stored
when the *next* sequence number arrives, so that the last one, a CRC-8, is never stored.

The fields `seqData`, `NumSeq`, `crcData` and `decrypValue` of `smart_control` are written before
they are read in every call; they are local here. The timers, the debug output and the fields no
function reads are left out.
-/

namespace Fullmac.SmartLink

open Bytes (Mem copy slice)

/-! ## Key stream and check sum -/

/-- `struct arc4_ctx`: the permutation and the two indices. -/
structure Arc4Ctx where
  i : ℕ
  j : ℕ
  state : List UInt8

/-- `SWAP`. -/
def swap (S : List UInt8) (i j : ℕ) : List UInt8 := (S.set i (S.getD j 0)).set j (S.getD i 0)

/-- One round of the loop of `arc4_setkey`. -/
def arc4SetkeyStep (key : List UInt8) (jS : ℕ × List UInt8) (i : ℕ) : ℕ × List UInt8 :=
  let j := (jS.1 + (jS.2.getD i 0).toNat + (key.getD (i % key.length) 0).toNat) % 256
  (j, swap jS.2 i j)

/-- `arc4_setkey`. -/
def arc4Setkey (key : List UInt8) : Arc4Ctx where
  i := 0
  j := 0
  state := ((List.range 256).foldl (arc4SetkeyStep key)
    (0, (List.range 256).map UInt8.ofNat)).2

/-- `arc4_xor`: the output for the bytes of `src`. -/
def arc4Xor : Arc4Ctx → List UInt8 → List UInt8
  | _, [] => []
  | ctx, b :: src =>
    let i := (ctx.i + 1) % 256
    let j := (ctx.j + (ctx.state.getD i 0).toNat) % 256
    let S := swap ctx.state i j
    (b ^^^ S.getD (((S.getD i 0).toNat + (S.getD j 0).toNat) % 256) 0)
      :: arc4Xor { i, j, state := S } src

/-- One bit of `crc8_msb`. -/
def crc8Bit (poly crc : UInt8) : UInt8 :=
  if crc &&& 0x80 ≠ 0 then (crc <<< 1) ^^^ poly else crc <<< 1

/-- `crc8_msb`. -/
def crc8Msb (poly : UInt8) (data : List UInt8) : UInt8 :=
  data.foldl (fun crc d => (crc8Bit poly)^[8] (crc ^^^ d)) 0

/-- `ssv6xxx_strncpy`: what is written when `n` bytes are copied from `src`, NUL padded. -/
def strncpy : List UInt8 → List UInt8
  | [] => []
  | b :: src => b :: if b = 0 then src.map fun _ => 0 else strncpy src

/-! ## State -/

/-- `poly`. -/
def poly : UInt8 := 0x1D

/-- `magicNum`, the text `iot`. -/
def magicNum : List UInt8 := [0x69, 0x6f, 0x74]

/-- `rc4Key`, the text `Key`. -/
def rc4Key : List UInt8 := [0x4b, 0x65, 0x79]

/-- `enum CMD_NUM`: what `smart_state` holds. -/
inductive CmdNum
  | start | info | ssidPassData | apListCheck | done | check
deriving DecidableEq, Repr

/-- The numbers of `enum CMD_NUM`. -/
def CmdNum.val : CmdNum → ℕ
  | .start => 0
  | .info => 1
  | .ssidPassData => 2
  | .apListCheck => 3
  | .done => 4
  | .check => 255

/-- `AP_MODE` and `PHONE_MODE`, the index `type` of every two-element array. -/
inductive Mode
  | ap | phone
deriving DecidableEq, Repr

/-- The entries of `smart_control` and `smart_state` for one mode. In `backData`, `none` is the
clear value `0xffff`, which no received byte equals. -/
structure Chan where
  state : CmdNum
  backData : Option UInt8
  backSeq : UInt8
  ssidLen : UInt8
  passLen : UInt8
  cmdNumLen : UInt8
  baseLenBufCount : UInt8
  /-- Five bytes in the source. -/
  checkBaseLenBuf : Mem
  /-- `CMD_DATA_MAX_LEN` = 256 bytes in the source. -/
  packet : Mem
  phoneIP : List UInt8
  phoneMAC : List UInt8

/-- The fields of `AP_DETAIL_INFO` that the decoder writes. In the source `ssid` has 32 bytes and
`key` has 64; a longer copy runs into what lies behind, which is not modelled. -/
structure ApDetailInfo where
  ssid : Mem
  ssidLen : UInt8
  key : Mem
  keyLen : UInt8

/-- `recePhone`, `gwifistatus` and the phone's addresses in `smart`. -/
structure Decoder where
  chan : Mode → Chan
  sonkey : Mem
  connAP : ApDetailInfo
  phoneIP : List UInt8
  phoneMAC : List UInt8

/-- What `rx_process_smartConf` is given: the length of the frame, its direction and the two
addresses that are copied from its header. -/
structure Frame where
  rxLen : ℕ
  fromDS : Bool
  addr1 : List UInt8
  addr2 : List UInt8
deriving Repr

/-- Replace the entries of one mode. -/
def Decoder.setChan (s : Decoder) (type : Mode) (c : Chan) : Decoder :=
  { s with chan := Function.update s.chan type c }

@[simp] theorem Decoder.setChan_chan_self (s : Decoder) (type : Mode) (c : Chan) :
    (s.setChan type c).chan type = c := by simp [setChan]

@[simp] theorem Decoder.setChan_chan_of_ne (s : Decoder) {type type' : Mode} (c : Chan)
    (h : type' ≠ type) : (s.setChan type c).chan type' = s.chan type' := by simp [setChan, h]

@[simp] theorem Decoder.setChan_sonkey (s : Decoder) (type : Mode) (c : Chan) :
    (s.setChan type c).sonkey = s.sonkey := rfl

@[simp] theorem Decoder.setChan_connAP (s : Decoder) (type : Mode) (c : Chan) :
    (s.setChan type c).connAP = s.connAP := rfl

/-! ## Base length -/

/-- The two memsets of `checkBaseLen` with the counter. -/
def Chan.clearBase (c : Chan) : Chan :=
  { c with checkBaseLenBuf := fun _ => 0, baseLenBufCount := 0 }

/-- The test of the last loop of `checkBaseLen`: the first four lengths go up by one. -/
def goesUp (buf : Mem) : Prop := ∀ i < 3, (buf (i + 1)).toNat = (buf i).toNat + 1

instance (buf : Mem) : Decidable (goesUp buf) :=
  inferInstanceAs (Decidable (∀ i < 3, (buf (i + 1)).toNat = (buf i).toNat + 1))

/-- The end of `checkBaseLen`: store the length and see whether four are there. -/
def storeBase (c : Chan) (value : UInt8) : Chan :=
  let count := c.baseLenBufCount
  let buf := Function.update c.checkBaseLenBuf count.toNat value
  let c := { c with checkBaseLenBuf := buf
                    baseLenBufCount := UInt8.ofNat ((count.toNat + 1) % 5) }
  if goesUp buf then { c with baseLenBufCount := 6, state := .start }
  else if 4 ≤ count.toNat then { c with checkBaseLenBuf := fun _ => 0 }
  else c

/-- `checkBaseLen`. When `count` is zero the source also reads the byte at index `-1`, but does
nothing with it. -/
def checkBaseLen (c : Chan) (value : UInt8) : Chan :=
  let c := if value ≤ c.checkBaseLenBuf 0 then c.clearBase else c
  let count := c.baseLenBufCount
  let lastBufVal := c.checkBaseLenBuf (count.toNat - 1)
  if 0 < count ∧ lastBufVal = value then c
  else if 0 < count ∧ value.toNat ≠ lastBufVal.toNat + 1 then c.clearBase
  else storeBase c value

/-! ## Commands -/

/-- `decryption`. -/
def decryption (sonkey : Mem) (value num : UInt8) : UInt8 := value ^^^ sonkey num.toNat

/-- `decryptionSeq`. -/
def decryptionSeq (sonkey : Mem) (value : UInt8) : UInt8 := value ^^^ sonkey 0

/-- `setCmdLen`: how many bytes the command at hand has, its CRC-8 included. -/
def setCmdLen (c : Chan) : Chan :=
  match c.state with
  | .start => { c with cmdNumLen := UInt8.ofNat (magicNum.length + 1) }
  | .info => { c with cmdNumLen := 1 + 1 + 1 + 4 }
  | .ssidPassData => { c with cmdNumLen := c.ssidLen + c.passLen + 1 }
  | .apListCheck | .done | .check => c

/-- The byte that `checkSeqSetPacket` stores, if the sequence number follows the last one. -/
def storeBack (sonkey : Mem) (c : Chan) (numSeq : ℕ) : Mem :=
  match c.backData with
  | some d =>
    if numSeq = c.backSeq.toNat + 1 then
      Function.update c.packet c.backSeq.toNat (decryption sonkey d c.backSeq)
    else c.packet
  | none => c.packet

/-- `checkSeqSetPacket`. -/
def checkSeqSetPacket (sonkey : Mem) (c : Chan) (cmdValue : UInt8) : Chan :=
  let cmdNum := c.state.val
  let seqData := (decryptionSeq sonkey cmdValue).toNat
  let numSeq := seqData >>> cmdNum
  if seqData &&& cmdNum = cmdNum ∧ numSeq ≤ c.cmdNumLen.toNat then
    { c with packet := storeBack sonkey c numSeq
             backSeq := UInt8.ofNat numSeq
             backData := none }
  else { c with backSeq := c.cmdNumLen + 1, backData := none }

/-- The first branch of `checkCrcWithSaveData`: keep the byte, or lose the sequence when two bytes
come in a row. -/
def saveData (c : Chan) (cmdValue : UInt8) : Chan :=
  match c.backData with
  | some _ => { c with backSeq := c.cmdNumLen + 1 }
  | none => { c with backData := some cmdValue }

/-- The test for the end of a command: the byte kept is the one behind the data, and it is their
CRC-8. -/
def crcMatches (sonkey : Mem) (c : Chan) : Prop :=
  c.backSeq.toNat + 1 = c.cmdNumLen.toNat ∧
    crc8Msb poly (slice c.packet 0 (c.cmdNumLen.toNat - 1))
      = decryption sonkey (c.backData.getD 0xff) c.backSeq

instance (sonkey : Mem) (c : Chan) : Decidable (crcMatches sonkey c) :=
  inferInstanceAs (Decidable (_ ∧ _))

/-- The start command is complete: the magic number decides. -/
def endStart (c : Chan) : Chan :=
  if slice c.packet 0 magicNum.length = magicNum then
    { c with state := .info, backSeq := 0, backData := none, packet := fun _ => 0 }
  else c

/-- The information command is complete: the lengths and the phone's addresses are taken. -/
def endInfo (c : Chan) (type : Mode) (f : Frame) : Chan :=
  { c with state := .ssidPassData
           backSeq := 0
           backData := none
           ssidLen := c.packet 0
           passLen := c.packet 1
           phoneIP := slice c.packet 2 4
           phoneMAC := match type with
             | .phone => f.addr2
             | .ap => f.addr1
           packet := fun _ => 0 }

/-- The data command is complete: SSID and password go to `connAP`, both modes stop. -/
def endData (s : Decoder) (type : Mode) : Decoder :=
  let c := s.chan type
  { s with
    chan := fun m =>
      if m = type then
        { c with state := .done, backData := none, baseLenBufCount := 0, packet := fun _ => 0 }
      else { s.chan m with state := .apListCheck, packet := fun _ => 0 }
    connAP :=
      { ssid := copy s.connAP.ssid 0 (slice c.packet 0 c.ssidLen.toNat)
        ssidLen := c.ssidLen
        key := copy s.connAP.key 0 (strncpy (slice c.packet c.ssidLen.toNat c.passLen.toNat))
        keyLen := c.passLen }
    phoneIP := c.phoneIP
    phoneMAC := c.phoneMAC }

/-- The branches of `checkCrcWithSaveData` behind a matching CRC-8. -/
def endCmd (s : Decoder) (type : Mode) (f : Frame) : Decoder :=
  let c := s.chan type
  match c.state with
  | .start => s.setChan type (endStart c)
  | .info => s.setChan type (endInfo c type f)
  | .ssidPassData => endData s type
  | .apListCheck | .done | .check => s

/-- `checkCrcWithSaveData`. -/
def checkCrcWithSaveData (s : Decoder) (type : Mode) (f : Frame) (cmdValue : UInt8) : Decoder :=
  let c := saveData (s.chan type) cmdValue
  let s := s.setChan type c
  if crcMatches s.sonkey c then endCmd s type f else s

/-- `setSmartConfData`. -/
def setSmartConfData (s : Decoder) (type : Mode) (f : Frame) : Decoder :=
  let c := s.chan type
  if c.baseLenBufCount.toNat ≤ 5 then
    s.setChan type (checkBaseLen c (UInt8.ofNat f.rxLen))
  else if f.rxLen < (c.checkBaseLenBuf 0).toNat then s
  else
    let size := f.rxLen - (c.checkBaseLenBuf 0).toNat
    let c := setCmdLen c
    let s := s.setChan type c
    if 256 ≤ size then
      s.setChan type (checkSeqSetPacket s.sonkey c (UInt8.ofNat (size - 256)))
    else checkCrcWithSaveData s type f (UInt8.ofNat size)

/-! ## Interface -/

/-- `resetSmartLink` for one mode. -/
def Chan.reset (c : Chan) : Chan :=
  { c.clearBase with cmdNumLen := 0, state := .check }

/-- `resetSmartLink`. -/
def resetSmartLink (s : Decoder) : Decoder :=
  { s with chan := fun m => (s.chan m).reset }

/-- The entries of one mode after `initSmartLink`. -/
def initChan : Chan where
  state := .check
  backData := none
  backSeq := 0
  ssidLen := 0
  passLen := 0
  cmdNumLen := 0
  baseLenBufCount := 0
  checkBaseLenBuf := fun _ => 0
  packet := fun _ => 0
  phoneIP := List.replicate 4 0
  phoneMAC := List.replicate 6 0

/-- `initSmartLink`: everything is zero but the key stream. -/
def initSmartLink : Decoder where
  chan := fun _ => initChan
  sonkey := fun i => (arc4Xor (arc4Setkey rc4Key) (List.replicate 256 0)).getD i 0
  connAP := { ssid := fun _ => 0, ssidLen := 0, key := fun _ => 0, keyLen := 0 }
  phoneIP := List.replicate 4 0
  phoneMAC := List.replicate 6 0

/-- The mode a frame is handled in. -/
def Frame.type (f : Frame) : Mode := if f.fromDS then .ap else .phone

/-- `rx_process_smartConf`. -/
def rxProcessSmartConf (s : Decoder) (f : Frame) : Decoder :=
  match (s.chan f.type).state with
  | .done | .apListCheck => s
  | .start | .info | .ssidPassData | .check => setSmartConfData s f.type f

/-- `SLINK_STATUS`. -/
inductive SlinkStatus
  | continue | channelLocked | complete
deriving DecidableEq, Repr

/-- `getSmartLinkStatus`. -/
def getSmartLinkStatus (s : Decoder) : SlinkStatus :=
  if (s.chan .phone).state = .start ∨ (s.chan .ap).state = .start then .channelLocked
  else if (s.chan .phone).state = .done ∨ (s.chan .ap).state = .done then .complete
  else .continue

/-- `getSmartLinkResult`: what is copied to the caller, or `none` for the return value `-1`. -/
def getSmartLinkResult (s : Decoder) : Option ApDetailInfo :=
  if getSmartLinkStatus s = .complete then some s.connAP else none

end Fullmac.SmartLink
