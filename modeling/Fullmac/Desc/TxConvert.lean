import Fullmac.Desc.TxReq
import Fullmac.Desc.RxPkt
import Fullmac.Rx.Reorder

/-!
# From 802.3 to 802.11, and back

Reference: `host/hal/SSV6006/ssv6006_pkt.c`, `_ssv6006_hal_tx_8023to80211` (with `SW_8023TO80211`
1); `host/include/priv/hdr80211.h`.

In front of the ethertype the two addresses give way to the SNAP header, the QoS control field if
there is one, and the 802.11 header of 24 bytes; all of it is one list of bytes
(`tx8023to80211_eq`). Addresses and SNAP header are where the receiving side looks for them
(`givesBack_txHeader`). The sequence number is split over the last two bytes of the header, and its
upper part is shifted too far: bits 4 to 7 are lost (`seqNum_seqBytes`).
-/

namespace Fullmac.Desc

open Bytes
open Rx (HwMode)

/-! ## The code -/

/-- An 802.3 frame with the room that was pushed in front of it: `l3offset` is `trx_hdr_len`, or 2
or 4 less. -/
structure L3Frame where
  mem : Mem
  data : ℕ
  l3offset : ℕ
  len : ℕ
  room : 20 ≤ l3offset
  header : 14 ≤ len

/-- Where the 802.3 frame starts. -/
def L3Frame.raw (f : L3Frame) : ℕ := f.data + f.l3offset

/-- The 802.3 frame. -/
def L3Frame.bytes (f : L3Frame) : List UInt8 := slice f.mem f.raw f.len

/-- `da`. -/
def L3Frame.da (f : L3Frame) : List UInt8 := slice f.mem f.raw 6

/-- `sa`. -/
def L3Frame.sa (f : L3Frame) : List UInt8 := slice f.mem (f.raw + 6) 6

/-- `eth_type`. -/
def L3Frame.ethType (f : L3Frame) : ℕ :=
  (f.mem (f.raw + 12)).toNat * 256 + (f.mem (f.raw + 13)).toNat

/-- What is read of `gDeviceInfo`, and `APStaInfo_FindStaByAddr`. -/
structure TxDevice where
  hwMode : HwMode
  bssid : EtherAddr
  selfMac : EtherAddr
  findStaByAddr : List UInt8 → Option ℕ

/-- The counters `seq_ctl`, of `StaInfo` and of every entry of the station table, by priority. -/
abbrev SeqCtl : Type := Option ℕ → Fin 8 → UInt16

/-- `seq_ctl[up]++`. -/
def SeqCtl.incr (ctl : SeqCtl) (owner : Option ℕ) (up : Fin 8) : SeqCtl :=
  Function.update ctl owner (Function.update (ctl owner) up (ctl owner up + 1))

/-- Whose counter is used: in access point mode that of the station with the destination address, if
there is one. -/
def seqOwner (dev : TxDevice) (f : L3Frame) : Option (Option ℕ) :=
  if dev.hwMode = .ap then (dev.findStaByAddr f.da).map some else some none

/-- What is written of a counter to `raw[22]` and `raw[23]`. -/
def seqBytes (n : UInt16) : List UInt8 :=
  [UInt8.ofNat ((n.toNat &&& 0xFFF) <<< 4), UInt8.ofNat ((n.toNat &&& 0xFFF) >>> 8)]

/-- The three addresses of the header; in other modes the code runs into `assert(0)`. -/
def dsAddrs (dev : TxDevice) (f : L3Frame) : Option (List UInt8 × List UInt8 × List UInt8) :=
  match dev.hwMode with
  | .sta => some (dev.bssid.val, f.sa, f.da)
  | .ap => some (f.da, dev.selfMac.val, f.sa)
  | _ => none

/-- The frame after the conversion, where its header starts, and the counters. -/
structure TxConverted where
  mem : Mem
  raw : ℕ
  seqCtl : SeqCtl

/-- The SNAP header. -/
def snapBytes (ethType : ℕ) : List UInt8 :=
  [0xAA, 0xAA, 0x03, 0x00, 0x00,
    if ethType = 0x80f3 ∨ ethType = 0x809b ∨ ethType = 0x8137 then 0xF8 else 0x00]

/-- `raw[0]`. -/
def fcByte0 (bqos : Bool) : UInt8 :=
  UInt8.ofNat (0 ||| 8 >>> 2 <<< 2 ||| (0 ||| bqos.toNat <<< 3) <<< 4)

/-- `raw[1]`. -/
def fcByte1 (hwMode : HwMode) (security : UInt8) : UInt8 :=
  UInt8.ofNat ((decide (hwMode = .sta)).toNat ||| (decide (hwMode = .ap)).toNat <<< 1 |||
    (security.toNat &&& 1) <<< 6)

/-- Go down and write the QoS control field, if it is there. -/
def putQos (m : Mem) (raw : ℕ) : Option (List UInt8) → Mem × ℕ
  | some bs => (copy m (raw - 2) bs, raw - 2)
  | none => (m, raw)

/-- `_ssv6006_hal_tx_8023to80211`. -/
def tx8023to80211 (dev : TxDevice) (ctl : SeqCtl) (f : L3Frame) (qos : Option ℕ) (security : UInt8)
    (up : Fin 8) : Option TxConverted :=
  let raw := f.raw + 6
  let m := copy f.mem raw (snapBytes f.ethType)
  let bqos := qos.isSome
  let r := putQos m raw (qosBytes qos up)
  let raw := r.2 - 24
  let m := copy r.1 raw [fcByte0 bqos]
  let m := copy m (raw + 1) [fcByte1 dev.hwMode security]
  let m := copy m (raw + 2) [0, 0]
  match dsAddrs dev f with
  | none => none
  | some addrs =>
    let m := copy m (raw + 4) addrs.1
    let m := copy m (raw + 10) addrs.2.1
    let m := copy m (raw + 16) addrs.2.2
    match seqOwner dev f with
    | some owner =>
      some ⟨copy m (raw + 22) (seqBytes (ctl.incr owner up owner up)), raw, ctl.incr owner up⟩
    | none => some ⟨copy m (raw + 22) [0, 0], raw, ctl⟩

/-! ## The bytes in front of the ethertype -/

/-- The 802.11 header. -/
def headerBytes (dev : TxDevice) (bqos : Bool) (security : UInt8)
    (addrs : List UInt8 × List UInt8 × List UInt8) (seq : List UInt8) : List UInt8 :=
  [fcByte0 bqos, fcByte1 dev.hwMode security, 0, 0] ++ addrs.1 ++ addrs.2.1 ++ addrs.2.2 ++ seq

/-- The sequence control field and the counters after it is written. -/
def seqOut (dev : TxDevice) (ctl : SeqCtl) (f : L3Frame) (up : Fin 8) : List UInt8 × SeqCtl :=
  match seqOwner dev f with
  | some owner => (seqBytes (ctl.incr owner up owner up), ctl.incr owner up)
  | none => ([0, 0], ctl)

/-- All that is written: header, QoS control and SNAP header. -/
def txHeader (dev : TxDevice) (ctl : SeqCtl) (f : L3Frame) (qos : Option ℕ) (security : UInt8)
    (up : Fin 8) (addrs : List UInt8 × List UInt8 × List UInt8) : List UInt8 :=
  headerBytes dev qos.isSome security addrs (seqOut dev ctl f up).1 ++ (qosBytes qos up).getD []
    ++ snapBytes f.ethType

/-- Where the header starts. -/
def txRaw (f : L3Frame) (qos : Option ℕ) (up : Fin 8) : ℕ :=
  f.raw + 6 - ((qosBytes qos up).getD []).length - 24

section Writes

variable (dev : TxDevice) (ctl : SeqCtl) (f : L3Frame) (qos : Option ℕ) (security : UInt8)
  (up : Fin 8)

theorem length_seqOut : (seqOut dev ctl f up).1.length = 2 := by
  rw [seqOut]
  split <;> rfl

theorem length_dsAddrs {addrs : List UInt8 × List UInt8 × List UInt8}
    (h : dsAddrs dev f = some addrs) :
    addrs.1.length = 6 ∧ addrs.2.1.length = 6 ∧ addrs.2.2.length = 6 := by
  have hda : f.da.length = 6 := length_slice _ _ _
  have hsa : f.sa.length = 6 := length_slice _ _ _
  rw [dsAddrs] at h
  split at h
  · cases h
    exact ⟨dev.bssid.2, hsa, hda⟩
  · cases h
    exact ⟨hda, dev.selfMac.2, hsa⟩
  · exact absurd h (by simp)

/-- The writes of the header, one behind the other. -/
theorem copy_headerBytes (m : Mem) (raw : ℕ) (bqos : Bool)
    {addrs : List UInt8 × List UInt8 × List UInt8} (h : addrs.1.length = 6 ∧
      addrs.2.1.length = 6 ∧ addrs.2.2.length = 6) (seq : List UInt8) :
    copy (copy (copy (copy (copy (copy (copy m raw [fcByte0 bqos]) (raw + 1)
      [fcByte1 dev.hwMode security]) (raw + 2) [0, 0]) (raw + 4) addrs.1) (raw + 10) addrs.2.1)
        (raw + 16) addrs.2.2) (raw + 22) seq
      = copy m raw (headerBytes dev bqos security addrs seq) := by
  obtain ⟨h1, h2, h3⟩ := h
  have hfirst : copy (copy (copy m raw [fcByte0 bqos]) (raw + 1) [fcByte1 dev.hwMode security])
      (raw + 2) [0, 0] = copy m raw [fcByte0 bqos, fcByte1 dev.hwMode security, 0, 0] := by
    rw [show raw + 1 = raw + [fcByte0 bqos].length by rfl, copy_append]
    exact copy_append m raw [fcByte0 bqos, fcByte1 dev.hwMode security] [0, 0]
  have happ : ∀ (k : ℕ) (bs bs' : List UInt8), bs.length = k →
      copy (copy m raw bs) (raw + k) bs' = copy m raw (bs ++ bs') := by
    rintro k bs bs' rfl
    exact copy_append m raw bs bs'
  rw [hfirst, happ 4 _ _ (by rfl), happ 10 _ _ (by simp [h1]), happ 16 _ _ (by simp [h1, h2]),
    happ 22 _ _ (by simp [h1, h2, h3])]
  rfl

theorem length_headerBytes (bqos : Bool) {addrs : List UInt8 × List UInt8 × List UInt8}
    (h : addrs.1.length = 6 ∧ addrs.2.1.length = 6 ∧ addrs.2.2.length = 6) {seq : List UInt8}
    (hseq : seq.length = 2) : (headerBytes dev bqos security addrs seq).length = 24 := by
  obtain ⟨h1, h2, h3⟩ := h
  simp [headerBytes, h1, h2, h3, hseq]

/-- SNAP header, QoS control and header, written downwards, are one list of bytes. -/
theorem copy_downwards (m : Mem) {top : ℕ} {bs bs' bs'' : List UInt8}
    (h : bs'.length + bs.length ≤ top) :
    copy (copy (copy m top bs'') (top - bs'.length) bs') (top - bs'.length - bs.length) bs
      = copy m (top - bs'.length - bs.length) (bs ++ bs' ++ bs'') := by
  have hmid : top - bs'.length = top - bs'.length - bs.length + bs.length := by omega
  have htop : top = top - bs'.length - bs.length + (bs ++ bs').length := by
    rw [List.length_append]
    omega
  rw [copy_comm (show top - bs'.length + bs'.length ≤ top by omega), copy_comm (by omega)]
  rw [copy_comm (show top - bs'.length - bs.length + bs.length ≤ top - bs'.length by omega)]
  generalize hlow : top - bs'.length - bs.length = low at *
  rw [hmid, copy_append, htop, copy_append]

/-- Without the field nothing is written for it. -/
theorem putQos_eq (m : Mem) (raw : ℕ) :
    putQos m raw (qosBytes qos up)
      = (copy m (raw - ((qosBytes qos up).getD []).length) ((qosBytes qos up).getD []),
          raw - ((qosBytes qos up).getD []).length) := by
  cases qos with
  | none =>
    refine Prod.ext (funext fun i => ?_) rfl
    exact (copy_of_outside (by simp [qosBytes]; omega)).symm
  | some q => rfl

/-- What the conversion leaves in memory. -/
theorem tx8023to80211_eq {addrs : List UInt8 × List UInt8 × List UInt8}
    (h : dsAddrs dev f = some addrs) :
    tx8023to80211 dev ctl f qos security up
      = some ⟨copy f.mem (txRaw f qos up) (txHeader dev ctl f qos security up addrs),
          txRaw f qos up, (seqOut dev ctl f up).2⟩ := by
  have hlens := length_dsAddrs dev f h
  have hroom : 20 ≤ f.raw := le_trans f.room (Nat.le_add_left _ _)
  have hwrites : ∀ seq : List UInt8, seq.length = 2 →
      copy (copy (copy f.mem (f.raw + 6) (snapBytes f.ethType))
          (f.raw + 6 - ((qosBytes qos up).getD []).length) ((qosBytes qos up).getD []))
          (txRaw f qos up) (headerBytes dev qos.isSome security addrs seq)
        = copy f.mem (txRaw f qos up) (headerBytes dev qos.isSome security addrs seq
            ++ (qosBytes qos up).getD [] ++ snapBytes f.ethType) := by
    intro seq hseq
    have hhdr := length_headerBytes dev security qos.isSome hlens hseq
    have hqos : ((qosBytes qos up).getD []).length ≤ 2 := by
      rw [length_qosBytes]
      split <;> omega
    rw [txRaw, ← hhdr]
    exact copy_downwards f.mem (by omega)
  simp only [tx8023to80211, putQos_eq, h, txHeader, seqOut]
  split
  · rename_i owner howner
    rw [copy_headerBytes dev security _ _ _ hlens]
    exact congrArg some (congrArg (TxConverted.mk · _ _) (hwrites _ rfl))
  · rename_i howner
    rw [copy_headerBytes dev security _ _ _ hlens]
    exact congrArg some (congrArg (TxConverted.mk · _ _) (hwrites _ rfl))

theorem txRaw_add {addrs : List UInt8 × List UInt8 × List UInt8}
    (h : dsAddrs dev f = some addrs) :
    (txHeader dev ctl f qos security up addrs).length
        = 30 + ((qosBytes qos up).getD []).length ∧
      txRaw f qos up + (txHeader dev ctl f qos security up addrs).length = f.raw + 12 := by
  have hroom : 20 ≤ f.raw := le_trans f.room (Nat.le_add_left _ _)
  have hhdr := length_headerBytes dev security qos.isSome (length_dsAddrs dev f h)
    (length_seqOut dev ctl f up)
  have hqos : ((qosBytes qos up).getD []).length ≤ 2 := by
    rw [length_qosBytes]
    split <;> omega
  have hlen : (txHeader dev ctl f qos security up addrs).length
      = 30 + ((qosBytes qos up).getD []).length := by
    rw [txHeader, List.length_append, List.length_append, hhdr]
    exact Nat.add_right_comm 24 _ 6
  refine ⟨hlen, ?_⟩
  rw [hlen, txRaw]
  omega

end Writes

/-! ## What goes on the air -/

/-- The 802.11 frame: from the header to the end of the 802.3 frame. -/
def airBytes (f : L3Frame) (r : TxConverted) : List UInt8 :=
  slice r.mem r.raw (f.raw + f.len - r.raw)

/-- Fragment number and sequence number of the header. -/
def fragNumber (r : TxConverted) : ℕ := getU16 r.mem (r.raw + 22) % 16

/-- See `fragNumber`. -/
def seqNumber (r : TxConverted) : ℕ := getU16 r.mem (r.raw + 22) / 16

/-- The frame `air` is received behind a descriptor with its lengths. -/
structure Receives (m : Mem) (air : List UInt8) (qos : Bool) : Prop where
  cType : rxCType m = 3
  qosField : rxQos m = qos.toNat
  ht : rxHt m = 0
  use4addr : rxUse4addr m = 0
  hdrLen : rxHdrLen m = 24 + 2 * qos.toNat
  above : 10 ≤ rxHdrOffset m
  below : rxPayloadOffset m < 256
  len : rxLen m = rxinfoSize + air.length
  air : slice m (rxHdrOffset m) air.length = air

/-- Wherever `air` is received, the conversion to 802.3 finds the frame `bytes` at the data pointer,
and nothing behind it. -/
def GivesBack (air : List UInt8) (qos : Bool) (bytes : List UInt8) : Prop :=
  ∀ (m : Mem) (u : Unassigned), Receives m air qos → ∃ m', rx80211to8023 m u = some m' ∧
    slice m' (getRxpktDataPtr m') bytes.length = bytes ∧
    rxHdrOffset m' + getRxpktDataLen m' = getRxpktDataPtr m' + bytes.length

/-- The frame carries the incremented counter of its receiver, and is given back. -/
structure TxRight (dev : TxDevice) (ctl : SeqCtl) (f : L3Frame) (qos : Option ℕ) (up : Fin 8)
    (r : TxConverted) : Prop where
  frag : fragNumber r = 0
  seq : ∃ owner, seqOwner dev f = some owner ∧
    seqNumber r = ((ctl owner up).toNat + 1) % 4096 ∧ r.seqCtl = ctl.incr owner up
  back : GivesBack (airBytes f r) qos.isSome f.bytes

section Air

variable {dev : TxDevice} {ctl : SeqCtl} {f : L3Frame} {qos : Option ℕ} {security : UInt8}
  {up : Fin 8} {addrs : List UInt8 × List UInt8 × List UInt8}

/-- The converted frame. -/
def txConverted (dev : TxDevice) (ctl : SeqCtl) (f : L3Frame) (qos : Option ℕ) (security : UInt8)
    (up : Fin 8) (addrs : List UInt8 × List UInt8 × List UInt8) : TxConverted :=
  ⟨copy f.mem (txRaw f qos up) (txHeader dev ctl f qos security up addrs), txRaw f qos up,
    (seqOut dev ctl f up).2⟩

theorem airBytes_txConverted (h : dsAddrs dev f = some addrs) :
    airBytes f (txConverted dev ctl f qos security up addrs)
      = txHeader dev ctl f qos security up addrs ++ slice f.mem (f.raw + 12) (f.len - 12) := by
  obtain ⟨-, hend⟩ := txRaw_add dev ctl f qos security up h
  have hheader := f.header
  have hsum : f.raw + f.len - txRaw f qos up
      = (txHeader dev ctl f qos security up addrs).length + (f.len - 12) := by omega
  rw [airBytes, txConverted]
  dsimp only
  rw [hsum, slice_append, slice_copy_self, hend]
  congr 1
  apply slice_congr
  intro i _
  exact copy_of_outside (by omega)

/-- Where the parts of a header are found. -/
theorem header_pieces {m : Mem} {raw : ℕ} {bqos : Bool} {seq : List UInt8}
    (hlens : addrs.1.length = 6 ∧ addrs.2.1.length = 6 ∧ addrs.2.2.length = 6)
    (hseq : seq.length = 2)
    (h : slice m raw 24 = headerBytes dev bqos security addrs seq) :
    getU16 m raw = (fcByte0 bqos).toNat + 256 * (fcByte1 dev.hwMode security).toNat ∧
      slice m (raw + 4) 6 = addrs.1 ∧ slice m (raw + 10) 6 = addrs.2.1 ∧
      slice m (raw + 16) 6 = addrs.2.2 ∧ slice m (raw + 22) 2 = seq := by
  rw [← length_headerBytes dev security bqos hlens hseq, headerBytes] at h
  obtain ⟨h1, h2, h3⟩ := hlens
  obtain ⟨hall, hs⟩ := slice_split h
  obtain ⟨htwo, ha3⟩ := slice_split hall
  obtain ⟨hone, ha2⟩ := slice_split htwo
  obtain ⟨hfc, ha1⟩ := slice_split hone
  have hfc' : slice m raw ([fcByte0 bqos, fcByte1 dev.hwMode security] ++ [0, 0]).length
      = [fcByte0 bqos, fcByte1 dev.hwMode security] ++ [0, 0] := hfc
  simp only [List.length_append, List.length_cons, List.length_nil, h1, h2, h3, hseq]
    at hs ha3 ha2 ha1
  exact ⟨getU16_of_slice (slice_split hfc').1, ha1, ha2, ha3, hs⟩

/-- The sequence control field is read back. -/
theorem slice_seq (h : dsAddrs dev f = some addrs) :
    slice (txConverted dev ctl f qos security up addrs).mem
        ((txConverted dev ctl f qos security up addrs).raw + 22) 2 = (seqOut dev ctl f up).1 := by
  have hseq := length_seqOut dev ctl f up
  have hlens := length_dsAddrs dev f h
  have hall := slice_copy_self f.mem (txRaw f qos up) (txHeader dev ctl f qos security up addrs)
  rw [txHeader, List.append_assoc] at hall
  have hheader := (slice_split hall).1
  rw [length_headerBytes dev security qos.isSome hlens hseq, ← List.append_assoc, ← txHeader]
    at hheader
  exact (header_pieces hlens hseq hheader).2.2.2.2

/-- The number read back lacks bits 4 to 7. -/
theorem seqNum_seqBytes (n : UInt16) {m : Mem} {off : ℕ} (h : slice m off 2 = seqBytes n) :
    getU16 m off % 16 = 0 ∧
      getU16 m off / 16 = n.toNat % 4096 % 16 + 16 * (n.toNat % 4096 / 256) := by
  have hand : n.toNat &&& 0xFFF = n.toNat % 4096 := Nat.and_two_pow_sub_one_eq_mod n.toNat 12
  rw [getU16_of_slice h, hand, UInt8.toNat_ofNat', UInt8.toNat_ofNat', Nat.shiftLeft_eq,
    Nat.shiftRight_eq_div_pow]
  omega

/-! ## The way back -/

theorem fcByte0_mod (bqos : Bool) : (fcByte0 bqos).toNat / 4 % 4 = 2 := by
  cases bqos <;> decide

theorem fcByte1_mod (security : UInt8) :
    (fcByte1 .sta security).toNat % 4 = 1 ∧ (fcByte1 .ap security).toNat % 4 = 2 := by
  rw [fcByte1, fcByte1, Nat.and_one_is_mod]
  rcases Nat.mod_two_eq_zero_or_one security.toNat with hs | hs <;> rw [hs] <;> decide

theorem snapBytes_eq (ethType : ℕ) :
    snapBytes ethType = rfc1042 ∨ snapBytes ethType = ieee8021h := by
  rw [snapBytes]
  split
  · exact .inr rfl
  · exact .inl rfl

/-- The receiving side selects the addresses the sending side has put there. -/
theorem rxDa_rxSa {m : Mem} (h : dsAddrs dev f = some addrs)
    (hfc : frameControl m = (fcByte0 qos.isSome).toNat + 256 * (fcByte1 dev.hwMode security).toNat)
    (h1 : slice m (rxHdrOffset m + 4) 6 = addrs.1)
    (h2 : slice m (rxHdrOffset m + 10) 6 = addrs.2.1)
    (h3 : slice m (rxHdrOffset m + 16) 6 = addrs.2.2) : rxDa m = f.da ∧ rxSa m = f.sa := by
  have hlt := (fcByte0 qos.isSome).toNat_lt
  obtain ⟨hsta, hap⟩ := fcByte1_mod security
  rw [dsAddrs] at h
  split at h
  · rename_i hmode
    cases h
    rw [hmode] at hfc
    have h8 : (frameControl m).testBit 8 = true := by
      rw [Nat.testBit_eq_decide_div_mod_eq, decide_eq_true_eq]
      omega
    have h9 : (frameControl m).testBit 9 = false := by
      rw [Nat.testBit_eq_decide_div_mod_eq, decide_eq_false_iff_not]
      omega
    rw [rxDa, rxSa, h8, h9]
    exact ⟨h3, h2⟩
  · rename_i hmode
    cases h
    rw [hmode] at hfc
    have h8 : (frameControl m).testBit 8 = false := by
      rw [Nat.testBit_eq_decide_div_mod_eq, decide_eq_false_iff_not]
      omega
    have h9 : (frameControl m).testBit 9 = true := by
      rw [Nat.testBit_eq_decide_div_mod_eq, decide_eq_true_eq]
      omega
    rw [rxDa, rxSa, h8, h9]
    exact ⟨h1, h3⟩
  · exact absurd h (by simp)

theorem length_qosBytes_isSome (qos : Option ℕ) (up : Fin 8) :
    ((qosBytes qos up).getD []).length = 2 * qos.isSome.toNat := by
  cases qos <;> rfl

/-- What is found where a converted frame is received: its addresses, and behind the SNAP header the
rest of the 802.3 frame. -/
structure RxPieces (f : L3Frame) (m : Mem) (hdrLen : ℕ) : Prop where
  received : Received m
  da : rxDa m = f.da
  sa : rxSa m = f.sa
  payload : rxPayloadOffset m = rxHdrOffset m + hdrLen
  rest : slice m (rxPayloadOffset m + 6) (f.len - 12) = slice f.mem (f.raw + 12) (f.len - 12)
  len : rxLen m = rxinfoSize + (hdrLen + 6 + (f.len - 12))

theorem rxPieces_of_receives (h : dsAddrs dev f = some addrs) {m : Mem}
    (hr : Receives m (airBytes f (txConverted dev ctl f qos security up addrs)) qos.isSome) :
    RxPieces f m (24 + 2 * qos.isSome.toNat) := by
  have hlens := length_dsAddrs dev f h
  have hseq := length_seqOut dev ctl f up
  have hqlen := length_qosBytes_isSome qos up
  have hhlen := length_headerBytes dev security qos.isSome hlens hseq
  have hair := hr.air
  have hlen := hr.len
  rw [airBytes_txConverted h, txHeader] at hair
  rw [airBytes_txConverted h, List.length_append,
    (txRaw_add dev ctl f qos security up h).1, length_slice, hqlen] at hlen
  -- the four parts of the frame
  obtain ⟨hpre, hrest⟩ := slice_split hair
  obtain ⟨hpre, hsnap⟩ := slice_split hpre
  obtain ⟨hheader, -⟩ := slice_split hpre
  rw [hhlen] at hheader
  obtain ⟨hfc, h1, h2, h3, -⟩ := header_pieces hlens hseq hheader
  obtain ⟨hda, hsa⟩ := rxDa_rxSa h hfc h1 h2 h3
  have hpay : rxPayloadOffset m = rxHdrOffset m + (24 + 2 * qos.isSome.toNat) := by
    rw [rxPayloadOffset, hr.hdrLen]
  have hsnapLen : (snapBytes f.ethType).length = 6 := rfl
  rw [List.length_append, hhlen, hqlen, hsnapLen, ← hpay] at hsnap
  rw [List.length_append, List.length_append, hhlen, hqlen, hsnapLen, length_slice,
    ← Nat.add_assoc (rxHdrOffset m), ← hpay] at hrest
  have hfcDef : frameControl m = _ := hfc
  have hbyte := (fcByte0 qos.isSome).toNat_lt
  have hdata := fcByte0_mod qos.isSome
  have hqos := hr.qosField
  have hht := hr.ht
  have hhdr := hr.hdrLen
  have hrec : Received m := by
    refine ⟨hr.cType, ?_, ?_, ?_, hr.above, hr.below, ?_⟩
    · rw [isDataFrame, decide_eq_true_eq, hfcDef]
      omega
    · rw [hasSnap, hsnap]
      rcases snapBytes_eq f.ethType with hs | hs <;> simp [hs]
    · omega
    · have hsize : rxinfoSize = 80 := rfl
      omega
  exact ⟨hrec, hda, hsa, hpay, hrest, by omega⟩

/-- Received anywhere, the frame is given back. -/
theorem givesBack_txConverted (h : dsAddrs dev f = some addrs) :
    GivesBack (airBytes f (txConverted dev ctl f qos security up addrs)) qos.isSome f.bytes := by
  intro m u hr
  have hpieces := rxPieces_of_receives h hr
  have hrec := hpieces.received
  have hconv := (hrec.converted_iff u).mpr fun _ => ⟨hr.ht, hr.use4addr⟩
  have hptr := hrec.dataPtr u
  have hflen := f.header
  have hsplit : ∀ (m : Mem) (off : ℕ), slice m off f.len
      = slice m off 12 ++ slice m (off + 12) (f.len - 12) := by
    intro m off
    rw [← slice_append, Nat.add_sub_cancel' (by omega)]
  refine ⟨converted m u, hrec.eq_converted u, ?_, ?_⟩
  · have htail : slice (converted m u) (getRxpktDataPtr (converted m u) + 12) (f.len - 12)
        = slice f.mem (f.raw + 12) (f.len - 12) := by
      rw [← hpieces.rest]
      apply slice_of_bytes
      intro i _
      rw [hconv.rest]
    have hfront : slice f.mem f.raw 12 = f.da ++ f.sa := slice_append f.mem f.raw 6 6
    rw [L3Frame.bytes, length_slice, hsplit, hsplit f.mem f.raw, hconv.addrs, htail, hfront,
      hpieces.da, hpieces.sa]
  · have hlen := hpieces.len
    have hpay := hpieces.payload
    have habove := hr.above
    rw [hconv.len, hptr, getRxpktDataLen, L3Frame.bytes, length_slice]
    omega

end Air

/-! ## Sequence numbers -/

/-- In one of the two modes that send, with a counter for the receiver whose next value is below 16
modulo 4096. -/
def SeqFits (dev : TxDevice) (ctl : SeqCtl) (f : L3Frame) (up : Fin 8) : Prop :=
  (dev.hwMode = .sta ∨ dev.hwMode = .ap) ∧
    ∃ owner, seqOwner dev f = some owner ∧ ((ctl owner up).toNat + 1) % 4096 < 16

theorem dsAddrs_isSome_iff (dev : TxDevice) (f : L3Frame) :
    (∃ addrs, dsAddrs dev f = some addrs) ↔ dev.hwMode = .sta ∨ dev.hwMode = .ap := by
  cases hmode : dev.hwMode <;> simp [dsAddrs, hmode]

/-- Incremented, the counter is what `incr` holds. -/
theorem incr_toNat_mod (ctl : SeqCtl) (owner : Option ℕ) (up : Fin 8) :
    (ctl.incr owner up owner up).toNat % 4096 = ((ctl owner up).toNat + 1) % 4096 := by
  have hval : ctl.incr owner up owner up = ctl owner up + 1 := by simp [SeqCtl.incr]
  rw [hval, UInt16.toNat_add]
  exact Nat.mod_mod_of_dvd _ (by decide)

/-- With a counter, the number is right exactly when it is below 16. -/
theorem seqNumber_eq_iff {dev : TxDevice} {ctl : SeqCtl} {f : L3Frame} {qos : Option ℕ}
    {security : UInt8} {up : Fin 8} {addrs : List UInt8 × List UInt8 × List UInt8}
    (h : dsAddrs dev f = some addrs) {owner : Option ℕ} (howner : seqOwner dev f = some owner) :
    fragNumber (txConverted dev ctl f qos security up addrs) = 0 ∧
      (seqNumber (txConverted dev ctl f qos security up addrs) = ((ctl owner up).toNat + 1) % 4096 ↔
        ((ctl owner up).toNat + 1) % 4096 < 16) := by
  have hslice : slice (txConverted dev ctl f qos security up addrs).mem
      ((txConverted dev ctl f qos security up addrs).raw + 22) 2
        = seqBytes (ctl.incr owner up owner up) := by
    rw [slice_seq h, seqOut, howner]
  obtain ⟨hfrag, hseq⟩ := seqNum_seqBytes _ hslice
  refine ⟨hfrag, ?_⟩
  rw [seqNumber, hseq, incr_toNat_mod]
  omega

/-- For every frame and every value of the counters, the conversion writes the incremented counter
and is undone by the receiving side exactly when the number is below 16. -/
theorem tx8023to80211_right_iff (dev : TxDevice) (ctl : SeqCtl) (f : L3Frame) (qos : Option ℕ)
    (security : UInt8) (up : Fin 8) :
    (∃ r, tx8023to80211 dev ctl f qos security up = some r ∧ TxRight dev ctl f qos up r) ↔
      SeqFits dev ctl f up := by
  constructor
  · rintro ⟨r, hrun, hright⟩
    have hmode : dev.hwMode = .sta ∨ dev.hwMode = .ap := by
      rw [← dsAddrs_isSome_iff dev f]
      cases hds : dsAddrs dev f with
      | some addrs => exact ⟨addrs, rfl⟩
      | none => exact absurd hrun (by simp [tx8023to80211, hds])
    obtain ⟨addrs, h⟩ := (dsAddrs_isSome_iff dev f).mpr hmode
    obtain ⟨owner, howner, hseq, -⟩ := hright.seq
    rw [tx8023to80211_eq dev ctl f qos security up h, Option.some_inj] at hrun
    rw [← hrun] at hseq
    exact ⟨hmode, owner, howner, (seqNumber_eq_iff h howner).2.mp hseq⟩
  · rintro ⟨hmode, owner, howner, hlt⟩
    obtain ⟨addrs, h⟩ := (dsAddrs_isSome_iff dev f).mpr hmode
    have hseq := @seqNumber_eq_iff dev ctl f qos security up addrs h owner howner
    refine ⟨_, tx8023to80211_eq dev ctl f qos security up h, hseq.1,
      ⟨owner, howner, hseq.2.mpr hlt, ?_⟩, givesBack_txConverted h⟩
    rw [seqOut, howner]

/-- A station; nobody is in its table. -/
def someStation : TxDevice where
  hwMode := .sta
  bssid := ⟨[0, 0, 0, 0, 0, 1], rfl⟩
  selfMac := ⟨[0, 0, 0, 0, 0, 2], rfl⟩
  findStaByAddr := fun _ => none

/-- A frame of 60 bytes. -/
def someL3Frame : L3Frame := ⟨fun _ => 0, 1000, 40, 60, by decide, by decide⟩

/-- After the number 15 comes 16, and the header says 0. -/
theorem tx8023to80211_sixteen :
    ¬ ∃ r, tx8023to80211 someStation (fun _ _ => 15) someL3Frame none 0 0 = some r ∧
      TxRight someStation (fun _ _ => 15) someL3Frame none 0 r := by
  rintro ⟨r, hrun, hright⟩
  obtain ⟨owner, howner, hseq, -⟩ := hright.seq
  have hds : dsAddrs someStation someL3Frame = some _ := rfl
  rw [tx8023to80211_eq _ _ _ _ _ _ hds, Option.some_inj] at hrun
  rw [← hrun] at hseq
  exact absurd ((seqNumber_eq_iff hds howner).2.mp hseq) (by decide)

end Fullmac.Desc
