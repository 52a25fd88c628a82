import Fullmac.Lib.Bytes
import Mathlib.Algebra.GroupWithZero.Nat

/-!
# From 802.11 to 802.3 in place

Reference: `host/hal/SSV6006/ssv6006_pkt.c`, `AddrOffsetTbl`, `ssv6006_hal_rx_80211to8023`,
`ssv6006_hal_get_rxpkt_qos_ptr`, `ssv6006_hal_get_rxpkt_data_ptr` and
`ssv6006_hal_get_rxpkt_data_len` (with `SW_8023TO80211` 1); `ssv6006_pktdef.h`, `PKT_RxInfo`;
`host/include/priv/hdr80211.h`.

A received frame stands behind its descriptor: the 802.11 header, then the SNAP header, the
ethertype and the payload. The conversion puts the source address over the SNAP header, the
destination address before it, and below that the control fields: HT control next to the
destination, QoS control below it, address 4 at the bottom. The descriptor is changed to start
`encap_offset` bytes below the destination address, and `encap_offset` counts QoS control only. The
data pointer agrees with that; the QoS pointer counts address 4 and HT control as well, upwards.
-/

namespace Fullmac.Desc

open Bytes

/-! ## The descriptor -/

/-- `len`. -/
def rxLen (m : Mem) : ℕ := getU16 m 0

/-- A flag of the first word: bit `k` of its third byte. -/
def rxFlag (m : Mem) (k : ℕ) : ℕ := (m 2).toNat / 2 ^ k % 2

/-- `c_type`. -/
def rxCType (m : Mem) : ℕ := (m 2).toNat % 8

/-- `f80211`. -/
def rxF80211 (m : Mem) : ℕ := rxFlag m 3

/-- `qos`. -/
def rxQos (m : Mem) : ℕ := rxFlag m 4

/-- `ht`. -/
def rxHt (m : Mem) : ℕ := rxFlag m 5

/-- `use_4addr`. -/
def rxUse4addr (m : Mem) : ℕ := rxFlag m 6

/-- `hdr_offset`. -/
def rxHdrOffset (m : Mem) : ℕ := (m 8).toNat

/-- `hdr_len`, the upper six bits of byte 9. -/
def rxHdrLen (m : Mem) : ℕ := (m 9).toNat / 4

/-- `GET_PKT_PAYLOAD_OFFSET`. -/
def rxPayloadOffset (m : Mem) : ℕ := rxHdrOffset m + rxHdrLen m

/-- `SSV6006_RXINFO_SIZE`. -/
def rxinfoSize : ℕ := 80

/-! ## The conversion -/

/-- Offsets of the destination and the source address in the 802.11 header. -/
structure AddrOffset where
  da : ℕ
  sa : ℕ

/-- `AddrOffsetTbl`, by `fromDS` and `toDS`. -/
def addrOffsetTbl (fromDS toDS : Bool) : AddrOffset :=
  match fromDS, toDS with
  | false, false => ⟨4, 10⟩
  | false, true => ⟨16, 10⟩
  | true, false => ⟨4, 16⟩
  | true, true => ⟨16, 24⟩

/-- `rfc1042`. -/
def rfc1042 : List UInt8 := [0xAA, 0xAA, 0x03, 0x00, 0x00, 0x00]

/-- `_802_1h`. -/
def ieee8021h : List UInt8 := [0xAA, 0xAA, 0x03, 0x00, 0x00, 0xF8]

/-- The frame control field. -/
def frameControl (m : Mem) : ℕ := getU16 m (rxHdrOffset m)

/-- `IS_DATA_FRAME`. -/
def isDataFrame (fc : ℕ) : Bool := fc / 4 % 4 = 2

/-- `IS_NULL_DATA`. -/
def isNullData (fc : ℕ) : Bool := fc / 4 % 4 = 2 && fc / 64 % 2 = 1

/-- The payload starts with a SNAP header. -/
def hasSnap (m : Mem) : Bool :=
  slice m (rxPayloadOffset m) 6 = rfc1042 || slice m (rxPayloadOffset m) 6 = ieee8021h

/-- The destination address `AddrOffsetTbl` selects. -/
def rxDa (m : Mem) : List UInt8 :=
  slice m (rxHdrOffset m
    + (addrOffsetTbl ((frameControl m).testBit 9) ((frameControl m).testBit 8)).da) 6

/-- The source address `AddrOffsetTbl` selects. -/
def rxSa (m : Mem) : List UInt8 :=
  slice m (rxHdrOffset m
    + (addrOffsetTbl ((frameControl m).testBit 9) ((frameControl m).testBit 8)).sa) 6

/-- The QoS control field, behind the three addresses and the sequence control field. -/
def rxQosCtl (m : Mem) : List UInt8 := slice m (rxHdrOffset m + 24) 2

/-- Go down by the length of a field and write it, if it is there. -/
def putBelow (mp : Mem × ℕ) (present : ℕ) (bs : List UInt8) : Mem × ℕ :=
  if present = 1 then (copy mp.1 (mp.2 - bs.length) bs, mp.2 - bs.length) else mp

/-- The new contents of the descriptor. -/
def putRxInfo (m : Mem) (len hdrOffset hdrLen : ℕ) : Mem :=
  let m := setU16 m 0 len
  let m := copy m 8 [UInt8.ofNat hdrOffset]
  let m := copy m 9 [UInt8.ofNat ((m 9).toNat % 4 + hdrLen % 64 * 4)]
  copy m 2 [UInt8.ofNat ((m 2).toNat / 16 * 16 + (m 2).toNat % 8)]

/-- The variables `ht_ctl` and `a4` of the conversion, to which nothing is assigned. -/
structure Unassigned where
  htCtl : List UInt8
  a4 : List UInt8
  length_htCtl : htCtl.length = 4
  length_a4 : a4.length = 6

/-- `ssv6006_hal_rx_80211to8023`, with the descriptor at 0. `none` is the return value -1, in which
case nothing is written. -/
def rx80211to8023 (m : Mem) (u : Unassigned) : Option Mem :=
  if isDataFrame (frameControl m) then
    if !isNullData (frameControl m) && !hasSnap m then none
    else
      let encapOffset := if rxQos m = 1 then 2 else 0
      let payload := rxPayloadOffset m
      let m' := copy m payload (rxSa m)
      let m' := copy m' (payload - 6) (rxDa m)
      let r := putBelow (m', payload - 6) (rxHt m) u.htCtl
      let r := putBelow r (rxQos m) (rxQosCtl m)
      let r := putBelow r (rxUse4addr m) u.a4
      some (putRxInfo r.1 (rxLen m + 65536 - rxHdrLen m + 6 + encapOffset)
        (payload - 6 - encapOffset) encapOffset)
  else some m

/-! ## The accessors -/

/-- `ssv6006_hal_get_rxpkt_qos_ptr`. A `c_type` other than `M0_RXEVENT` runs into `ASSERT(FALSE)`.
-/
def getRxpktQosPtr (m : Mem) : Option ℕ :=
  let nOffset := if rxCType m = 3 then rxHdrOffset m else 0
  let nOffset := if rxUse4addr m ≠ 0 then nOffset + 6 else nOffset
  let nOffset := if rxHt m ≠ 0 then nOffset + 4 else nOffset
  if rxQos m = 0 then none else some nOffset

/-- `ssv6006_hal_get_rxpkt_data_ptr`. -/
def getRxpktDataPtr (m : Mem) : ℕ :=
  if rxF80211 m = 0 then
    let offset := if rxCType m = 3 then rxHdrOffset m else if rxCType m = 4 then 16 else 0
    if rxQos m = 1 then offset + 2 else offset
  else rxinfoSize

/-- `ssv6006_hal_get_rxpkt_data_len`. -/
def getRxpktDataLen (m : Mem) : ℕ := rxLen m - rxinfoSize

/-! ## What is written where -/

theorem rxFlag_lt (m : Mem) (k : ℕ) : rxFlag m k < 2 := Nat.mod_lt _ (by decide)

theorem rxFlag_eq {m m' : Mem} (h : m' 2 = m 2) (k : ℕ) : rxFlag m' k = rxFlag m k := by
  rw [rxFlag, rxFlag, h]

/-- The descriptor ends before byte 10. -/
theorem putRxInfo_of_le {m : Mem} {len hdrOffset hdrLen i : ℕ} (h : 10 ≤ i) :
    putRxInfo m len hdrOffset hdrLen i = m i := by
  simp only [putRxInfo]
  rw [copy_of_outside (.inr (by simp; omega)), copy_of_outside (.inr (by simp; omega)),
    copy_of_outside (.inr (by simp; omega)), setU16_of_outside (.inr (by omega))]

/-- The fields of the descriptor after they are changed. -/
theorem putRxInfo_fields (m : Mem) (len hdrOffset hdrLen : ℕ) :
    let m' := putRxInfo m len hdrOffset hdrLen
    rxLen m' = len % 65536 ∧ rxHdrOffset m' = hdrOffset % 256 ∧ rxHdrLen m' = hdrLen % 64 ∧
      rxF80211 m' = 0 ∧ rxCType m' = rxCType m ∧ rxQos m' = rxQos m ∧ rxHt m' = rxHt m ∧
      rxUse4addr m' = rxUse4addr m := by
  intro m'
  have h0 : m' 0 = setU16 m 0 len 0 := by
    simp only [m', putRxInfo]
    rw [copy_of_outside (.inl (by omega)), copy_of_outside (.inl (by omega)),
      copy_of_outside (.inl (by omega))]
  have h1 : m' 1 = setU16 m 0 len 1 := by
    simp only [m', putRxInfo]
    rw [copy_of_outside (.inl (by omega)), copy_of_outside (.inl (by omega)),
      copy_of_outside (.inl (by omega))]
  have h2 : m' 2 = UInt8.ofNat ((m 2).toNat / 16 * 16 + (m 2).toNat % 8) := by
    have hold : ∀ {bs bs'}, copy (copy (setU16 m 0 len) 8 bs) 9 bs' 2 = m 2 := fun {bs bs'} => by
      rw [copy_of_outside (.inl (by omega)), copy_of_outside (.inl (by omega)),
        setU16_of_outside (.inr (by omega))]
    simp only [m', putRxInfo, hold]
    exact copy_getElem (i := 0) (by simp)
  have h8 : m' 8 = UInt8.ofNat hdrOffset := by
    simp only [m', putRxInfo]
    rw [copy_of_outside (i := 8) (.inr (by simp)), copy_of_outside (i := 8) (.inl (by omega))]
    exact copy_getElem (i := 0) (by simp)
  have h9 : m' 9 = UInt8.ofNat ((m 9).toNat % 4 + hdrLen % 64 * 4) := by
    have hold : copy (setU16 m 0 len) 8 [UInt8.ofNat hdrOffset] 9 = m 9 := by
      rw [copy_of_outside (.inr (by simp)), setU16_of_outside (.inr (by omega))]
    simp only [m', putRxInfo]
    rw [copy_of_outside (i := 9) (.inr (by simp)), hold]
    exact copy_getElem (i := 0) (by simp)
  have hlt := (m 2).toNat_lt
  refine ⟨?_, ?_, ?_, ?_, ?_, ?_, ?_, ?_⟩
  · rw [rxLen, getU16_congr h0 h1, getU16_setU16]
  · rw [rxHdrOffset, h8, UInt8.toNat_ofNat']
  · rw [rxHdrLen, h9, UInt8.toNat_ofNat']
    omega
  all_goals
    simp only [rxF80211, rxCType, rxQos, rxHt, rxUse4addr, rxFlag, h2, UInt8.toNat_ofNat']
    omega

theorem putBelow_snd {mp : Mem × ℕ} {present : ℕ} (h : present < 2) (bs : List UInt8) :
    (putBelow mp present bs).2 = mp.2 - bs.length * present := by
  rw [putBelow]
  split
  · rename_i hp
    rw [hp, Nat.mul_one]
  · rename_i hp
    obtain rfl : present = 0 := by omega
    rw [Nat.mul_zero, Nat.sub_zero]

theorem putBelow_of_outside {mp : Mem × ℕ} {present i : ℕ} {bs : List UInt8}
    (h : i < mp.2 - bs.length ∨ mp.2 ≤ i) (hle : bs.length ≤ mp.2) :
    (putBelow mp present bs).1 i = mp.1 i := by
  rw [putBelow]
  split
  · exact copy_of_outside (by omega)
  · rfl

/-- The frame with the addresses exchanged. -/
def withAddrs (m : Mem) : Mem :=
  copy (copy m (rxPayloadOffset m) (rxSa m)) (rxPayloadOffset m - 6) (rxDa m)

/-- Where QoS control is written: below the destination address, and below HT control if it is
there. -/
def qosCtlAt (m : Mem) : ℕ := rxPayloadOffset m - 6 - 4 * rxHt m - 2

/-- The frame with the control fields below the addresses. -/
def withFields (m : Mem) (u : Unassigned) : Mem :=
  (putBelow (putBelow (putBelow (withAddrs m, rxPayloadOffset m - 6) (rxHt m) u.htCtl) (rxQos m)
    (rxQosCtl m)) (rxUse4addr m) u.a4).1

theorem slice_withAddrs {m : Mem} (h : 6 ≤ rxPayloadOffset m) :
    slice (withAddrs m) (rxPayloadOffset m - 6) 12 = rxDa m ++ rxSa m := by
  have hsa : (rxSa m).length = 6 := length_slice _ _ _
  have hda : (rxDa m).length = 6 := length_slice _ _ _
  have hfirst : slice (withAddrs m) (rxPayloadOffset m - 6) (rxDa m).length = rxDa m :=
    slice_copy_self _ _ _
  have hsecond : slice (withAddrs m) (rxPayloadOffset m) (rxSa m).length = rxSa m := by
    conv_rhs => rw [← slice_copy_self m (rxPayloadOffset m) (rxSa m)]
    apply slice_congr
    intro i _
    exact copy_of_outside (.inr (by omega))
  rw [hda] at hfirst
  rw [hsa] at hsecond
  rw [show (12 : ℕ) = 6 + 6 from rfl, slice_append, hfirst, Nat.sub_add_cancel h, hsecond]

theorem withFields_spec {m : Mem} (u : Unassigned) (h : 30 ≤ rxPayloadOffset m) :
    (∀ i, rxPayloadOffset m - 6 ≤ i → withFields m u i = withAddrs m i) ∧
      (∀ i < rxPayloadOffset m - 18, withFields m u i = m i) ∧
      (rxQos m = 1 → slice (withFields m u) (qosCtlAt m) 2 = rxQosCtl m) := by
  have hht : rxHt m < 2 := rxFlag_lt m 5
  have hqos : rxQos m < 2 := rxFlag_lt m 4
  have hlen : (rxQosCtl m).length = 2 := length_slice _ _ _
  have hsa : (rxSa m).length = 6 := length_slice _ _ _
  have hda : (rxDa m).length = 6 := length_slice _ _ _
  have hu := u.length_htCtl
  have hu' := u.length_a4
  rw [withFields]
  set r₁ := putBelow (withAddrs m, rxPayloadOffset m - 6) (rxHt m) u.htCtl with hr₁
  set r₂ := putBelow r₁ (rxQos m) (rxQosCtl m) with hr₂
  have hpos₁ : r₁.2 = rxPayloadOffset m - 6 - 4 * rxHt m := by rw [hr₁, putBelow_snd hht, hu]
  have hpos₂ : r₂.2 = rxPayloadOffset m - 6 - 4 * rxHt m - 2 * rxQos m := by
    rw [hr₂, putBelow_snd hqos, hpos₁, hlen]
  refine ⟨fun i hi => ?_, fun i hi => ?_, fun hpresent => ?_⟩
  · rw [putBelow_of_outside (.inr (by omega)) (by omega),
      putBelow_of_outside (.inr (by omega)) (by omega),
      putBelow_of_outside (.inr hi) (by rw [hu]; dsimp only; omega)]
  · rw [putBelow_of_outside (.inl (by omega)) (by omega),
      putBelow_of_outside (.inl (by omega)) (by omega),
      putBelow_of_outside (.inl (by rw [hu]; dsimp only; omega)) (by rw [hu]; dsimp only; omega)]
    simp only [withAddrs]
    rw [copy_of_outside (.inl (by omega)), copy_of_outside (.inl (by omega))]
  · have hcopied : slice r₂.1 (qosCtlAt m) 2 = rxQosCtl m := by
      have hself := slice_copy_self r₁.1 (qosCtlAt m) (rxQosCtl m)
      rw [hlen] at hself
      rw [hr₂, putBelow, if_pos hpresent, hpos₁, hlen]
      exact hself
    rw [← hcopied]
    apply slice_congr
    intro i hi
    exact putBelow_of_outside (.inr (by rw [hpos₂, qosCtlAt]; omega)) (by omega)

/-! ## Frame and accessors -/

/-- A received data frame with a SNAP header. The descriptor stands before it and ends before byte
10 at the latest as far as it is read or written here, the header has room for the control fields
the flags announce, and `len` covers it. -/
structure Received (m : Mem) : Prop where
  cType : rxCType m = 3
  data : isDataFrame (frameControl m) = true
  snap : hasSnap m = true
  hdrLen : rxHdrLen m = 24 + 2 * rxQos m + 4 * rxHt m
  above : 10 ≤ rxHdrOffset m
  below : rxPayloadOffset m < 256
  len : rxinfoSize + rxHdrLen m ≤ rxLen m

/-- What the accessors find in `m'`: the destination and the source address, the ethertype and the
payload at the data pointer; QoS control at its pointer; and a length that goes from where the
descriptor says that the packet starts to the old end of the frame. -/
structure Converted (m m' : Mem) : Prop where
  addrs : slice m' (getRxpktDataPtr m') 12 = rxDa m ++ rxSa m
  rest : ∀ i, m' (getRxpktDataPtr m' + 12 + i) = m (rxPayloadOffset m + 6 + i)
  qos : rxQos m = 1 → getRxpktQosPtr m' = some (qosCtlAt m) ∧ slice m' (qosCtlAt m) 2 = rxQosCtl m
  len : rxHdrOffset m' + getRxpktDataLen m' = rxHdrOffset m + getRxpktDataLen m

section rx80211to8023

variable {m : Mem} (u : Unassigned)

/-- The length of the control fields the descriptor counts. -/
def encapOffset (m : Mem) : ℕ := 2 * rxQos m

/-- The converted packet. -/
def converted (m : Mem) (u : Unassigned) : Mem :=
  putRxInfo (withFields m u) (rxLen m + 65536 - rxHdrLen m + 6 + encapOffset m)
    (rxPayloadOffset m - 6 - encapOffset m) (encapOffset m)

theorem Received.eq_converted (h : Received m) :
    rx80211to8023 m u = some (converted m u) := by
  have hencap : (if rxQos m = 1 then 2 else 0) = encapOffset m := by
    have hqos : rxQos m < 2 := rxFlag_lt m 4
    rw [encapOffset]
    split <;> omega
  simp only [rx80211to8023, h.data, h.snap, hencap, if_true, Bool.not_true, Bool.and_false,
    Bool.false_eq_true, if_false]
  rfl

theorem Received.le_payload (h : Received m) : rxHdrOffset m + 24 ≤ rxPayloadOffset m := by
  rw [rxPayloadOffset, h.hdrLen]
  omega

/-- The descriptor of the converted packet. -/
theorem Received.fields (h : Received m) :
    rxHdrOffset (converted m u) = rxPayloadOffset m - 6 - encapOffset m ∧
      rxLen (converted m u) = rxLen m - rxHdrLen m + 6 + encapOffset m ∧
      rxF80211 (converted m u) = 0 ∧ rxCType (converted m u) = 3 ∧
      rxQos (converted m u) = rxQos m ∧ rxHt (converted m u) = rxHt m ∧
      rxUse4addr (converted m u) = rxUse4addr m := by
  have hle := h.le_payload
  have habove := h.above
  have hbelow := h.below
  have hlen := h.len
  have hhdr := h.hdrLen
  have hmax : rxLen m < 65536 := getU16_lt m 0
  have hsize : rxinfoSize = 80 := rfl
  have hencap : encapOffset m = 2 * rxQos m := rfl
  -- the descriptor lies below everything that was written before
  have hold : withFields m u 2 = m 2 := (withFields_spec u (by omega)).2.1 2 (by omega)
  obtain ⟨hl, ho, -, hf, hc, hq, hht, ha⟩ := putRxInfo_fields (withFields m u)
    (rxLen m + 65536 - rxHdrLen m + 6 + encapOffset m) (rxPayloadOffset m - 6 - encapOffset m)
    (encapOffset m)
  refine ⟨?_, ?_, hf, ?_, ?_, ?_, ?_⟩
  · rw [converted, ho]
    omega
  · rw [converted, hl]
    omega
  · rw [converted, hc, rxCType, hold]
    exact h.cType
  · rw [converted, hq]
    exact rxFlag_eq hold 4
  · rw [converted, hht]
    exact rxFlag_eq hold 5
  · rw [converted, ha]
    exact rxFlag_eq hold 6

/-- The data pointer leads to the destination address. -/
theorem Received.dataPtr (h : Received m) :
    getRxpktDataPtr (converted m u) = rxPayloadOffset m - 6 := by
  have hle := h.le_payload
  have habove := h.above
  have hqos : rxQos m < 2 := rxFlag_lt m 4
  have hencap : encapOffset m = 2 * rxQos m := rfl
  obtain ⟨ho, -, hf, hc, hq, -, -⟩ := h.fields u
  simp only [getRxpktDataPtr, hf, hc, hq, ho, if_true]
  split <;> omega

/-- The QoS pointer goes up from there over address 4 and HT control. -/
theorem Received.qosPtr (h : Received m) (hqos : rxQos m = 1) :
    getRxpktQosPtr (converted m u)
      = some (rxPayloadOffset m - 8 + 6 * rxUse4addr m + 4 * rxHt m) := by
  have hht : rxHt m < 2 := rxFlag_lt m 5
  have ha : rxUse4addr m < 2 := rxFlag_lt m 6
  obtain ⟨ho, -, -, hc, hq, hh, hu⟩ := h.fields u
  have hone : ¬ (1 : ℕ) = 0 := by decide
  simp only [getRxpktQosPtr, hc, hq, ho, hh, hu, hqos, encapOffset, if_true, if_neg hone]
  rw [Option.some_inj]
  split <;> split <;> omega

/-- The pointer of QoS control is right exactly when there is neither HT control nor address 4. -/
theorem Received.converted_iff (h : Received m) :
    Converted m (converted m u) ↔ (rxQos m = 1 → rxHt m = 0 ∧ rxUse4addr m = 0) := by
  have hle := h.le_payload
  have habove := h.above
  have hencap : encapOffset m = 2 * rxQos m := rfl
  obtain ⟨hfields, -, hqosCtl⟩ := withFields_spec u (m := m) (by omega)
  -- behind the descriptor only the frame itself counts
  have hmem : ∀ i, 10 ≤ i → converted m u i = withFields m u i := fun i hi => putRxInfo_of_le hi
  constructor
  · intro hconv hqos
    have hptr := (hconv.qos hqos).1
    rw [h.qosPtr u hqos, qosCtlAt, Option.some_inj] at hptr
    omega
  · intro hnone
    refine ⟨?_, ?_, ?_, ?_⟩
    · have hsame : slice (converted m u) (rxPayloadOffset m - 6) 12
          = slice (withAddrs m) (rxPayloadOffset m - 6) 12 := by
        apply slice_congr
        intro i _
        rw [hmem _ (by omega), hfields _ (by omega)]
      rw [h.dataPtr u, hsame, slice_withAddrs (by omega)]
    · intro i
      rw [h.dataPtr u, hmem _ (by omega), hfields _ (by omega), withAddrs,
        copy_of_outside (.inr (by rw [rxDa, length_slice]; omega)),
        copy_of_outside (.inr (by rw [rxSa, length_slice]; omega))]
      congr 1
      omega
    · intro hqos
      obtain ⟨hht, hu⟩ := hnone hqos
      refine ⟨?_, ?_⟩
      · rw [h.qosPtr u hqos, qosCtlAt, hht, hu, Option.some_inj]
        omega
      · rw [← hqosCtl hqos]
        apply slice_congr
        intro i hi
        exact hmem _ (by rw [qosCtlAt]; omega)
    · obtain ⟨ho, hl, -⟩ := h.fields u
      have hlen := h.len
      have hhdr := h.hdrLen
      have hpay : rxPayloadOffset m = rxHdrOffset m + rxHdrLen m := rfl
      have hsize : rxinfoSize = 80 := rfl
      rw [ho, getRxpktDataLen, getRxpktDataLen, hl]
      omega

end rx80211to8023

/-- Every received data frame with a SNAP header is converted, whatever `toDS`, `fromDS` and the
flags are, and whatever the unassigned variables hold. The accessors agree with the result exactly
when a frame with QoS control has neither HT control nor address 4. -/
theorem rx80211to8023_converted_iff (m : Mem) (u : Unassigned) (h : Received m) :
    ∃ m', rx80211to8023 m u = some m' ∧
      (Converted m m' ↔ (rxQos m = 1 → rxHt m = 0 ∧ rxUse4addr m = 0)) :=
  ⟨converted m u, h.eq_converted u, h.converted_iff u⟩

/-- A packet with a header of `hdrLen` bytes and the given flags in byte 2 of its descriptor. -/
def rxPacket (flags : UInt8) (hdrLen : ℕ) : Mem := fun i =>
  if i = 0 then UInt8.ofNat (rxinfoSize + hdrLen + 8)
  else if i = 2 then flags
  else if i = 8 then 80
  else if i = 9 then UInt8.ofNat (hdrLen * 4)
  else if i = 80 then 0x88
  else if i = 81 then 0x01
  else if i < 80 + hdrLen then 0
  else (rfc1042 ++ [0x08, 0x00]).getD (i - (80 + hdrLen)) 0

/-- Two variables nobody has assigned to. -/
def someStack : Unassigned := ⟨[0, 0, 0, 0], [0, 0, 0, 0, 0, 0], rfl, rfl⟩

theorem received_rxPacket_qos : Received (rxPacket 0x1B 26) := by
  refine ⟨?_, ?_, ?_, ?_, ?_, ?_, ?_⟩ <;> decide

theorem received_rxPacket_qos_ht : Received (rxPacket 0x3B 30) := by
  refine ⟨?_, ?_, ?_, ?_, ?_, ?_, ?_⟩ <;> decide

/-- With QoS control alone the accessors agree. -/
theorem rx80211to8023_qos :
    ∃ m', rx80211to8023 (rxPacket 0x1B 26) someStack = some m' ∧
      Converted (rxPacket 0x1B 26) m' := by
  obtain ⟨m', hrun, hiff⟩ := rx80211to8023_converted_iff (rxPacket 0x1B 26) someStack
    received_rxPacket_qos
  exact ⟨m', hrun, hiff.mpr (by decide)⟩

/-- With QoS control and HT control the QoS pointer leads into the destination address. -/
theorem rx80211to8023_qos_ht :
    ¬ ∀ m u, Received m → ∃ m', rx80211to8023 m u = some m' ∧ Converted m m' := by
  intro hall
  obtain ⟨m', hrun, hconv⟩ := hall (rxPacket 0x3B 30) someStack received_rxPacket_qos_ht
  rw [received_rxPacket_qos_ht.eq_converted, Option.some_inj] at hrun
  rw [← hrun] at hconv
  exact absurd ((received_rxPacket_qos_ht.converted_iff someStack).mp hconv (by decide))
    (by decide)

end Fullmac.Desc
