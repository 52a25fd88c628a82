import Fullmac.Ap.BeaconCountry
import Fullmac.Ap.BeaconRates
import Fullmac.Ap.BeaconTim
import Fullmac.Reg.Ht40

/-!
# How long a beacon is

Reference: `host/ap/beacon.c`, `ieee802_11_set_beacon`, `GenBeacon` and the writers of the elements;
`host/ap/ieee802_11_mgmt.c`, `hostapd_own_capab_info`; `host/ap/ieee802_11_ht.c`; `host/ap/wmm.c`;
`host/ap/ap_def.h`; `host/ap/ap.h`, `pb_offset`.

The part before the TIM element is written into the buffer `bcn`, the part behind it into a buffer
of its own, and `GenBeacon` writes the TIM element and copies the tail behind it. Each writer moves
the pointer by a number of octets that can be told from what it reads, and the sum is the length of
the beacon (`totalLength_eq`). What the hardware is told is the sum in 8 bits: it is right for
beacons of up to 255 octets, which the buffers hold easily.
-/

namespace Fullmac.Ap.Beacon

open Bytes Writer Runs
open Reg (Regdomain RegCfg RegState BwRule Is5gBand getRegdomain is40mhzLegal chToBitmask flagOf)

/-! ## The writers -/

/-- What a beacon is made of: fields of `ApInfo_st` and its configuration, the settings of the host
application and the regulatory domain. -/
structure BeaconCfg where
  /-- `vif->hw_mode` is `SSV6XXX_HWM_AP`. -/
  apMode : Bool
  /-- `ssv_hal_is_beacon_enable`. -/
  beaconEnable : Bool
  ownAddr : Vector UInt8 6
  bcnInterval : UInt16
  ssid : List UInt8
  rate : RateCfg
  tim : TimInfo
  eCurrentApMode : ℕ
  shortPreamble : Bool
  numStaNoShortPreamble : UInt8
  numStaNoShortSlotTime : UInt8
  numStaNonErp : UInt8
  olbc : Bool
  /-- `sec_type` is not `SSV6XXX_SEC_NONE`. -/
  privacy : Bool
  /-- `ap_conf.wpa` is `WPA_PROTO_RSN`. -/
  rsn : Bool
  /-- What `wpa_auth_get_wpa_ie` returns. -/
  wpaIe : Option (List UInt8)
  regdom : List Regdomain
  regCfg : RegCfg
  reg : RegState
  /-- The rules of the current domain with their bandwidths, as `freq_40MHZ_legal` reads them. -/
  bwRules : List BwRule
  /-- The frequency before the first entry of the 5 GHz table. -/
  stray : ℕ
  apHt20Only : Bool
  disable11n : Bool
  htCapab : UInt16
  aMpduParams : UInt8
  mcsSet : Vector UInt8 16
  nChannel : ℕ
  htOpMode : UInt16
  parameterSetCount : UInt8

/-- `pb_offset`: where in `bcn` the beacon starts. -/
def pbOffset : ℕ := 80

/-- `AP_BEACON_TAIL_BUF_SIZE`. -/
def tailBufSize : ℕ := 256

/-- `AP_MGMT_BEACON_LEN`. -/
def mgmtBeaconLen : ℕ := 512

/-- `AP_MODE_IEEE80211G`. -/
def modeG : ℕ := 2

/-- `IS_40MHZ_AVAILABLE`. -/
def is40mhzAvailable (b : BeaconCfg) : Bool :=
  decide (Is5gBand b.rate.currentChannel)
    && is40mhzLegal b.bwRules b.stray b.rate.currentChannel && !b.apHt20Only

/-- The octets of a little-endian 16-bit field. -/
def le16 (v : UInt16) : List UInt8 := [v.toUInt8, (v >>> 8).toUInt8]

/-- `hostapd_own_capab_info`. -/
def hostapdOwnCapabInfo (b : BeaconCfg) : UInt16 :=
  let capab : UInt16 := 1
  let capab := if b.numStaNoShortPreamble = 0 ∧ b.shortPreamble then capab ||| 0x20 else capab
  let capab := if b.privacy then capab ||| 0x10 else capab
  if b.eCurrentApMode = modeG ∧ b.numStaNoShortSlotTime = 0 then capab ||| 0x400 else capab

/-- `hostapd_eid_ds_params`. -/
def hostapdEidDsParams (b : BeaconCfg) (eid : Cursor) : Cursor :=
  ((eid.put 3).put 1).put (UInt8.ofNat b.rate.currentChannel)

/-- `ieee802_11_erp_info`. -/
def ieee80211ErpInfo (b : BeaconCfg) : UInt8 :=
  if b.eCurrentApMode ≠ modeG then 0
  else
    let erp : UInt8 := if b.olbc then 2 else 0
    let erp := if 0 < b.numStaNonErp then erp ||| 3 else erp
    if 0 < b.numStaNoShortPreamble ∨ b.shortPreamble = false then erp ||| 4 else erp

/-- `hostapd_eid_erp_info`. -/
def hostapdEidErpInfo (b : BeaconCfg) (eid : Cursor) : Cursor :=
  if b.eCurrentApMode ≠ modeG then eid
  else ((eid.put 42).put 1).put (ieee80211ErpInfo b)

/-- `hostapd_eid_wpa`. -/
def hostapdEidWpa (b : BeaconCfg) (eid : Cursor) (len : ℕ) : Cursor :=
  if b.rsn then
    match b.wpaIe with
    | none => eid
    | some ie => if len < ie.length then eid else eid.write ie
  else eid

/-- `hostapd_eid_ht_capabilities`; behind the identifier and the length stands
`struct ieee80211_ht_capabilities`. -/
def hostapdEidHtCapabilities (b : BeaconCfg) (eid : Cursor) : Cursor :=
  if !b.rate.b80211n || b.eCurrentApMode == 0 || b.disable11n then eid
  else
    let htCapab := if is40mhzAvailable b then b.htCapab ||| 2 else b.htCapab
    ((eid.put 45).put 26).write
      (le16 htCapab ++ b.aMpduParams :: b.mcsSet.toList ++ List.replicate 7 0)

/-- `ht_param` of the HT Operation element. -/
def htParam (b : BeaconCfg) : UInt8 :=
  if is40mhzAvailable b then
    let offset : UInt8 :=
      match (chToBitmask b.nChannel).map flagOf with
      | some .ht40plus => 1
      | some .ht40minus => 3
      | _ => 0
    offset ||| 4
  else 0

/-- `hostapd_eid_ht_operation`; behind the identifier and the length stands
`struct ieee80211_ht_operation`. -/
def hostapdEidHtOperation (b : BeaconCfg) (eid : Cursor) : Cursor :=
  if !b.rate.b80211n || b.disable11n then eid
  else
    ((eid.put 61).put 22).write
      (UInt8.ofNat b.nChannel :: htParam b :: le16 b.htOpMode ++ List.replicate 18 0)

/-- `ac_params`, as the octets of its bit fields. -/
def acParams : List UInt8 :=
  [0x03, 0xa4, 0, 0, 0x27, 0xa4, 0, 0, 0x42, 0x43, 0x5e, 0, 0x62, 0x32, 0x2f, 0]

/-- `hostapd_eid_wmm`; behind the identifier and the length stands
`struct wmm_parameter_element`. -/
def hostapdEidWmm (b : BeaconCfg) (eid : Cursor) : Cursor :=
  let pos := ((eid.put 221).advance 1).write
    ([0x00, 0x50, 0xf2, 2, 1, 1, b.parameterSetCount &&& 0xf ||| 0x80, 0] ++ acParams)
  pos.poke (eid.pos + 1) (UInt8.ofNat (pos.pos - eid.pos - 2))

/-- The part of `ieee802_11_set_beacon` before the TIM element. Sequence number and timestamp are
left to the hardware. -/
def writeHead (b : BeaconCfg) (bcn : Mem) : Cursor :=
  let head : Cursor := ⟨bcn, pbOffset⟩
  let pos := head.write ([0x80, 0, 0, 0] ++ List.replicate 6 0xff ++ b.ownAddr.toList
    ++ b.ownAddr.toList)
  let pos := (pos.advance 10).write (le16 b.bcnInterval ++ le16 (hostapdOwnCapabInfo b))
  let pos := ((pos.put 0).put (UInt8.ofNat b.ssid.length)).write b.ssid
  hostapdEidDsParams b (hostapdEidSuppRates b.rate pos)

/-- The part of `ieee802_11_set_beacon` behind the TIM element. The room for the RSN element is a
`size_t`. -/
def writeTail (b : BeaconCfg) (nBHeadLen : ℕ) (tail : Mem) : Cursor :=
  let pos := hostapdEidCountry b.regdom b.regCfg b.reg (mgmtBeaconLen - nBHeadLen) ⟨tail, 0⟩
  let pos := if Is5gBand b.rate.currentChannel then pos else hostapdEidErpInfo b pos
  let pos := hostapdEidExtSuppRates b.rate pos
  let pos := hostapdEidWpa b pos ((tailBufSize + 4294967296 - pos.pos) % 4294967296)
  hostapdEidWmm b (hostapdEidHtOperation b (hostapdEidHtCapabilities b pos))

/-- The buffers of a beacon, and what is kept about it. -/
structure BeaconState where
  bcn : Mem
  tail : Mem
  nBHeadLen : UInt16
  pBeaconTim : ℕ
  nBTailLen : UInt16
  bcnLen : UInt16
  timCntOft : UInt16

/-- `GenBeacon`. -/
def genBeacon (b : BeaconCfg) (st : BeaconState) : BeaconState :=
  let tim := ieee80211BeaconAddTim b.tim pbOffset ⟨st.bcn, st.pBeaconTim⟩
  let pos := tim.1
  let nBlen := UInt8.ofNat (pos.pos + st.nBTailLen.toNat - pbOffset)
  { st with
    bcn := copy pos.mem pos.pos (slice st.tail 0 st.nBTailLen.toNat)
    bcnLen := nBlen.toUInt16
    timCntOft := tim.2 }

/-- `ieee802_11_set_beacon`; there may be no need for a beacon. -/
def ieee80211SetBeacon (b : BeaconCfg) (postToMlme : Bool) (st : BeaconState) :
    Option BeaconState :=
  if (!b.apMode || !b.beaconEnable) && postToMlme then none
  else
    let pos := writeHead b st.bcn
    let nBHeadLen := UInt16.ofNat (pos.pos - pbOffset)
    let tailpos := writeTail b nBHeadLen.toNat st.tail
    some (genBeacon b { st with
      bcn := pos.mem
      tail := tailpos.mem
      nBHeadLen := nBHeadLen
      pBeaconTim := pos.pos
      nBTailLen := UInt16.ofNat tailpos.pos })

/-! ## The length, told from what is read -/

/-- The octets of a map with a bit set. -/
def setOctets (tim : List UInt8) : List ℕ :=
  (List.range tim.length).filter fun i => tim.getD i 0 ≠ 0

/-- From the first such octet, rounded down as the code does it, to the last one. -/
def timSpan (tim : List UInt8) : ℕ :=
  (setOctets tim).getLastD 0 - ((setOctets tim).headD 0 % 256 - (setOctets tim).headD 0 % 2)

/-- The octets of the TIM element. -/
def timLength (t : TimInfo) : ℕ :=
  if 0 < t.numStaPs ∧ ∃ a < t.maxAid + 1, timBit t.tim a = true then 6 + timSpan t.tim else 6

/-- The octets of the Supported Rates element. -/
def suppLength (cfg : RateCfg) : ℕ :=
  match cfg.pRates with
  | none => 0
  | some list => 2 + (min 8 (bandRates cfg list.rates).length +
      if (bandRates cfg list.rates).length + (selector cfg).length < 8 then (selector cfg).length
      else 0)

/-- The octets of the Extended Supported Rates element. -/
def extLength (cfg : RateCfg) : ℕ :=
  match cfg.pRates with
  | none => 0
  | some list =>
    if list.rates.length + (selector cfg).length ≤ 8 then 0
    else 2 + (list.rates.length - 8 + (selector cfg).length)

/-- The octets of the Country element: a triplet for each run, or one for a band without runs. -/
def countryLength (b : BeaconCfg) : ℕ :=
  match getRegdomain b.regdom b.reg.alpha2 with
  | none => 0
  | some dom => countrySize (max 1 (starts 1 (usable2g b.reg)).length +
      max 1 (starts 4 (usable5g b.regCfg dom.regRules b.reg)).length)

/-- The octets of the ERP Information element. -/
def erpLength (b : BeaconCfg) : ℕ :=
  if ¬ Is5gBand b.rate.currentChannel ∧ b.eCurrentApMode = modeG then 3 else 0

/-- The octets of the tail before the RSN element. -/
def frontLength (b : BeaconCfg) : ℕ := countryLength b + erpLength b + extLength b.rate

/-- The octets of the RSN element, which is left out if it does not fit. -/
def rsnLength (b : BeaconCfg) : ℕ :=
  if b.rsn then
    match b.wpaIe with
    | none => 0
    | some ie =>
      if (tailBufSize + 4294967296 - frontLength b) % 4294967296 < ie.length then 0 else ie.length
  else 0

/-- The octets of the HT Capabilities element. -/
def htCapLength (b : BeaconCfg) : ℕ :=
  if b.rate.b80211n && b.eCurrentApMode != 0 && !b.disable11n then 28 else 0

/-- The octets of the HT Operation element. -/
def htOpLength (b : BeaconCfg) : ℕ := if b.rate.b80211n && !b.disable11n then 24 else 0

/-- The octets before the TIM element. -/
def headLength (b : BeaconCfg) : ℕ := 36 + (2 + b.ssid.length) + suppLength b.rate + 3

/-- The octets behind the TIM element. -/
def tailLength (b : BeaconCfg) : ℕ :=
  frontLength b + rsnLength b + htCapLength b + htOpLength b + 26

/-- The octets of a beacon. -/
def beaconLength (b : BeaconCfg) : ℕ := headLength b + timLength b.tim + tailLength b

/-! ## Where the pointer goes -/

variable {b : BeaconCfg}

theorem setOctets_sorted (tim : List UInt8) : (setOctets tim).Pairwise (· < ·) :=
  List.pairwise_lt_range.filter _

theorem mem_setOctets {tim : List UInt8} {i : ℕ} : i ∈ setOctets tim ↔ tim.getD i 0 ≠ 0 := by
  rw [setOctets, List.mem_filter, List.mem_range, decide_eq_true_iff]
  refine and_iff_right_of_imp fun hne => ?_
  by_contra hge
  exact hne (List.getD_eq_default _ _ (Nat.le_of_not_lt hge))

theorem Span.timSpan_eq {tim : List UInt8} {n1 n2 : ℕ} (h : Span tim n1 n2) :
    timSpan tim = n2 - n1 := by
  obtain ⟨j, hj, hbefore, hn1⟩ := h.first
  have hsorted := setOctets_sorted tim
  have hhead : (setOctets tim).headD 0 = j := by
    have hjmem := mem_setOctets.mpr hj
    cases hl : setOctets tim with
    | nil =>
      rw [hl] at hjmem
      cases hjmem
    | cons x xs =>
      rw [hl] at hjmem hsorted
      have hx : tim.getD x 0 ≠ 0 := mem_setOctets.mp (by rw [hl]; exact List.mem_cons_self)
      rcases List.mem_cons.mp hjmem with rfl | hjxs
      · rfl
      · exact absurd (hbefore x ((List.pairwise_cons.mp hsorted).1 j hjxs)) hx
  have hlast : (setOctets tim).getLastD 0 = n2 := by
    have hnmem := mem_setOctets.mpr h.last
    rcases List.eq_nil_or_concat (setOctets tim) with hl | ⟨xs, x, hl⟩
    · rw [hl] at hnmem
      cases hnmem
    · have hx : tim.getD x 0 ≠ 0 := mem_setOctets.mp (by rw [hl]; simp)
      rw [hl] at hnmem hsorted ⊢
      rw [List.concat_eq_append] at hnmem hsorted ⊢
      rw [List.getLastD_eq_getLast?, List.getLast?_concat, Option.getD_some]
      rcases List.mem_append.mp hnmem with hmem | hmem
      · have hlt := (List.pairwise_append.mp hsorted).2.2 n2 hmem x List.mem_cons_self
        exact absurd (h.after x hlt) hx
      · exact (List.mem_singleton.mp hmem).symm
  rw [timSpan, hhead, hlast, hn1]

theorem beaconAddTim_pos (t : TimInfo) (head : ℕ) (eid : Cursor) :
    (ieee80211BeaconAddTim t head eid).1.pos = eid.pos + timLength t := by
  have hiff := haveBits_iff t
  simp only [← Nat.lt_succ_iff] at hiff
  by_cases hbits : haveBits t = true
  · obtain ⟨a, -, ha⟩ := (hiff.mp hbits).2
    have hspan := span_of_octet (octet_ne_zero_of_timBit ha)
    rw [beaconAddTim_eq head eid hbits rfl rfl hspan, timLength, if_pos (hiff.mp hbits),
      hspan.timSpan_eq, Cursor.write_pos]
    simp only [timElement, List.length_cons, hspan.length_spanOctets]
    omega
  · rw [timLength, if_neg fun h => hbits (hiff.mpr h), ieee80211BeaconAddTim, if_neg hbits]
    rfl

theorem suppRates_pos (cfg : RateCfg) (eid : Cursor) :
    (hostapdEidSuppRates cfg eid).pos = eid.pos + suppLength cfg := by
  unfold suppLength
  cases hlist : cfg.pRates with
  | none => simp [hostapdEidSuppRates, hlist]
  | some list =>
    rw [hostapdEidSuppRates_eq hlist, Cursor.write_pos, List.length_cons, List.length_cons,
      length_suppBody]
    change _ = eid.pos + (2 + _)
    omega

theorem extRates_pos (cfg : RateCfg) (eid : Cursor) :
    (hostapdEidExtSuppRates cfg eid).pos = eid.pos + extLength cfg := by
  unfold extLength
  cases hlist : cfg.pRates with
  | none => simp [hostapdEidExtSuppRates, hlist]
  | some list =>
    rw [hostapdEidExtSuppRates_eq hlist]
    change _ = eid.pos + ite _ _ _
    split
    · rfl
    · rw [Cursor.write_pos, List.length_cons, List.length_cons, List.length_append, List.length_map,
        List.length_drop]
      omega

theorem suppLength_le (cfg : RateCfg) : suppLength cfg ≤ 10 := by
  have hs1 := selector_length_le cfg
  unfold suppLength
  split
  · exact Nat.zero_le 10
  · split <;> omega

theorem country_pos (maxLen : ℕ) (h2 : Mask2g b.reg) (hlen : 200 ≤ maxLen) (eid : Cursor) :
    (hostapdEidCountry b.regdom b.regCfg b.reg maxLen eid).pos = eid.pos + countryLength b := by
  unfold countryLength
  cases hdom : getRegdomain b.regdom b.reg.alpha2 with
  | none => rw [hostapdEidCountry, if_neg (by omega), hdom]; rfl
  | some dom =>
    have hsix : 6 ≤ maxLen := by omega
    obtain ⟨ts, hts, heq⟩ := hostapdEidCountry_eq b.regCfg hdom h2 hsix eid
    have hbands := bands_usable h2 b.regCfg dom.regRules
    have htotal := hts.length hbands.pairwise2 hbands.pairwise5
    obtain ⟨hstarts2, hstarts5⟩ := starts_usable_le b.regCfg dom.regRules b.reg
    have hall : ts.take ((maxLen - 5) / 3) = ts := List.take_of_length_le (by omega)
    rw [heq, hall, country_write_pos, htotal]

theorem erp_pos (b : BeaconCfg) (eid : Cursor) :
    (if Is5gBand b.rate.currentChannel then eid else hostapdEidErpInfo b eid).pos =
      eid.pos + erpLength b := by
  unfold erpLength hostapdEidErpInfo
  by_cases h5 : Is5gBand b.rate.currentChannel
  · simp [h5]
  · by_cases hg : b.eCurrentApMode = modeG <;> simp [h5, hg]

theorem wpa_pos (b : BeaconCfg) {eid : Cursor} (hpos : eid.pos = frontLength b) :
    (hostapdEidWpa b eid ((tailBufSize + 4294967296 - eid.pos) % 4294967296)).pos =
      eid.pos + rsnLength b := by
  unfold hostapdEidWpa rsnLength
  rw [hpos]
  split
  · cases hie : b.wpaIe with
    | none => simp [hpos]
    | some ie =>
      dsimp only
      split
      · rw [hpos, Nat.add_zero]
      · rw [Cursor.write_pos, hpos]
  · rw [hpos, Nat.add_zero]

theorem htCap_pos (b : BeaconCfg) (eid : Cursor) :
    (hostapdEidHtCapabilities b eid).pos = eid.pos + htCapLength b := by
  unfold hostapdEidHtCapabilities htCapLength
  cases hn : b.rate.b80211n <;> cases hd : b.disable11n <;>
    by_cases hm : b.eCurrentApMode = 0 <;> simp [hm, le16]

theorem htOp_pos (b : BeaconCfg) (eid : Cursor) :
    (hostapdEidHtOperation b eid).pos = eid.pos + htOpLength b := by
  unfold hostapdEidHtOperation htOpLength
  cases hn : b.rate.b80211n <;> cases hd : b.disable11n <;> simp [le16]

theorem wmm_pos (b : BeaconCfg) (eid : Cursor) : (hostapdEidWmm b eid).pos = eid.pos + 26 := by
  simp [hostapdEidWmm, Cursor.advance, acParams]

theorem writeHead_pos (b : BeaconCfg) (bcn : Mem) :
    (writeHead b bcn).pos = pbOffset + headLength b := by
  simp only [writeHead, hostapdEidDsParams, Cursor.put_eq_write, Cursor.write_pos, suppRates_pos,
    Cursor.advance, le16, List.length_append, List.length_cons, List.length_nil,
    List.length_replicate, Vector.length_toList, headLength]
  omega

theorem writeTail_pos (h2 : Mask2g b.reg) {nBHeadLen : ℕ} (hhead : nBHeadLen ≤ 312)
    (tail : Mem) : (writeTail b nBHeadLen tail).pos = tailLength b := by
  have hcountry := country_pos (mgmtBeaconLen - nBHeadLen) h2
    (by unfold mgmtBeaconLen; omega) ⟨tail, 0⟩
  have hfront : (hostapdEidExtSuppRates b.rate (if Is5gBand b.rate.currentChannel then
      hostapdEidCountry b.regdom b.regCfg b.reg (mgmtBeaconLen - nBHeadLen) ⟨tail, 0⟩
      else hostapdEidErpInfo b
        (hostapdEidCountry b.regdom b.regCfg b.reg (mgmtBeaconLen - nBHeadLen) ⟨tail, 0⟩))).pos =
      frontLength b := by
    rw [extRates_pos, erp_pos, hcountry, Nat.zero_add, frontLength]
  rw [writeTail, wmm_pos, htOp_pos, htCap_pos, wpa_pos b hfront, hfront, tailLength]

/-! ## What the hardware is told -/

/-- The octets that are really written: before the TIM element, for it, and behind it. -/
def totalLength (b : BeaconCfg) (st : BeaconState) : ℕ :=
  let head := writeHead b st.bcn
  let tim := (ieee80211BeaconAddTim b.tim pbOffset head).1
  (tim.pos - pbOffset) + (writeTail b (head.pos - pbOffset) st.tail).pos

/-- The buffers hold what is written, and `bcn_len` is its length. -/
structure BeaconRight (b : BeaconCfg) (st r : BeaconState) : Prop where
  tail : (writeTail b ((writeHead b st.bcn).pos - pbOffset) st.tail).pos ≤ tailBufSize
  buffer : pbOffset + totalLength b st ≤ mgmtBeaconLen
  told : r.bcnLen.toNat = totalLength b st

variable {st r : BeaconState} {postToMlme : Bool}

theorem headLength_le (hssid : b.ssid.length ≤ 32) : headLength b ≤ 83 := by
  have hsupp := suppLength_le b.rate
  unfold headLength
  omega

theorem totalLength_eq (h2 : Mask2g b.reg) (hssid : b.ssid.length ≤ 32) (st : BeaconState) :
    totalLength b st = beaconLength b := by
  have hhead := headLength_le hssid
  rw [totalLength, beaconAddTim_pos, writeHead_pos, Nat.add_sub_cancel_left,
    writeTail_pos h2 (by omega), beaconLength]
  omega

/-- The hardware is told the length in 8 bits. -/
theorem bcnLen_eq (h2 : Mask2g b.reg) (hssid : b.ssid.length ≤ 32)
    (hset : ieee80211SetBeacon b postToMlme st = some r) :
    r.bcnLen.toNat = beaconLength b % 256 := by
  have hhead := headLength_le hssid
  rw [ieee80211SetBeacon] at hset
  split at hset
  · cases hset
  · have hlen : (UInt16.ofNat ((writeHead b st.bcn).pos - pbOffset)).toNat = headLength b := by
      rw [writeHead_pos, Nat.add_sub_cancel_left, UInt16.toNat_ofNat', Nat.mod_eq_of_lt (by omega)]
    have htail : (UInt16.ofNat (writeTail b (headLength b) st.tail).pos).toNat =
        tailLength b % 65536 := by
      rw [writeTail_pos h2 (by omega), UInt16.toNat_ofNat']
    obtain rfl := Option.some.inj hset
    simp only [genBeacon, UInt8.toNat_toUInt16, UInt8.toNat_ofNat', hlen, htail, beaconAddTim_pos]
    rw [writeHead_pos, beaconLength]
    omega

/-- A beacon whose length takes more than 8 bits is not the one the hardware is told of. -/
theorem BeaconRight.not_long (h : BeaconRight b st r) (h2 : Mask2g b.reg)
    (hssid : b.ssid.length ≤ 32) (hset : ieee80211SetBeacon b postToMlme st = some r) :
    ¬ 256 ≤ beaconLength b := by
  have htold := bcnLen_eq h2 hssid hset
  rw [h.told, totalLength_eq h2 hssid] at htold
  omega

/-- All is as it should be exactly for the beacons of up to 255 octets. -/
theorem ieee80211SetBeacon_right_iff (b : BeaconCfg) (postToMlme : Bool) (st r : BeaconState)
    (h2 : Mask2g b.reg) (hssid : b.ssid.length ≤ 32)
    (hset : ieee80211SetBeacon b postToMlme st = some r) :
    BeaconRight b st r ↔ beaconLength b ≤ 255 := by
  have hhead := headLength_le hssid
  have htotal := totalLength_eq h2 hssid st
  have htold := bcnLen_eq h2 hssid hset
  constructor
  · intro h
    have hright := h.told
    omega
  · intro hle
    refine ⟨?_, ?_, by omega⟩
    · rw [writeHead_pos, Nat.add_sub_cancel_left, writeTail_pos h2 (by omega), tailBufSize]
      unfold beaconLength at hle
      omega
    · rw [htotal, pbOffset, mgmtBeaconLen]
      omega

/-- A run of the 2.4 GHz band and the next are a channel apart, and there are fourteen channels. -/
theorem countryLength_le (h2 : Mask2g b.reg) : countryLength b ≤ 102 := by
  unfold countryLength
  split
  · exact Nat.zero_le 102
  next dom _ =>
    have hbands := bands_usable h2 b.regCfg dom.regRules
    have hnodup : (usable2g b.reg).Nodup := hbands.pairwise2.imp fun hlt => Nat.ne_of_lt hlt
    have hstarts2 := two_mul_length_starts_le hnodup (fun c hc => (hbands.mem2 c hc).1)
      fun c hc => (hbands.mem2 c hc).2
    have hstarts5 := (starts_usable_le b.regCfg dom.regRules b.reg).2
    unfold countrySize
    omega

theorem timLength_le {t : TimInfo} (htim : t.tim.length ≤ 12) : timLength t ≤ 17 := by
  have hlast : (setOctets t.tim).getLastD 0 ≤ 11 := by
    rcases List.eq_nil_or_concat (setOctets t.tim) with hl | ⟨xs, x, hl⟩
    · rw [hl]
      exact Nat.zero_le 11
    · have hx : x ∈ setOctets t.tim := by
        rw [hl]
        simp
      have hlt := List.mem_range.mp (List.mem_filter.mp hx).1
      rw [hl, List.concat_eq_append, List.getLastD_eq_getLast?, List.getLast?_concat,
        Option.getD_some]
      omega
  unfold timLength timSpan
  split <;> omega

/-- With the twelve rates there are, an RSN element of up to 64 octets and a map of up to twelve,
the buffers hold every beacon, also one whose length does not fit into 8 bits. -/
theorem beacon_fits (h2 : Mask2g b.reg) (hssid : b.ssid.length ≤ 32)
    (hrates : ∀ list, b.rate.pRates = some list → list.rates.length ≤ 12)
    (hie : ∀ ie, b.wpaIe = some ie → ie.length ≤ 64) (htim : b.tim.tim.length ≤ 12) :
    tailLength b ≤ tailBufSize ∧ pbOffset + beaconLength b ≤ mgmtBeaconLen := by
  have hhead := headLength_le hssid
  have hs1 := selector_length_le b.rate
  have hcountry := countryLength_le h2
  have herp : erpLength b ≤ 3 := by
    unfold erpLength
    split <;> omega
  have hext : extLength b.rate ≤ 7 := by
    unfold extLength
    split
    · exact Nat.zero_le 7
    next list hlist =>
      have hlen := hrates list hlist
      split <;> omega
  have hrsn : rsnLength b ≤ 64 := by
    unfold rsnLength
    split
    · split
      · exact Nat.zero_le 64
      next ie heq =>
        have hlen := hie ie heq
        split <;> omega
    · exact Nat.zero_le 64
  have hcap : htCapLength b ≤ 28 := by
    unfold htCapLength
    split <;> omega
  have hop : htOpLength b ≤ 24 := by
    unfold htOpLength
    split <;> omega
  have hspan := timLength_le htim
  unfold tailLength beaconLength tailBufSize pbOffset mgmtBeaconLen tailLength frontLength
  omega

/-- Buffers of zeros. -/
def blankState : BeaconState := ⟨fun _ => 0, fun _ => 0, 0, 0, 0, 0, 0⟩

/-- A beacon with a name of 32 octets, all rates, HT, an RSN element of `n` octets, and sleeping
stations with the AIDs 1 and 64. -/
def fullBeacon (n : ℕ) : BeaconCfg where
  apMode := true
  beaconEnable := true
  ownAddr := Vector.replicate 6 2
  bcnInterval := 100
  ssid := List.replicate 32 65
  rate := rateCfg24 false allRates
  tim := ⟨2, [2, 0, 0, 0, 0, 0, 0, 0, 1, 0, 0, 0], 64, 0, false⟩
  eCurrentApMode := modeG
  shortPreamble := false
  numStaNoShortPreamble := 0
  numStaNoShortSlotTime := 0
  numStaNonErp := 0
  olbc := false
  privacy := true
  rsn := true
  wpaIe := some (List.replicate n 0)
  regdom := [usDomain]
  regCfg := ⟨true, false⟩
  reg := usMasks
  bwRules := []
  stray := 0
  apHt20Only := true
  disable11n := false
  htCapab := 0
  aMpduParams := 0
  mcsSet := Vector.replicate 16 0
  nChannel := 6
  htOpMode := 0
  parameterSetCount := 0

/-- What becomes of the buffers. -/
def sent (b : BeaconCfg) : BeaconState := (ieee80211SetBeacon b false blankState).getD blankState

theorem ieee80211SetBeacon_right_fullBeacon :
    ieee80211SetBeacon (fullBeacon 22) false blankState = some (sent (fullBeacon 22)) ∧
      BeaconRight (fullBeacon 22) blankState (sent (fullBeacon 22)) :=
  ⟨rfl, (ieee80211SetBeacon_right_iff (fullBeacon 22) false blankState (sent (fullBeacon 22))
    mask2g_usMasks (by decide) rfl).mpr (by decide +kernel)⟩

/-- With an RSN element of 64 octets there are 260 octets, and the hardware is told 4. -/
theorem not_beaconRight_fullBeacon :
    ieee80211SetBeacon (fullBeacon 64) false blankState = some (sent (fullBeacon 64)) ∧
      Mask2g (fullBeacon 64).reg ∧ (fullBeacon 64).ssid.length ≤ 32 ∧
        ¬ BeaconRight (fullBeacon 64) blankState (sent (fullBeacon 64)) := by
  have hset : ieee80211SetBeacon (fullBeacon 64) false blankState = some (sent (fullBeacon 64)) :=
    rfl
  have hssid : (fullBeacon 64).ssid.length ≤ 32 := by decide
  refine ⟨hset, mask2g_usMasks, hssid, fun h => ?_⟩
  have hlen : beaconLength (fullBeacon 64) = 260 := by decide +kernel
  exact h.not_long (b := fullBeacon 64) mask2g_usMasks hssid hset (by rw [hlen]; decide)

end Fullmac.Ap.Beacon
