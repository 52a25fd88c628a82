import Fullmac.Desc.TxPadding

/-!
# Marking a buffered frame

Reference: `host/ap/ap_sta_info.c`, the last loop of `ieee80211_sta_ps_deliver_response`;
`host/hal/SSV6006/ssv6006_pkt.c`; `host/core/ieee80211.h`, `ieee80211_has_a4` and
`ieee80211_get_qos_ctl`.

A frame that is delivered to a sleeping station tells it whether more frames wait, in its descriptor
and, where it is an 802.11 frame, in its frame control field as well. The last frame of a service
period also ends it, by a bit of its QoS control field, if its descriptor says that there is one. In
an 802.3 frame the field stands behind the descriptor, and the driver looks for it behind an HT
control field (`getTxreq0QosPtr`).
-/

namespace Fullmac.Desc

open Bytes

/-! ## The code -/

/-- A frame behind a descriptor `struct ap_tx_desp`: the memory, `host_txreq0` and `data`, as
`ssv6xxx_data_prepare_tx_data` leaves them. -/
structure PsFrame where
  mem : Mem
  hostTxreq0 : ℕ
  data : ℕ
  cType : txField mem hostTxreq0 16 3 = 0
  data_eq : data = getTxreq0DataPtr mem hostTxreq0

/-- `ieee80211_has_a4`. -/
def hasA4 (fc : ℕ) : Bool := fc.testBit 8 && fc.testBit 9

/-- `ieee80211_get_qos_ctl`. -/
def getQosCtl (m : Mem) (hdr : ℕ) : ℕ := if hasA4 (getU16 m hdr) then hdr + 30 else hdr + 24

/-- Set or clear `IEEE80211_FCTL_MOREDATA`. -/
def fcMoreData (fc : ℕ) (more : Bool) : ℕ := if more then fc ||| 0x2000 else fc &&& 0xDFFF

/-- The more-data bits: of the descriptor, then of an 802.11 header. -/
def markMoreData (f : PsFrame) (more : Bool) : Mem :=
  let m := setTxField f.mem f.hostTxreq0 28 1 more.toNat
  if txField m f.hostTxreq0 19 1 ≠ 0 then
    setU16 m f.data (fcMoreData (getU16 m f.data) (txField m f.hostTxreq0 28 1 ≠ 0))
  else m

/-- Where the EOSP bit goes, if the frame has QoS. -/
def eospPtr (f : PsFrame) (m : Mem) : Option ℕ :=
  if txField m f.hostTxreq0 20 1 = 1 then
    if txField m f.hostTxreq0 19 1 = 1 then some (getQosCtl m f.data)
    else getTxreq0QosPtr m f.hostTxreq0
  else none

/-- What the loop does to the memory of one frame; `eosp` is its test for the end of a service
period. -/
def markMem (f : PsFrame) (more eosp : Bool) : Mem :=
  let m := markMoreData f more
  match if eosp then eospPtr f m else none with
  | some p => Function.update m p (m p ||| 0x10)
  | none => m

/-! ## The descriptor -/

/-- The data are behind the descriptor. -/
theorem PsFrame.le_data (f : PsFrame) : f.hostTxreq0 + txreq0Size ≤ f.data := by
  rw [f.data_eq, getTxreq0DataPtr]
  simp only [txreqLen, f.cType, if_true]
  split <;> split <;> split <;> omega

/-- The word with another more-data bit. -/
theorem getU32_setTxField_moreData (m : Mem) (req0 : ℕ) (more : Bool) :
    getU32 (setTxField m req0 28 1 more.toNat) req0
      = getU32 m req0 - txField m req0 28 1 * 2 ^ 28 + more.toNat * 2 ^ 28 := by
  have hlt := getU32_lt m req0
  have hmore := more.toNat_le
  rw [setTxField, getU32_setU32, txField]
  omega

/-- The fields of a word that differs in the more-data bit only. -/
structure SameButMore (m m' : Mem) (req0 : ℕ) : Prop where
  cType : txField m' req0 16 3 = txField m req0 16 3
  f80211 : txField m' req0 19 1 = txField m req0 19 1
  qos : txField m' req0 20 1 = txField m req0 20 1
  ht : txField m' req0 21 1 = txField m req0 21 1
  addr4 : txField m' req0 22 1 = txField m req0 22 1
  padding : txField m' req0 24 2 = txField m req0 24 2

theorem sameButMore_setTxField (m : Mem) (req0 : ℕ) (more : Bool) :
    SameButMore m (setTxField m req0 28 1 more.toNat) req0 := by
  have hword := getU32_setTxField_moreData m req0 more
  have hmore := more.toNat_le
  simp only [txField] at hword
  constructor <;> simp only [txField] <;> omega

theorem moreData_setTxField (m : Mem) (req0 : ℕ) (more : Bool) :
    txField (setTxField m req0 28 1 more.toNat) req0 28 1 = more.toNat := by
  have hword := getU32_setTxField_moreData m req0 more
  have hmore := more.toNat_le
  simp only [txField] at hword ⊢
  omega

/-- The pointers depend on the fields of the word only. -/
theorem SameButMore.pointers {m m' : Mem} {req0 : ℕ} (h : SameButMore m m' req0) :
    getTxreq0DataPtr m' req0 = getTxreq0DataPtr m req0 ∧
      getTxreq0QosPtr m' req0 = getTxreq0QosPtr m req0 := by
  simp only [getTxreq0DataPtr, getTxreq0QosPtr, txreqLen, h.cType, h.qos, h.ht, h.addr4, h.padding,
    and_self]

/-! ## The frame control field -/

theorem fcMoreData_lt {fc : ℕ} (h : fc < 65536) (more : Bool) : fcMoreData fc more < 65536 := by
  cases more with
  | true => exact Nat.or_lt_two_pow (n := 16) h (by decide)
  | false => exact Nat.lt_of_le_of_lt Nat.and_le_left h

theorem testBit_fcMoreData (fc : ℕ) (more : Bool) : (fcMoreData fc more).testBit 13 = more := by
  have hset : Nat.testBit 0x2000 13 = true := by decide
  have hclear : Nat.testBit 0xDFFF 13 = false := by decide
  cases more with
  | true => rw [fcMoreData, if_pos rfl, Nat.testBit_or, hset, Bool.or_true]
  | false => rw [fcMoreData, if_neg Bool.false_ne_true, Nat.testBit_and, hclear, Bool.and_false]

/-- The other bits stay. -/
theorem testBit_fcMoreData_of_ne (fc : ℕ) (more : Bool) {j : ℕ} (hj : j = 8 ∨ j = 9) :
    (fcMoreData fc more).testBit j = fc.testBit j := by
  have hset : Nat.testBit 0x2000 j = false := by rcases hj with rfl | rfl <;> decide
  have hclear : Nat.testBit 0xDFFF j = true := by rcases hj with rfl | rfl <;> decide
  cases more with
  | true => rw [fcMoreData, if_pos rfl, Nat.testBit_or, hset, Bool.or_false]
  | false => rw [fcMoreData, if_neg Bool.false_ne_true, Nat.testBit_and, hclear, Bool.and_true]

theorem hasA4_fcMoreData (fc : ℕ) (more : Bool) : hasA4 (fcMoreData fc more) = hasA4 fc := by
  rw [hasA4, testBit_fcMoreData_of_ne fc more (.inl rfl),
    testBit_fcMoreData_of_ne fc more (.inr rfl), ← hasA4]

/-! ## A marked frame -/

section Mark

variable (f : PsFrame) (more eosp : Bool)

/-- The descriptor after the more-data bits are set. -/
theorem getU32_markMoreData :
    getU32 (markMoreData f more) f.hostTxreq0
      = getU32 (setTxField f.mem f.hostTxreq0 28 1 more.toNat) f.hostTxreq0 := by
  have hdata := f.le_data
  have hsize : txreq0Size = 12 := rfl
  unfold markMoreData
  dsimp only
  split
  · exact getU32_congr fun i hi => setU16_of_outside (by omega)
  · rfl

theorem sameButMore_markMoreData : SameButMore f.mem (markMoreData f more) f.hostTxreq0 := by
  have hsame := sameButMore_setTxField f.mem f.hostTxreq0 more
  have hfield := txField_congr (getU32_markMoreData f more)
  exact ⟨(hfield 16 3).trans hsame.cType, (hfield 19 1).trans hsame.f80211,
    (hfield 20 1).trans hsame.qos, (hfield 21 1).trans hsame.ht, (hfield 22 1).trans hsame.addr4,
    (hfield 24 2).trans hsame.padding⟩

/-- The EOSP bit goes behind the descriptor, in an 802.11 frame behind the first 24 bytes. -/
theorem le_of_eospPtr {p : ℕ} (h : eospPtr f (markMoreData f more) = some p) :
    f.hostTxreq0 + txreq0Size ≤ p ∧
      (txField f.mem f.hostTxreq0 19 1 = 1 → f.data + 24 ≤ p) := by
  have hdata := f.le_data
  have hsame := sameButMore_markMoreData f more
  unfold eospPtr at h
  rw [hsame.f80211] at h
  split at h
  · split at h
    · rw [Option.some.injEq, getQosCtl] at h
      split at h <;> exact ⟨by omega, fun _ => by omega⟩
    · next hf =>
      refine ⟨?_, fun h' => absurd h' hf⟩
      simp only [getTxreq0QosPtr, txreqLen, hsame.cType, f.cType, if_true] at h
      split at h
      · cases h
      · rw [Option.some.injEq] at h
        split at h <;> split at h <;> omega
  · cases h

/-- Besides the more-data bits, one byte may change. -/
theorem markMem_of_ne {i : ℕ} (h : eospPtr f (markMoreData f more) ≠ some i) :
    markMem f more eosp i = markMoreData f more i := by
  cases eosp with
  | false => rfl
  | true =>
    cases hp : eospPtr f (markMoreData f more) with
    | none => simp only [markMem, if_true, hp]
    | some p =>
      have hne : i ≠ p := fun heq => h (by rw [hp, heq])
      simp only [markMem, if_true, hp, Function.update_of_ne hne]

theorem getU32_markMem :
    getU32 (markMem f more eosp) f.hostTxreq0
      = getU32 (setTxField f.mem f.hostTxreq0 28 1 more.toNat) f.hostTxreq0 := by
  rw [← getU32_markMoreData]
  have hsize : txreq0Size = 12 := rfl
  refine getU32_congr fun i hi => markMem_of_ne f more eosp fun hp => ?_
  have := (le_of_eospPtr f more hp).1
  omega

theorem sameButMore_markMem : SameButMore f.mem (markMem f more eosp) f.hostTxreq0 := by
  have hsame := sameButMore_setTxField f.mem f.hostTxreq0 more
  have hfield := txField_congr (getU32_markMem f more eosp)
  exact ⟨(hfield 16 3).trans hsame.cType, (hfield 19 1).trans hsame.f80211,
    (hfield 20 1).trans hsame.qos, (hfield 21 1).trans hsame.ht, (hfield 22 1).trans hsame.addr4,
    (hfield 24 2).trans hsame.padding⟩

/-- What the loop makes of a frame. -/
def PsFrame.mark : PsFrame where
  mem := markMem f more eosp
  hostTxreq0 := f.hostTxreq0
  data := f.data
  cType := (sameButMore_markMem f more eosp).cType.trans f.cType
  data_eq := f.data_eq.trans (sameButMore_markMem f more eosp).pointers.1.symm

/-! ## Reading the marks -/

/-- The frame is an 802.11 frame. -/
def PsFrame.Is80211 : Prop := txField f.mem f.hostTxreq0 19 1 = 1

/-- The frame has a QoS control field. -/
def PsFrame.HasQos : Prop := txField f.mem f.hostTxreq0 20 1 = 1

/-- The frame has an HT control field. -/
def PsFrame.HasHt : Prop := txField f.mem f.hostTxreq0 21 1 = 1

instance : Decidable f.Is80211 := inferInstanceAs (Decidable (_ = _))

instance : Decidable f.HasQos := inferInstanceAs (Decidable (_ = _))

/-- The descriptor says that more frames wait. -/
def PsFrame.moreData : Bool := txField f.mem f.hostTxreq0 28 1 = 1

/-- The frame control field says that more frames wait. -/
def PsFrame.fcMore : Bool := (getU16 f.mem f.data).testBit 13

/-- Where the QoS control field is: in an 802.11 header, or behind the descriptor and the fourth
address. -/
def PsFrame.qosCtlAt : Option ℕ :=
  if f.HasQos then
    some (if f.Is80211 then getQosCtl f.mem f.data
      else f.hostTxreq0 + txreq0Size + if txField f.mem f.hostTxreq0 22 1 ≠ 0 then 6 else 0)
  else none

/-- The frame carries EOSP: its QoS control field has the bit. -/
def PsFrame.carriesEosp : Bool :=
  match f.qosCtlAt with
  | some p => (f.mem p).toNat.testBit 4
  | none => false

/-- The descriptor gets the bit it is given. -/
@[simp] theorem moreData_mark : (f.mark more eosp).moreData = more := by
  have hfield : txField (markMem f more eosp) f.hostTxreq0 28 1 = more.toNat :=
    (txField_congr (getU32_markMem f more eosp) 28 1).trans
      (moreData_setTxField f.mem f.hostTxreq0 more)
  cases more <;> simp [PsFrame.moreData, PsFrame.mark, hfield]

/-- The frame control field of an 802.11 frame. -/
theorem getU16_mark {f : PsFrame} (h : f.Is80211) :
    getU16 (markMem f more eosp) f.data = fcMoreData (getU16 f.mem f.data) more := by
  have hdata := f.le_data
  have hsize : txreq0Size = 12 := rfl
  have hsame := sameButMore_setTxField f.mem f.hostTxreq0 more
  have hf : txField (setTxField f.mem f.hostTxreq0 28 1 more.toNat) f.hostTxreq0 19 1 ≠ 0 := by
    rw [hsame.f80211, h]
    exact Nat.one_ne_zero
  have hmore : (decide (txField (setTxField f.mem f.hostTxreq0 28 1 more.toNat) f.hostTxreq0 28 1
      ≠ 0)) = more := by
    rw [moreData_setTxField]
    cases more <;> rfl
  have hold : getU16 (setTxField f.mem f.hostTxreq0 28 1 more.toNat) f.data
      = getU16 f.mem f.data :=
    getU16_congr (setTxField_of_outside (by omega)) (setTxField_of_outside (by omega))
  -- the EOSP bit is behind the header's first two bytes
  have hne : ∀ i < 24, eospPtr f (markMoreData f more) ≠ some (f.data + i) := by
    intro i hi hp
    have := (le_of_eospPtr f more hp).2 h
    omega
  calc getU16 (markMem f more eosp) f.data
      = getU16 (markMoreData f more) f.data :=
        getU16_congr (markMem_of_ne f more eosp (hne 0 (by omega)))
          (markMem_of_ne f more eosp (hne 1 (by omega)))
    _ = fcMoreData (getU16 f.mem f.data) more := by
        rw [markMoreData, if_pos hf, getU16_setU16, hold, hmore,
          Nat.mod_eq_of_lt (fcMoreData_lt (getU16_lt _ _) more)]

theorem fcMore_mark {f : PsFrame} (h : f.Is80211) : (f.mark more eosp).fcMore = more := by
  change (getU16 (markMem f more eosp) f.data).testBit 13 = more
  rw [getU16_mark more eosp h, testBit_fcMoreData]

/-- The QoS control field stays where it is. -/
theorem qosCtlAt_mark : (f.mark more eosp).qosCtlAt = f.qosCtlAt := by
  have hsame := sameButMore_markMem f more eosp
  have hctl : f.Is80211 → getQosCtl (markMem f more eosp) f.data = getQosCtl f.mem f.data := by
    intro h
    rw [getQosCtl, getU16_mark more eosp h, hasA4_fcMoreData, ← getQosCtl]
  have hqos : (f.mark more eosp).HasQos ↔ f.HasQos := iff_of_eq (congrArg (· = 1) hsame.qos)
  have hf : (f.mark more eosp).Is80211 ↔ f.Is80211 := iff_of_eq (congrArg (· = 1) hsame.f80211)
  simp only [PsFrame.qosCtlAt, hqos, hf]
  simp only [PsFrame.mark, hsame.addr4]
  by_cases h : f.Is80211
  · rw [if_pos h, if_pos h, hctl h]
  · rw [if_neg h, if_neg h]

/-- The QoS control field does not overlap the more-data bits. -/
theorem markMoreData_qosCtl {p : ℕ} (h : f.qosCtlAt = some p) :
    markMoreData f more p = f.mem p := by
  have hdata := f.le_data
  have hsize : txreq0Size = 12 := rfl
  have hsame := sameButMore_setTxField f.mem f.hostTxreq0 more
  unfold PsFrame.qosCtlAt at h
  split at h
  · rw [Option.some.injEq] at h
    rw [markMoreData, hsame.f80211]
    by_cases hf : f.Is80211
    · rw [if_pos hf, getQosCtl] at h
      have hp : f.data + 24 ≤ p := by split at h <;> omega
      rw [if_pos (by rw [hf]; exact Nat.one_ne_zero), setU16_of_outside (by omega),
        setTxField_of_outside (by omega)]
    · have hzero : txField f.mem f.hostTxreq0 19 1 = 0 := by
        have hlt : txField f.mem f.hostTxreq0 19 1 < 2 := Nat.mod_lt _ (by decide)
        unfold PsFrame.Is80211 at hf
        omega
      rw [if_neg hf] at h
      rw [hzero, if_neg (by simp), setTxField_of_outside (by omega)]
  · cases h

/-- Only the end of a service period changes EOSP. -/
theorem carriesEosp_mark_false : (f.mark more false).carriesEosp = f.carriesEosp := by
  unfold PsFrame.carriesEosp
  rw [qosCtlAt_mark]
  cases h : f.qosCtlAt with
  | none => rfl
  | some p => exact congrArg (fun b : UInt8 => b.toNat.testBit 4) (markMoreData_qosCtl f more h)

/-- A frame without a QoS control field does not carry EOSP. -/
theorem carriesEosp_mark_of_not_hasQos (h : ¬ f.HasQos) :
    (f.mark more eosp).carriesEosp = false := by
  unfold PsFrame.carriesEosp
  rw [qosCtlAt_mark, PsFrame.qosCtlAt, if_neg h]

/-- A frame with a QoS control field and no HT control field does, at the end of a service
period. -/
theorem carriesEosp_mark_true {f : PsFrame} (h : f.HasQos) (hht : f.Is80211 ∨ ¬ f.HasHt) :
    (f.mark more true).carriesEosp = true := by
  have hsame := sameButMore_markMoreData f more
  have hlt : txField f.mem f.hostTxreq0 21 1 < 2 := Nat.mod_lt _ (by decide)
  have hqos : txField f.mem f.hostTxreq0 20 1 = 1 := h
  have hptr : eospPtr f (markMoreData f more) = f.qosCtlAt := by
    rw [eospPtr, hsame.qos, if_pos hqos, hsame.f80211, PsFrame.qosCtlAt, if_pos h]
    by_cases hf : f.Is80211
    · have hf' : txField f.mem f.hostTxreq0 19 1 = 1 := hf
      rw [if_pos hf', if_pos hf]
      have hfc : getU16 (markMoreData f more) f.data = fcMoreData (getU16 f.mem f.data) more :=
        getU16_mark more false hf
      rw [getQosCtl, hfc, hasA4_fcMoreData, ← getQosCtl]
    · have hno : txField f.mem f.hostTxreq0 21 1 = 0 := by
        have hne : txField f.mem f.hostTxreq0 21 1 ≠ 1 := hht.resolve_left hf
        omega
      have hf' : ¬ txField f.mem f.hostTxreq0 19 1 = 1 := hf
      rw [if_neg hf', if_neg hf, hsame.pointers.2]
      simp only [getTxreq0QosPtr, txreqLen, f.cType, hno, hqos, if_true, ne_eq, not_true, if_false,
        Nat.one_ne_zero]
      split <;> rfl
  unfold PsFrame.carriesEosp
  rw [qosCtlAt_mark]
  cases hp : f.qosCtlAt with
  | none => rw [PsFrame.qosCtlAt, if_pos h] at hp; cases hp
  | some p =>
    have hbyte : (f.mark more true).mem p = f.mem p ||| 0x10 := by
      change markMem f more true p = _
      simp only [markMem, if_true, hptr, hp, Function.update_self]
      rw [markMoreData_qosCtl f more hp]
    have hbit : Nat.testBit 16 4 = true := by decide
    simp only [hbyte, UInt8.toNat_or, Nat.testBit_or]
    rw [show (0x10 : UInt8).toNat = 16 from rfl, hbit, Bool.or_true]

end Mark

end Fullmac.Desc
