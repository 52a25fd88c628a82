import Fullmac.Desc.TxReq

/-!
# The first word of the transmit descriptor, read back

Reference: `host/hal/SSV6006/ssv6006_pkt.c`, `SSV6006_HAL_CFG_HOST_TXREQ0` and
`ssv6006_hal_fill_txreq0`; `ssv6006_pktdef.h`, `struct cfg_host_txreq0`; `host/include/host_apis.h`,
`enum TX_DSCRP_CONF_TYPE`.

The fields up to `padding` do not overlap (`cfgHostTxreq0_mod`). The six bits above them are a
disjunction of what is shifted there, unmasked (`testBit_cfgHostTxreq0`): the two bits taken from
`tx_dscrp_flag` come shifted already and leave the word, and `security` and the upper half of the
frame's first byte are wider than their fields.
-/

namespace Fullmac.Desc

open Bytes

/-! ## The upper six bits -/

theorem testBit_shiftLeft_of_lt {v w s k : ℕ} (hv : v < 2 ^ w) (hk : s + w ≤ k) :
    (v <<< s).testBit k = false := by
  apply Nat.testBit_lt_two_pow
  calc v <<< s = v * 2 ^ s := Nat.shiftLeft_eq v s
    _ < 2 ^ w * 2 ^ s := Nat.mul_lt_mul_of_pos_right hv (Nat.two_pow_pos s)
    _ = 2 ^ (s + w) := by rw [Nat.pow_add, Nat.mul_comm]
    _ ≤ 2 ^ k := Nat.pow_le_pow_right (by decide) hk

/-- Above `padding`, each bit of the word is set by every field that reaches it. -/
theorem testBit_cfgHostTxreq0 {len cType f80211 qos ht use4addr rsvd0 padding : ℕ}
    (hlen : len < 2 ^ 16) (hc : cType < 2 ^ 3) (hf : f80211 < 2 ^ 1) (hqos : qos < 2 ^ 1)
    (hht : ht < 2 ^ 1) (huse : use4addr < 2 ^ 1) (hrsvd : rsvd0 < 2 ^ 1) (hpad : padding < 2 ^ 2)
    (bcQueue security moreData subType extraInfo : ℕ) {k : ℕ} (hk : 26 ≤ k) (hk' : k < 32) :
    (cfgHostTxreq0 len cType f80211 qos ht use4addr rsvd0 padding bcQueue security moreData subType
        extraInfo).testBit k
      = ((bcQueue <<< 26).testBit k || (security <<< 27).testBit k || (moreData <<< 28).testBit k ||
          (subType <<< 29).testBit k || (extraInfo <<< 31).testBit k) := by
  rw [cfgHostTxreq0, show (4294967296 : ℕ) = 2 ^ 32 by rfl, Nat.testBit_mod_two_pow]
  simp only [Nat.testBit_or, testBit_shiftLeft_of_lt hlen (by omega : 0 + 16 ≤ k),
    testBit_shiftLeft_of_lt hc (by omega : 16 + 3 ≤ k),
    testBit_shiftLeft_of_lt hf (by omega : 19 + 1 ≤ k),
    testBit_shiftLeft_of_lt hqos (by omega : 20 + 1 ≤ k),
    testBit_shiftLeft_of_lt hht (by omega : 21 + 1 ≤ k),
    testBit_shiftLeft_of_lt huse (by omega : 22 + 1 ≤ k),
    testBit_shiftLeft_of_lt hrsvd (by omega : 23 + 1 ≤ k),
    testBit_shiftLeft_of_lt hpad (by omega : 24 + 2 ≤ k), hk', decide_true, Bool.true_and,
    Bool.false_or]

/-! ## The word of a request -/

/-- `enum TX_DSCRP_CONF_TYPE`. -/
def txDscrpSetExtraInfo : ℕ := 1

/-- See `txDscrpSetExtraInfo`. -/
def txDscrpSetBcQue : ℕ := 2

/-- `IS_BIT_SET`, which takes the number of a bit. -/
def isBitSet (v : UInt8) (b : ℕ) : Bool := v.toNat.testBit b

/-- The flags are masks: the bits of `b` are set in `v`. -/
def isMaskSet (v : UInt8) (b : ℕ) : Bool := v.toNat &&& b ≠ 0

/-- `extra_len`. -/
def reqExtraLen (qos ht : Option ℕ) (addr4 : Option EtherAddr) (f80211 : Bool) : ℕ :=
  (if f80211 = false then
    (if qos.isSome then 2 else 0) + (if ht.isSome then 4 else 0) + (if addr4.isSome then 6 else 0)
    else 0) + txreq0Size

/-- `padding_len`, for a frame in front of which `extra_len` bytes are needed. -/
def reqPadding (f : HostFrame) (extraLen : ℕ) : ℕ :=
  if (f.push extraLen).data % 4 ≠ 0 then 4 - (f.push extraLen).data % 4 else 0

/-- The frame after both calls of `os_frame_push`. -/
def reqPushed (f : HostFrame) (extraLen : ℕ) : HostFrame :=
  if (f.push extraLen).data % 4 ≠ 0 then (f.push extraLen).push (reqPadding f extraLen)
  else f.push extraLen

/-- The byte behind the descriptor, where `sub_type` is taken from. -/
def reqSubByte (f : HostFrame) (extraLen : ℕ) : UInt8 :=
  f.mem ((reqPushed f extraLen).data + txreq0Size)

section Word

variable (f : HostFrame) (priority : ℕ) (qos ht : Option ℕ) (addr4 : Option EtherAddr)
  (f80211 : Bool) (security txDscrpFlag vifIdx : UInt8)

/-- What is written of an optional field. -/
def reqPresent (f80211 b : Bool) : ℕ := if f80211 = false then b.toNat else 0

/-- `sub_type`. -/
def reqSubType (extraLen : ℕ) : ℕ :=
  if f80211 = false then 0 else (reqSubByte f extraLen).toNat / 16

theorem reqPadding_lt (extraLen : ℕ) : reqPadding f extraLen < 4 := by
  rw [reqPadding]
  split <;> omega

theorem push_mem (n : ℕ) : (f.push n).mem = f.mem := by
  rw [HostFrame.push]
  split <;> rfl

theorem reqPushed_mem (extraLen : ℕ) : (reqPushed f extraLen).mem = f.mem := by
  rw [reqPushed]
  split
  · rw [push_mem, push_mem]
  · rw [push_mem]

/-- With room in front of a raw frame, the byte behind the descriptor is the first of the padding,
or of the frame if there is none. -/
theorem reqSubByte_raw (hroom : 15 ≤ f.room) :
    reqSubByte f (reqExtraLen qos ht addr4 true)
      = f.mem (f.data - reqPadding f (reqExtraLen qos ht addr4 true)) := by
  have hextra : reqExtraLen qos ht addr4 true = 12 := by simp [reqExtraLen, txreq0Size]
  have hle := f.room_le
  rw [hextra]
  obtain ⟨-, hdata, -, hleft⟩ := push_of_le (f := f) (n := 12) (by omega)
  rw [reqSubByte, reqPushed]
  split
  · have hpad := reqPadding_lt f 12
    obtain ⟨-, hdata', -, -⟩ := push_of_le (f := f.push 12) (n := reqPadding f 12) (by omega)
    rw [hdata', hdata, txreq0Size]
    congr 1
    omega
  · rename_i haligned
    rw [reqPadding, if_neg haligned, hdata, txreq0Size]
    congr 1
    omega

/-- The word written, whatever kind of frame it is. -/
theorem fillTxreq0_word :
    let f' := fillTxreq0 f priority qos ht addr4 f80211 security txDscrpFlag vifIdx
    let extraLen := reqExtraLen qos ht addr4 f80211
    f'.data = (reqPushed f extraLen).data ∧
      getU32 f'.mem f'.data = cfgHostTxreq0 f'.len 0 f80211.toNat (reqPresent f80211 qos.isSome)
        (reqPresent f80211 ht.isSome) (reqPresent f80211 addr4.isSome) 0 (reqPadding f extraLen)
        ((isBitSet txDscrpFlag txDscrpSetBcQue).toNat <<< 26) security.toNat 0
        (reqSubType f f80211 extraLen)
        ((isBitSet txDscrpFlag txDscrpSetExtraInfo).toNat <<< 31) := by
  intro f' extraLen
  have hsub : (copy (reqPushed f extraLen).mem (reqPushed f extraLen).data
      (List.replicate txreq0Size 0)) ((reqPushed f extraLen).data + txreq0Size)
        = reqSubByte f extraLen := by
    rw [copy_of_outside (.inr (by rw [List.length_replicate])), reqPushed_mem, reqSubByte]
  refine ⟨rfl, ?_⟩
  have hlast : ∀ {m : Mem} {p : ℕ} {b : UInt8}, getU32 (copy m (p + 11) [b]) p = getU32 m p :=
    fun {m p b} => getU32_congr fun i hi => copy_of_outside (by omega)
  rw [reqSubType, ← hsub]
  exact hlast.trans ((getU32_setU32 _ _ _).trans (Nat.mod_mod _ _))

/-! ## The fields -/

/-- The word read back gives what was passed: `isSet` is the way `tx_dscrp_flag` is read. -/
structure TxreqEncodes (isSet : UInt8 → ℕ → Bool) (f' : HostFrame) : Prop where
  len : txField f'.mem f'.data 0 16 = f'.len
  cType : txField f'.mem f'.data 16 3 = 0
  f80211Field : txField f'.mem f'.data 19 1 = f80211.toNat
  qosField : txField f'.mem f'.data 20 1 = reqPresent f80211 qos.isSome
  htField : txField f'.mem f'.data 21 1 = reqPresent f80211 ht.isSome
  use4addrField : txField f'.mem f'.data 22 1 = reqPresent f80211 addr4.isSome
  paddingField : txField f'.mem f'.data 24 2 = reqPadding f (reqExtraLen qos ht addr4 f80211)
  bcQue : txField f'.mem f'.data 26 1 = 1 ↔ isSet txDscrpFlag txDscrpSetBcQue
  extraInfo : txField f'.mem f'.data 31 1 = 1 ↔ isSet txDscrpFlag txDscrpSetExtraInfo
  stype : f80211 → txField f'.mem f'.data 29 2 = (f.mem f.data).toNat / 16 % 4

/-- No frame is meant for the broadcast queue; extra information is asked for exactly when bit 6 of
the byte behind the descriptor of a raw frame, or bit 4 of `security`, says so; and for a raw frame
bits 5 and 4 of that byte, with bits 3 and 2 of `security`, are those of the frame's first byte. -/
structure TxreqFits (isSet : UInt8 → ℕ → Bool) : Prop where
  noBcQue : isSet txDscrpFlag txDscrpSetBcQue = false
  extraInfo : isSet txDscrpFlag txDscrpSetExtraInfo =
    (f80211 && (reqSubByte f (reqExtraLen qos ht addr4 f80211)).toNat.testBit 6 ||
      security.toNat.testBit 4)
  stype : f80211 → ((reqSubByte f (reqExtraLen qos ht addr4 f80211)).toNat / 16 |||
    security.toNat / 4) % 4 = (f.mem f.data).toNat / 16 % 4

theorem reqPresent_lt (b : Bool) : reqPresent f80211 b < 2 ^ 1 := by
  rw [reqPresent]
  split
  · exact b.toNat_lt
  · decide

/-- The fields up to `padding` are read back as they were passed. -/
theorem fillTxreq0_lowFields :
    let f' := fillTxreq0 f priority qos ht addr4 f80211 security txDscrpFlag vifIdx
    txField f'.mem f'.data 0 16 = f'.len ∧ txField f'.mem f'.data 16 3 = 0 ∧
      txField f'.mem f'.data 19 1 = f80211.toNat ∧
      txField f'.mem f'.data 20 1 = reqPresent f80211 qos.isSome ∧
      txField f'.mem f'.data 21 1 = reqPresent f80211 ht.isSome ∧
      txField f'.mem f'.data 22 1 = reqPresent f80211 addr4.isSome ∧
      txField f'.mem f'.data 24 2 = reqPadding f (reqExtraLen qos ht addr4 f80211) := by
  intro f'
  obtain ⟨-, hword⟩ : f'.data = _ ∧ getU32 f'.mem f'.data = _ :=
    fillTxreq0_word f priority qos ht addr4 f80211 security txDscrpFlag vifIdx
  have hlen : f'.len < 2 ^ 16 := by
    have := f'.fits
    omega
  have hf := f80211.toNat_lt
  have hq := reqPresent_lt f80211 qos.isSome
  have hh := reqPresent_lt f80211 ht.isSome
  have ha := reqPresent_lt f80211 addr4.isSome
  have hpad := reqPadding_lt f (reqExtraLen qos ht addr4 f80211)
  have hmod := cfgHostTxreq0_mod hlen (by decide : 0 < 2 ^ 3) hf hq hh ha (by decide : 0 < 2) hpad
    ((isBitSet txDscrpFlag txDscrpSetBcQue).toNat <<< 26) security.toNat 0
    (reqSubType f f80211 (reqExtraLen qos ht addr4 f80211))
    ((isBitSet txDscrpFlag txDscrpSetExtraInfo).toNat <<< 31)
  rw [← hword] at hmod
  simp only [txField, Nat.pow_zero, Nat.div_one]
  refine ⟨?_, ?_, ?_, ?_, ?_, ?_, ?_⟩ <;> omega

/-- The bits above `padding`. -/
theorem fillTxreq0_testBit {k : ℕ} (hk : 26 ≤ k) (hk' : k < 32) :
    let f' := fillTxreq0 f priority qos ht addr4 f80211 security txDscrpFlag vifIdx
    (getU32 f'.mem f'.data).testBit k
      = (decide (27 ≤ k) && security.toNat.testBit (k - 27) || decide (29 ≤ k) &&
          (reqSubType f f80211 (reqExtraLen qos ht addr4 f80211)).testBit (k - 29)) := by
  intro f'
  obtain ⟨-, hword⟩ : f'.data = _ ∧ getU32 f'.mem f'.data = _ :=
    fillTxreq0_word f priority qos ht addr4 f80211 security txDscrpFlag vifIdx
  have hlen : f'.len < 2 ^ 16 := by
    have := f'.fits
    omega
  rw [hword, testBit_cfgHostTxreq0 hlen (by decide) f80211.toNat_lt (reqPresent_lt _ _)
    (reqPresent_lt _ _) (reqPresent_lt _ _) (by decide) (reqPadding_lt _ _) _ _ _ _ _ hk hk']
  -- what is shifted twice lies above the word
  have hbc : ¬ 26 ≤ k - 26 := by omega
  have hextra : ¬ 31 ≤ k - 31 := by omega
  simp only [Nat.testBit_shiftLeft, Nat.zero_testBit, hbc, hextra, decide_false, Bool.false_and,
    Bool.and_false, Bool.false_or, Bool.or_false, ge_iff_le]

theorem txField_one (m : Mem) (req0 shift : ℕ) :
    txField m req0 shift 1 = ((getU32 m req0).testBit shift).toNat :=
  (Nat.toNat_testBit _ _).symm

/-- Bit 6 of the byte behind the descriptor is the third bit of `sub_type`. -/
theorem testBit_reqSubType (extraLen : ℕ) :
    (reqSubType f f80211 extraLen).testBit 2
      = (f80211 && (reqSubByte f extraLen).toNat.testBit 6) := by
  cases f80211 with
  | false => simp [reqSubType]
  | true =>
    have hdiv : ((reqSubByte f extraLen).toNat / 2 ^ 4).testBit 2
        = (reqSubByte f extraLen).toNat.testBit (2 + 4) := Nat.testBit_div_two_pow _ 2
    exact hdiv

/-- `stype_b5b4`, `bc_que` and `extra_info` as they are read back. -/
theorem fillTxreq0_highFields :
    let f' := fillTxreq0 f priority qos ht addr4 f80211 security txDscrpFlag vifIdx
    let extraLen := reqExtraLen qos ht addr4 f80211
    txField f'.mem f'.data 26 1 = 0 ∧
      txField f'.mem f'.data 29 2 = (reqSubType f f80211 extraLen ||| security.toNat / 4) % 4 ∧
      txField f'.mem f'.data 31 1 = (f80211 && (reqSubByte f extraLen).toNat.testBit 6 ||
        security.toNat.testBit 4).toNat := by
  intro f' extraLen
  have hbit : ∀ {k : ℕ}, 26 ≤ k → k < 32 → (getU32 f'.mem f'.data).testBit k
      = (decide (27 ≤ k) && security.toNat.testBit (k - 27) || decide (29 ≤ k) &&
          (reqSubType f f80211 extraLen).testBit (k - 29)) := fun hk hk' =>
    fillTxreq0_testBit f priority qos ht addr4 f80211 security txDscrpFlag vifIdx hk hk'
  refine ⟨?_, ?_, ?_⟩
  · rw [txField_one, hbit (by decide) (by decide)]
    rfl
  · rw [txField]
    apply Nat.eq_of_testBit_eq
    intro i
    rw [Nat.testBit_mod_two_pow, Nat.testBit_div_two_pow, show (4 : ℕ) = 2 ^ 2 by rfl,
      Nat.testBit_mod_two_pow, Nat.testBit_or, Nat.testBit_div_two_pow]
    by_cases hi : i < 2
    · rw [hbit (by omega) (by omega), Bool.or_comm]
      simp only [show 27 ≤ i + 29 by omega, show 29 ≤ i + 29 by omega, decide_true, Bool.true_and,
        show i + 29 - 29 = i by omega, show i + 29 - 27 = i + 2 by omega, hi]
    · simp [hi]
  · rw [txField_one, hbit (by decide) (by decide), ← testBit_reqSubType, Bool.or_comm]
    rfl

/-- For every frame, the first word of the descriptor reads back what was passed exactly when the
frame and the arguments fit. -/
theorem fillTxreq0_encodes_iff (isSet : UInt8 → ℕ → Bool) :
    TxreqEncodes f qos ht addr4 f80211 txDscrpFlag isSet
        (fillTxreq0 f priority qos ht addr4 f80211 security txDscrpFlag vifIdx) ↔
      TxreqFits f qos ht addr4 f80211 security txDscrpFlag isSet := by
  obtain ⟨hlen, hctype, hf, hqos, hht, haddr4, hpad⟩ :=
    fillTxreq0_lowFields f priority qos ht addr4 f80211 security txDscrpFlag vifIdx
  obtain ⟨hbc, hstype, hextra⟩ :=
    fillTxreq0_highFields f priority qos ht addr4 f80211 security txDscrpFlag vifIdx
  have hone : ∀ b : Bool, b.toNat = 1 ↔ b = true := fun b => by cases b <;> decide
  have hraw : f80211 = true → reqSubType f f80211 (reqExtraLen qos ht addr4 f80211)
      = (reqSubByte f (reqExtraLen qos ht addr4 f80211)).toNat / 16 := fun h => by
    rw [reqSubType, h, if_neg (by decide)]
  constructor
  · intro h
    refine ⟨?_, ?_, fun hr => ?_⟩
    · have hset := h.bcQue
      rw [hbc] at hset
      exact Bool.eq_false_iff.mpr fun hb => absurd (hset.mpr hb) (by decide)
    · have hset := h.extraInfo
      rw [hextra, hone] at hset
      exact (Bool.eq_iff_iff.mpr hset).symm
    · rw [← hraw hr, ← hstype]
      exact h.stype hr
  · intro h
    refine ⟨hlen, hctype, hf, hqos, hht, haddr4, hpad, ?_, ?_, fun hr => ?_⟩
    · rw [hbc, h.noBcQue]
      decide
    · rw [hextra, hone, h.extraInfo]
    · rw [hstype, hraw hr]
      exact h.stype hr

/-- A data frame for the broadcast queue: the descriptor does not say so, whichever way the flag is
read. -/
theorem not_encodes_bcQue :
    ¬ (∀ (f : HostFrame) (f80211 : Bool) (security txDscrpFlag : UInt8),
        TxreqEncodes f none none none f80211 txDscrpFlag isMaskSet
          (fillTxreq0 f 0 none none none f80211 security txDscrpFlag 0)) ∧
      ¬ (∀ (f : HostFrame) (f80211 : Bool) (security txDscrpFlag : UInt8),
        TxreqEncodes f none none none f80211 txDscrpFlag isBitSet
          (fillTxreq0 f 0 none none none f80211 security txDscrpFlag 0)) := by
  have hbc := (fillTxreq0_highFields someFrame 0 none none none false 0 0xff 0).1
  constructor
  · intro hall
    have hset := (hall someFrame false 0 0xff).bcQue.mpr (by decide)
    exact absurd (hbc.symm.trans hset) (by decide)
  · intro hall
    have hset := (hall someFrame false 0 0xff).bcQue.mpr (by decide)
    exact absurd (hbc.symm.trans hset) (by decide)

end Word

end Fullmac.Desc
