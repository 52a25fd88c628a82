import Fullmac.Lib.Bytes
import Mathlib.Algebra.GroupWithZero.Nat

/-!
# The transmit descriptor

Reference: `host/hal/SSV6006/ssv6006_pkt.c`, `SSV6006_HAL_CFG_HOST_TXREQ0`,
`ssv6006_hal_fill_txreq0` (with `SW_8023TO80211` 0), `ssv6006_hal_get_txreq0_qos_ptr` and
`ssv6006_hal_get_txreq0_data_ptr`; `ssv6006_pktdef.h`, `struct cfg_host_txreq0`;
`host/init/ssv_frame.c`, `os_frame_push`.

In front of a frame stand the descriptor, up to three optional fields and some padding (meant to
align the descriptor, which it does for even addresses only: `os_frame_push` goes down). The writer
puts the fields in the order address 4, QoS control, HT control; each
reader adds up the lengths of the fields it takes to stand before what it looks for. The data
pointer skips all of them, so their order does not matter (`fillTxreq0_data`). The QoS pointer skips
the HT control field, which stands behind the QoS control field (`fillTxreq0_qosPtr`).
-/

namespace Fullmac.Desc

open Bytes

/-! ## Frames -/

/-- A frame in the memory of the host: where its data start, how many there are, and how much room
there is before them in the buffer. Lengths are 16-bit fields of the buffer. -/
structure HostFrame where
  mem : Mem
  data : ℕ
  len : ℕ
  room : ℕ
  room_le : room ≤ data
  fits : room + len < 65536

/-- `os_frame_push`: nothing happens when there is not enough room. -/
def HostFrame.push (f : HostFrame) (n : ℕ) : HostFrame :=
  if h : n ≤ f.room then
    { f with
      data := f.data - n
      len := f.len + n
      room := f.room - n
      room_le := Nat.sub_le_sub_right f.room_le n
      fits := by have := f.fits; omega }
  else f

/-- An Ethernet address. -/
def EtherAddr : Type := { l : List UInt8 // l.length = 6 }

/-! ## Writing the descriptor -/

/-- `sizeof(struct cfg_host_txreq0)`. -/
def txreq0Size : ℕ := 12

/-- `SSV6006_HAL_CFG_HOST_TXREQ0`, the first word of the descriptor. -/
def cfgHostTxreq0 (len cType f80211 qos ht use4addr rsvd0 padding bcQueue security moreData subType
    extraInfo : ℕ) : ℕ :=
  (len <<< 0 ||| cType <<< 16 ||| f80211 <<< 19 ||| qos <<< 20 ||| ht <<< 21 ||| use4addr <<< 22 |||
    rsvd0 <<< 23 ||| padding <<< 24 ||| bcQueue <<< 26 ||| security <<< 27 ||| moreData <<< 28 |||
    subType <<< 29 ||| extraInfo <<< 31) % 4294967296

/-- What is written of QoS control: `((*qos) & 0xFFF8) | priority`. -/
def qosCtrl (qos priority : ℕ) : ℕ := qos &&& 0xFFF8 ||| priority

/-- Write a field that is there at `pos`, and move on. -/
def putField (mp : Mem × ℕ) : Option (List UInt8) → Mem × ℕ
  | some bs => (copy mp.1 mp.2 bs, mp.2 + bs.length)
  | none => mp

/-- The bytes of the optional fields: address 4, QoS control and HT control. -/
def addr4Bytes (addr4 : Option EtherAddr) : Option (List UInt8) := addr4.map Subtype.val

/-- See `addr4Bytes`. -/
def qosBytes (qos : Option ℕ) (priority : ℕ) : Option (List UInt8) :=
  qos.map fun q => [UInt8.ofNat (qosCtrl q priority), UInt8.ofNat (qosCtrl q priority / 256)]

/-- See `addr4Bytes`. -/
def htBytes (ht : Option ℕ) : Option (List UInt8) := ht.map le32

/-- `ssv6006_hal_fill_txreq0`. The argument `len` of the source is not used. -/
def fillTxreq0 (frame : HostFrame) (priority : ℕ) (qos ht : Option ℕ) (addr4 : Option EtherAddr)
    (f80211 : Bool) (security txDscrpFlag vifIdx : UInt8) : HostFrame :=
  let extraLen := (if f80211 = false then
    (if qos.isSome then 2 else 0) + (if ht.isSome then 4 else 0) + (if addr4.isSome then 6 else 0)
    else 0) + txreq0Size
  let frame := frame.push extraLen
  let paddingLen := if frame.data % 4 ≠ 0 then 4 - frame.data % 4 else 0
  let frame := if frame.data % 4 ≠ 0 then frame.push paddingLen else frame
  let m := copy frame.mem frame.data (List.replicate txreq0Size 0)
  let pos := frame.data + txreq0Size
  let subType := if f80211 = false then 0 else (m pos).toNat / 16
  let m := if f80211 = false then
      (putField (putField (putField (m, pos) (addr4Bytes addr4)) (qosBytes qos priority))
        (htBytes ht)).1
    else m
  let present := fun b : Bool => if f80211 = false then b.toNat else 0
  let word := cfgHostTxreq0 frame.len 0 f80211.toNat (present qos.isSome) (present ht.isSome)
    (present addr4.isSome) 0 paddingLen ((txDscrpFlag.toNat.testBit 2).toNat <<< 26)
    security.toNat 0 subType ((txDscrpFlag.toNat.testBit 1).toNat <<< 31)
  let m := setU32 m frame.data word
  -- `bssidx` is in the two low bits of byte 11; `rsvdtx_1` is zero already
  let m := copy m (frame.data + 11) [m (frame.data + 11) / 4 * 4 + vifIdx % 4]
  { frame with mem := m }

/-! ## Reading it -/

/-- A field of `width` bits at bit `shift` of the first word. -/
def txField (m : Mem) (req0 shift width : ℕ) : ℕ := getU32 m req0 / 2 ^ shift % 2 ^ width

/-- The length of the descriptor, by its `c_type`: `SSV6XXX_TX_REQ0` is 0, any other one runs into
`ASSERT(FALSE)`. -/
def txreqLen (m : Mem) (req0 : ℕ) : ℕ := if txField m req0 16 3 = 0 then txreq0Size else 0

/-- `ssv6006_hal_get_txreq0_qos_ptr`. -/
def getTxreq0QosPtr (m : Mem) (req0 : ℕ) : Option ℕ :=
  let nOffset := txreqLen m req0
  let nOffset := if txField m req0 22 1 ≠ 0 then nOffset + 6 else nOffset
  if txField m req0 20 1 = 0 then none
  else
    let nOffset := if txField m req0 21 1 ≠ 0 then nOffset + 4 else nOffset
    some (req0 + nOffset)

/-- `ssv6006_hal_get_txreq0_data_ptr`. -/
def getTxreq0DataPtr (m : Mem) (req0 : ℕ) : ℕ :=
  let nOffset := txreqLen m req0
  let nOffset := if txField m req0 22 1 ≠ 0 then nOffset + 6 else nOffset
  let nOffset := if txField m req0 20 1 ≠ 0 then nOffset + 2 else nOffset
  let nOffset := if txField m req0 21 1 ≠ 0 then nOffset + 4 else nOffset
  req0 + (nOffset + txField m req0 24 2)

/-! ## The first word -/

theorem or_shiftLeft {x i : ℕ} (a : ℕ) (h : x < 2 ^ i) : x ||| a <<< i = x + a * 2 ^ i := by
  rw [Nat.or_comm, ← Nat.shiftLeft_add_eq_or_of_lt h, Nat.shiftLeft_eq, Nat.add_comm]

theorem shiftLeft_mod (a : ℕ) {i : ℕ} (h : 26 ≤ i) : a <<< i % 2 ^ 26 = 0 := by
  obtain ⟨k, rfl⟩ := Nat.exists_eq_add_of_le h
  rw [Nat.shiftLeft_eq, Nat.pow_add, Nat.mul_left_comm, Nat.mul_mod_right]

/-- The fields up to `padding` do not overlap, and the others lie above them. -/
theorem cfgHostTxreq0_mod {len cType f80211 qos ht use4addr rsvd0 padding : ℕ} (hlen : len < 2 ^ 16)
    (hc : cType < 2 ^ 3) (hf : f80211 < 2) (hqos : qos < 2) (hht : ht < 2) (huse : use4addr < 2)
    (hrsvd : rsvd0 < 2) (hpad : padding < 4) (bcQueue security moreData subType extraInfo : ℕ) :
    cfgHostTxreq0 len cType f80211 qos ht use4addr rsvd0 padding bcQueue security moreData subType
        extraInfo % 2 ^ 26
      = len + cType * 2 ^ 16 + f80211 * 2 ^ 19 + qos * 2 ^ 20 + ht * 2 ^ 21 + use4addr * 2 ^ 22
        + rsvd0 * 2 ^ 23 + padding * 2 ^ 24 := by
  rw [cfgHostTxreq0, show (4294967296 : ℕ) = 2 ^ 32 by rfl,
    Nat.mod_mod_of_dvd _ (Nat.pow_dvd_pow 2 (by decide : 26 ≤ 32))]
  iterate 5 rw [Nat.or_mod_two_pow, shiftLeft_mod _ (by decide), Nat.or_zero]
  -- the remaining fields, from the lowest to the highest
  rw [Nat.shiftLeft_zero, or_shiftLeft cType hlen, or_shiftLeft f80211 (by omega),
    or_shiftLeft qos (by omega), or_shiftLeft ht (by omega), or_shiftLeft use4addr (by omega),
    or_shiftLeft rsvd0 (by omega), or_shiftLeft padding (by omega)]
  omega

/-! ## What stands where -/

/-- The optional fields, one behind the other. -/
def optFields (priority : ℕ) (qos ht : Option ℕ) (addr4 : Option EtherAddr) : List UInt8 :=
  (addr4Bytes addr4).getD [] ++ (qosBytes qos priority).getD [] ++ (htBytes ht).getD []

theorem putField_eq (mp : Mem × ℕ) (o : Option (List UInt8)) :
    putField mp o = (copy mp.1 mp.2 (o.getD []), mp.2 + (o.getD []).length) := by
  cases o with
  | some bs => rfl
  | none =>
    have hsame : copy mp.1 mp.2 [] = mp.1 := by
      funext i
      exact copy_of_outside (by rw [List.length_nil]; omega)
    rw [putField, Option.getD_none, hsame]
    rfl

/-- The fields are written one behind the other. -/
theorem putFields_eq (m : Mem) (pos priority : ℕ) (qos ht : Option ℕ) (addr4 : Option EtherAddr) :
    (putField (putField (putField (m, pos) (addr4Bytes addr4)) (qosBytes qos priority))
        (htBytes ht)).1
      = copy m pos (optFields priority qos ht addr4) := by
  rw [putField_eq, putField_eq, putField_eq]
  simp only [copy_append, Nat.add_assoc, ← List.length_append]
  rfl

theorem length_addr4Bytes (addr4 : Option EtherAddr) :
    ((addr4Bytes addr4).getD []).length = if addr4.isSome then 6 else 0 := by
  cases addr4 with
  | none => rfl
  | some a => exact a.2

theorem length_qosBytes (qos : Option ℕ) (priority : ℕ) :
    ((qosBytes qos priority).getD []).length = if qos.isSome then 2 else 0 := by
  cases qos <;> rfl

theorem length_htBytes (ht : Option ℕ) :
    ((htBytes ht).getD []).length = if ht.isSome then 4 else 0 := by
  cases ht <;> rfl

theorem length_optFields (priority : ℕ) (qos ht : Option ℕ) (addr4 : Option EtherAddr) :
    (optFields priority qos ht addr4).length
      = (if qos.isSome then 2 else 0) + (if ht.isSome then 4 else 0)
        + (if addr4.isSome then 6 else 0) := by
  rw [optFields, List.length_append, List.length_append, length_addr4Bytes, length_qosBytes,
    length_htBytes]
  omega

theorem push_of_le {f : HostFrame} {n : ℕ} (h : n ≤ f.room) :
    (f.push n).mem = f.mem ∧ (f.push n).data = f.data - n ∧ (f.push n).len = f.len + n ∧
      (f.push n).room = f.room - n := by
  rw [HostFrame.push, dif_pos h]
  exact ⟨rfl, rfl, rfl, rfl⟩

section fillTxreq0

variable (f : HostFrame) (priority : ℕ) (qos ht : Option ℕ) (addr4 : Option EtherAddr)
  (security txDscrpFlag vifIdx : UInt8)

/-- The frame after the first call of `os_frame_push`. -/
def firstPush : HostFrame := f.push ((optFields priority qos ht addr4).length + txreq0Size)

/-- `padding_len`. -/
def paddingLen : ℕ :=
  if (firstPush f priority qos ht addr4).data % 4 ≠ 0 then
    4 - (firstPush f priority qos ht addr4).data % 4
  else 0

/-- The frame after the second call. -/
def pushed : HostFrame :=
  if (firstPush f priority qos ht addr4).data % 4 ≠ 0 then
    (firstPush f priority qos ht addr4).push (paddingLen f priority qos ht addr4)
  else firstPush f priority qos ht addr4

theorem length_optFields_le : (optFields priority qos ht addr4).length ≤ 12 := by
  rw [length_optFields]
  split <;> split <;> split <;> omega

theorem paddingLen_lt : paddingLen f priority qos ht addr4 < 4 := by
  rw [paddingLen]
  split <;> omega

/-- 27 bytes of room are enough for all of it. -/
theorem prefix_le_room (hroom : 27 ≤ f.room) :
    txreq0Size + (optFields priority qos ht addr4).length + paddingLen f priority qos ht addr4
      ≤ f.room := by
  have hopt := length_optFields_le priority qos ht addr4
  have hpad := paddingLen_lt f priority qos ht addr4
  have hsize : txreq0Size = 12 := rfl
  omega

/-- Descriptor, optional fields and padding end where the data of the frame start. -/
theorem pushed_spec (hroom : txreq0Size + (optFields priority qos ht addr4).length
    + paddingLen f priority qos ht addr4 ≤ f.room) :
    let f' := pushed f priority qos ht addr4
    f'.mem = f.mem ∧
      f'.data + txreq0Size + (optFields priority qos ht addr4).length
        + paddingLen f priority qos ht addr4 = f.data ∧
      f'.len = f.len + (txreq0Size + (optFields priority qos ht addr4).length
        + paddingLen f priority qos ht addr4) := by
  have hle := f.room_le
  obtain ⟨hmem, hdata, hlen, hleft⟩ :=
    push_of_le (f := f) (n := (optFields priority qos ht addr4).length + txreq0Size) (by omega)
  rw [← firstPush] at hmem hdata hlen hleft
  rw [pushed]
  split
  · obtain ⟨hmem', hdata', hlen', -⟩ := push_of_le (f := firstPush f priority qos ht addr4)
      (n := paddingLen f priority qos ht addr4) (by omega)
    simp only [hmem', hdata', hlen', hmem, hdata, hlen, true_and]
    constructor <;> omega
  · rename_i haligned
    have hzero : paddingLen f priority qos ht addr4 = 0 := if_neg haligned
    simp only [hmem, hdata, hlen, hzero, true_and]
    constructor <;> omega

/-- The first word of the descriptor. -/
def txreq0Word (padding : ℕ) (len : ℕ) : ℕ :=
  cfgHostTxreq0 len 0 0 qos.isSome.toNat ht.isSome.toNat addr4.isSome.toNat 0 padding
    ((txDscrpFlag.toNat.testBit 2).toNat <<< 26) security.toNat 0 0
    ((txDscrpFlag.toNat.testBit 1).toNat <<< 31)

/-- The writes into the pushed frame, for an 802.3 frame. -/
theorem fillTxreq0_eq :
    let frame := pushed f priority qos ht addr4
    let m := copy frame.mem frame.data (List.replicate txreq0Size 0)
    let m := copy m (frame.data + txreq0Size) (optFields priority qos ht addr4)
    let m := setU32 m frame.data
      (txreq0Word qos ht addr4 security txDscrpFlag (paddingLen f priority qos ht addr4) frame.len)
    fillTxreq0 f priority qos ht addr4 false security txDscrpFlag vifIdx
      = { frame with
          mem := copy m (frame.data + 11) [m (frame.data + 11) / 4 * 4 + vifIdx % 4] } := by
  simp only [fillTxreq0, if_true, putFields_eq, ← length_optFields priority qos ht addr4]
  rfl

/-- The three parts of the descriptor area after the call: the first word, the optional fields, and
what lay behind them before. -/
theorem fillTxreq0_mem :
    let f' := fillTxreq0 f priority qos ht addr4 false security txDscrpFlag vifIdx
    let opt := optFields priority qos ht addr4
    getU32 f'.mem f'.data
        = txreq0Word qos ht addr4 security txDscrpFlag (paddingLen f priority qos ht addr4) f'.len ∧
      (∀ i < opt.length, f'.mem (f'.data + txreq0Size + i)
        = copy f.mem (f'.data + txreq0Size) opt (f'.data + txreq0Size + i)) ∧
      ∀ i, f'.data + txreq0Size + opt.length ≤ i →
        f'.mem i = (pushed f priority qos ht addr4).mem i := by
  intro f' opt
  have heq : f' = _ := fillTxreq0_eq f priority qos ht addr4 security txDscrpFlag vifIdx
  have hsize : txreq0Size = 12 := rfl
  have hopt : opt.length = (optFields priority qos ht addr4).length := rfl
  rw [heq]
  dsimp only
  refine ⟨?_, ?_, ?_⟩
  · have hsame : ∀ {m : Mem} {p : ℕ} {b : UInt8},
        getU32 (copy m (p + 11) [b]) p = getU32 m p := fun {m p b} =>
      getU32_congr fun i hi => copy_of_outside (by omega)
    rw [hsame, getU32_setU32, txreq0Word, cfgHostTxreq0, Nat.mod_mod]
  · intro i hi
    rw [copy_of_outside (by rw [hsize, List.length_singleton]; omega), setU32,
      copy_of_outside (by rw [hsize]; simp [le32]; omega), copy_getElem hi, copy_getElem hi]
  · intro i hi
    rw [copy_of_outside (by rw [List.length_singleton]; omega), setU32,
      copy_of_outside (by simp [le32]; omega), copy_of_outside (by omega),
      copy_of_outside (by rw [List.length_replicate]; omega)]

/-- The flags, the padding and the length, as the readers find them. -/
theorem fillTxreq0_fields :
    let f' := fillTxreq0 f priority qos ht addr4 false security txDscrpFlag vifIdx
    txField f'.mem f'.data 0 16 = f'.len ∧ txField f'.mem f'.data 16 3 = 0 ∧
      txField f'.mem f'.data 20 1 = qos.isSome.toNat ∧
      txField f'.mem f'.data 21 1 = ht.isSome.toNat ∧
      txField f'.mem f'.data 22 1 = addr4.isSome.toNat ∧
      txField f'.mem f'.data 24 2 = paddingLen f priority qos ht addr4 := by
  intro f'
  have hword : getU32 f'.mem f'.data = _ :=
    (fillTxreq0_mem f priority qos ht addr4 security txDscrpFlag vifIdx).1
  have hlen : f'.len < 2 ^ 16 := by
    have := f'.fits
    omega
  have hpad := paddingLen_lt f priority qos ht addr4
  have hq := qos.isSome.toNat_lt
  have hh := ht.isSome.toNat_lt
  have ha := addr4.isSome.toNat_lt
  have hmod := cfgHostTxreq0_mod hlen (by decide : 0 < 2 ^ 3) (by decide : 0 < 2) hq hh ha
    (by decide : 0 < 2) hpad ((txDscrpFlag.toNat.testBit 2).toNat <<< 26) security.toNat 0 0
    ((txDscrpFlag.toNat.testBit 1).toNat <<< 31)
  rw [← txreq0Word, ← hword] at hmod
  simp only [txField, Nat.pow_zero, Nat.div_one]
  refine ⟨?_, ?_, ?_, ?_, ?_, ?_⟩ <;> omega

/-- The data pointer skips every field, in whatever order they stand. -/
theorem fillTxreq0_data (hroom : 27 ≤ f.room) :
    let f' := fillTxreq0 f priority qos ht addr4 false security txDscrpFlag vifIdx
    getTxreq0DataPtr f'.mem f'.data = f.data := by
  intro f'
  obtain ⟨-, hctype, hqos, hht, haddr4, hpad⟩ :=
    fillTxreq0_fields f priority qos ht addr4 security txDscrpFlag vifIdx
  obtain ⟨-, hdata, -⟩ := pushed_spec f priority qos ht addr4
    (prefix_le_room f priority qos ht addr4 hroom)
  rw [length_optFields] at hdata
  simp only [getTxreq0DataPtr, txreqLen, f', hctype, hqos, hht, haddr4, hpad, if_true]
  rw [← hdata, fillTxreq0_eq]
  cases qos <;> cases ht <;> cases addr4 <;> simp <;> omega

/-- The QoS pointer skips address 4 and HT control. -/
theorem fillTxreq0_qosPtr :
    let f' := fillTxreq0 f priority qos ht addr4 false security txDscrpFlag vifIdx
    getTxreq0QosPtr f'.mem f'.data
      = if qos.isSome then
          some (f'.data + txreq0Size + (if addr4.isSome then 6 else 0)
            + (if ht.isSome then 4 else 0))
        else none := by
  intro f'
  obtain ⟨-, hctype, hqos, hht, haddr4, -⟩ :=
    fillTxreq0_fields f priority qos ht addr4 security txDscrpFlag vifIdx
  simp only [getTxreq0QosPtr, txreqLen, f', hctype, hqos, hht, haddr4, if_true]
  cases qos <;> cases ht <;> cases addr4 <;> simp [Nat.add_assoc]

/-- Where QoS control is written. -/
def qosPos (f' : HostFrame) (addr4 : Option EtherAddr) : ℕ :=
  f'.data + txreq0Size + (if addr4.isSome then 6 else 0)

/-- QoS control is found where it is written. -/
theorem fillTxreq0_qosCtrl (q : ℕ) :
    let f' := fillTxreq0 f priority (some q) ht addr4 false security txDscrpFlag vifIdx
    getU16 f'.mem (qosPos f' addr4) = qosCtrl q priority % 65536 := by
  intro f'
  obtain ⟨-, hopt, -⟩ :=
    fillTxreq0_mem f priority (some q) ht addr4 security txDscrpFlag vifIdx
  have hlen := length_optFields priority (some q) ht addr4
  rw [if_pos (by rfl)] at hlen
  have haddr4 := length_addr4Bytes addr4
  -- the fields once more as three writes
  have hsplit : copy f.mem (f'.data + txreq0Size) (optFields priority (some q) ht addr4)
      = copy (setU16 (copy f.mem (f'.data + txreq0Size) ((addr4Bytes addr4).getD []))
          (qosPos f' addr4) (qosCtrl q priority)) (qosPos f' addr4 + 2) ((htBytes ht).getD []) := by
    rw [optFields, ← copy_append, ← copy_append, List.length_append, haddr4]
    rfl
  rw [← getU16_setU16 (copy f.mem (f'.data + txreq0Size) ((addr4Bytes addr4).getD []))
    (qosPos f' addr4)]
  have hbyte : ∀ k < 2, f'.mem (qosPos f' addr4 + k)
      = setU16 (copy f.mem (f'.data + txreq0Size) ((addr4Bytes addr4).getD []))
          (qosPos f' addr4) (qosCtrl q priority) (qosPos f' addr4 + k) := by
    intro k hk
    have hpos : qosPos f' addr4 + k
        = f'.data + txreq0Size + ((if addr4.isSome then 6 else 0) + k) := by
      rw [qosPos, Nat.add_assoc]
    rw [hpos, hopt _ (by omega), hsplit, ← hpos, copy_of_outside (.inl (by omega))]
  exact getU16_congr (hbyte 0 (by omega)) (hbyte 1 (by omega))

end fillTxreq0

/-! ## Writer and readers -/

/-- The readers find in `f'` what the writer has put in front of the frame `f`. -/
structure LayoutAgrees (f f' : HostFrame) (priority : ℕ) (qos ht : Option ℕ)
    (addr4 : Option EtherAddr) : Prop where
  dataPtr : getTxreq0DataPtr f'.mem f'.data = f.data
  frame : ∀ i < f.len, f'.mem (f.data + i) = f.mem (f.data + i)
  noQos : getTxreq0QosPtr f'.mem f'.data = none ↔ qos = none
  qosPtr : ∀ q, qos = some q → getTxreq0QosPtr f'.mem f'.data = some (qosPos f' addr4) ∧
    getU16 f'.mem (qosPos f' addr4) = qosCtrl q priority % 65536
  use4addrField : txField f'.mem f'.data 22 1 = addr4.isSome.toNat
  qosField : txField f'.mem f'.data 20 1 = qos.isSome.toNat
  htField : txField f'.mem f'.data 21 1 = ht.isSome.toNat
  paddingField : f'.data + txreq0Size + (optFields priority qos ht addr4).length
    + txField f'.mem f'.data 24 2 = f.data
  lenField : txField f'.mem f'.data 0 16 = f.len + (f.data - f'.data)

/-- For every 802.3 frame, every combination of optional fields and every alignment, the readers
agree with the writer exactly when not both QoS control and HT control are given. The hypothesis is
about the room in front of the frame, of which `os_frame_alloc` leaves 40 bytes. -/
theorem fillTxreq0_layoutAgrees_iff (f : HostFrame) (priority : ℕ) (qos ht : Option ℕ)
    (addr4 : Option EtherAddr) (security txDscrpFlag vifIdx : UInt8) (hroom : 27 ≤ f.room) :
    LayoutAgrees f (fillTxreq0 f priority qos ht addr4 false security txDscrpFlag vifIdx) priority
      qos ht addr4 ↔ ¬ (qos.isSome ∧ ht.isSome) := by
  have hptr := fillTxreq0_qosPtr f priority qos ht addr4 security txDscrpFlag vifIdx
  constructor
  · rintro h ⟨hq, hh⟩
    obtain ⟨q, rfl⟩ := Option.isSome_iff_exists.mp hq
    have hwant := (h.qosPtr q rfl).1
    rw [hptr, if_pos hq, if_pos hh, qosPos, Option.some_inj] at hwant
    omega
  · intro hnot
    obtain ⟨hmem, hdata, hlen⟩ := pushed_spec f priority qos ht addr4
      (prefix_le_room f priority qos ht addr4 hroom)
    obtain ⟨-, -, hbehind⟩ := fillTxreq0_mem f priority qos ht addr4 security txDscrpFlag vifIdx
    obtain ⟨hflen, -, hfqos, hfht, hfaddr4, hfpad⟩ :=
      fillTxreq0_fields f priority qos ht addr4 security txDscrpFlag vifIdx
    have heq := fillTxreq0_eq f priority qos ht addr4 security txDscrpFlag vifIdx
    have hdata' : (fillTxreq0 f priority qos ht addr4 false security txDscrpFlag vifIdx).data
        = (pushed f priority qos ht addr4).data := by rw [heq]
    have hlen' : (fillTxreq0 f priority qos ht addr4 false security txDscrpFlag vifIdx).len
        = (pushed f priority qos ht addr4).len := by rw [heq]
    refine ⟨fillTxreq0_data f priority qos ht addr4 security txDscrpFlag vifIdx hroom, ?_, ?_, ?_,
      hfaddr4, hfqos, hfht, ?_, ?_⟩
    · intro i hi
      rw [hbehind _ (by omega), hmem]
    · rw [hptr]
      cases qos <;> simp
    · rintro q rfl
      have hht : ht = none := by
        cases ht with
        | none => rfl
        | some v => exact absurd ⟨rfl, rfl⟩ hnot
      subst hht
      refine ⟨?_, fillTxreq0_qosCtrl f priority none addr4 security txDscrpFlag vifIdx q⟩
      rw [hptr, if_pos (by rfl)]
      rfl
    · rw [hfpad, hdata', hdata]
    · rw [hflen, hlen', hdata', hlen]
      omega

/-- A frame of 60 bytes with 40 bytes of room. -/
def someFrame : HostFrame := ⟨fun _ => 0, 1002, 60, 40, by decide, by decide⟩

theorem layoutAgrees_qos_addr4 :
    LayoutAgrees someFrame (fillTxreq0 someFrame 5 (some 0x20) none (some ⟨[1, 2, 3, 4, 5, 6], rfl⟩)
      false 1 0 0) 5 (some 0x20) none (some ⟨[1, 2, 3, 4, 5, 6], rfl⟩) :=
  (fillTxreq0_layoutAgrees_iff someFrame 5 (some 0x20) none _ 1 0 0 (by decide)).mpr (by decide)

/-- With both fields the QoS pointer addresses the second half of HT control. -/
theorem not_layoutAgrees_qos_ht :
    getTxreq0QosPtr (fillTxreq0 someFrame 5 (some 0x20) (some 0) none false 1 0 0).mem
        (fillTxreq0 someFrame 5 (some 0x20) (some 0) none false 1 0 0).data
      = some (qosPos (fillTxreq0 someFrame 5 (some 0x20) (some 0) none false 1 0 0) none + 4) ∧
    ¬ LayoutAgrees someFrame (fillTxreq0 someFrame 5 (some 0x20) (some 0) none false 1 0 0) 5
      (some 0x20) (some 0) none := by
  have hptr := fillTxreq0_qosPtr someFrame 5 (some 0x20) (some 0) none 1 0 0
  refine ⟨hptr, fun h => ?_⟩
  have hwant := (h.qosPtr 0x20 rfl).1
  rw [hptr, qosPos] at hwant
  simp at hwant

end Fullmac.Desc
