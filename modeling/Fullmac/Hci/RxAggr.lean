import Fullmac.Hci.TxAggrTask

/-!
# Taking a receive aggregate apart

Reference: `host/hal/SSV6006/ssv6006_pkt.c`, `ssv6xxx_aggr_frame_is_last` and
`ssv6006_hal_process_hci_rx_aggr`; `ssv6006_pktdef.h`, `struct hci_rx_aggr_info`.

Each packet of an aggregate has a header of 12 bytes, of which `jmp_mpdu_len` leads to the next one.
No header says that its packet is the last: the loop looks at the jump of the header that would
follow. `aggrFrameIsLast_of_more` and `aggrFrameIsLast_of_end` say that this is right on an
aggregate that is laid out back to back, whatever stands behind it; from there
`rxAggrLoop_laidOut` goes down the list of packets.
-/

namespace Fullmac.Hci

open Bytes

/-! ## The loop -/

/-- `sizeof(struct hci_rx_aggr_info)`. -/
def rxAggrInfoSize : ℕ := 12

/-- `MAX_RX_PKT_RSVD`. -/
def maxRxPktRsvd : ℕ := 512

/-- `jmp_mpdu_len` of a header at `off`. -/
def jmpMpduLen (m : Mem) (off : ℕ) : ℕ := getU16 m off

/-- `accu_rx_len` of a header at `off`. -/
def accuRxLen (m : Mem) (off : ℕ) : ℕ := getU16 m (off + 2)

/-- `x + y` on `u32`. -/
def addU32 (x y : ℕ) : ℕ := (x + y) % 4294967296

/-- `x - y` on `u32`. -/
def subU32 (x y : ℕ) : ℕ := (x + 4294967296 - y) % 4294967296

/-- A `u32` passed as an `int`. -/
def toInt (x : ℕ) : ℤ := if x < 2147483648 then x else (x : ℤ) - 4294967296

/-- `ssv6xxx_aggr_frame_is_last`, for the header at `data`. -/
def aggrFrameIsLast (m : Mem) (data : ℕ) (offset length : ℤ) : Bool :=
  let jmp := jmpMpduLen m data
  if jmp + offset = length - 1 then true
  else
    let next := jmpMpduLen m (data + jmp)
    next = 0 || (next : ℤ) > length - (offset + jmp)

/-- A frame handed to the callback: its buffer from the data pointer on, and its data length. -/
structure RxFrame where
  bytes : Mem
  len : ℕ

/-- The data of a frame. -/
def RxFrame.data (f : RxFrame) : List UInt8 := slice f.bytes 0 f.len

/-- A new frame, in which `stale` was found, with the packet copied into it. The data length is the
`len` of the `SSV6006_HOST_RXPKT` the packet starts with. -/
def newFrame (stale : Mem) (packet : List UInt8) : RxFrame :=
  let bytes := copy stale 0 packet
  ⟨bytes, getU16 bytes 0⟩

/-- The packet behind the header at `aggrdata`. -/
def packetAt (m : Mem) (aggrdata : ℕ) : List UInt8 :=
  slice m (aggrdata + rxAggrInfoSize) (subU32 (jmpMpduLen m aggrdata) rxAggrInfoSize)

/-- The length peeked from the last header. -/
def nextAggrLen (m : Mem) (aggrdata : ℕ) : ℕ :=
  if accuRxLen m aggrdata ≤ maxHciAggrSize + maxRxPktRsvd then
    subU32 (accuRxLen m aggrdata) (jmpMpduLen m aggrdata)
  else 0

/-- The loop of `ssv6006_hal_process_hci_rx_aggr`. `fresh k` is what the buffer of the frame
allocated for the packet number `k` holds beforehand; `frames` have been handed to the callback. -/
def rxAggrLoop (pdata : Mem) (fresh : ℕ → Mem) (dataLength : ℕ) :
    ℕ → ℕ → ℕ → List RxFrame → ℕ → Option (List RxFrame × ℕ)
  | 0, _, _, _, _ => none
  | fuel + 1, aggrdata, dataOffset, frames, ret =>
    if dataOffset < dataLength then
      let jmp := jmpMpduLen pdata aggrdata
      let outside :=
        addU32 dataOffset rxAggrInfoSize > dataLength ∨ addU32 dataOffset jmp > dataLength
      let frames' := frames ++ [newFrame (fresh frames.length) (packetAt pdata aggrdata)]
      if aggrFrameIsLast pdata aggrdata (toInt dataOffset) (toInt dataLength) then
        if outside then some (frames, ret)
        else rxAggrLoop pdata fresh dataLength fuel aggrdata dataLength frames'
          (nextAggrLen pdata aggrdata)
      else
        if jmp = 0 ∨ jmp > maxFrameSize ∨ outside then some (frames, ret)
        else rxAggrLoop pdata fresh dataLength fuel (aggrdata + jmp) (addU32 dataOffset jmp) frames'
          ret
    else some (frames, ret)

/-- `ssv6006_hal_process_hci_rx_aggr`: the frames handed to the callback, and the value returned. An
iteration that goes on moves `data_offset` up, so `data_length + 1` of them are enough. -/
def processHciRxAggr (pdata : Mem) (fresh : ℕ → Mem) (dataLength : ℕ) :
    Option (List RxFrame × ℕ) :=
  rxAggrLoop pdata fresh dataLength (dataLength + 1) 0 0 [] 0

/-! ## Aggregates laid out back to back -/

/-- The number of bytes of the aggregate of `packets`. -/
def rxTotal (packets : List (List UInt8)) : ℕ :=
  (packets.map fun p => rxAggrInfoSize + p.length).sum

/-- The packets stand at `off`, back to back, each behind a header that leads to the next one. -/
def RxLaidOut (m : Mem) : ℕ → List (List UInt8) → Prop
  | _, [] => True
  | off, p :: packets =>
    jmpMpduLen m off = rxAggrInfoSize + p.length ∧ slice m (off + rxAggrInfoSize) p.length = p ∧
      RxLaidOut m (off + (rxAggrInfoSize + p.length)) packets

/-- The frames for the packets from number `k` on. -/
def delivered (fresh : ℕ → Mem) : ℕ → List (List UInt8) → List RxFrame
  | _, [] => []
  | k, p :: packets => newFrame (fresh k) p :: delivered fresh (k + 1) packets

/-- The `len` of the `SSV6006_HOST_RXPKT` a packet starts with, if it has one. -/
def lenField : List UInt8 → Option ℕ
  | b₀ :: b₁ :: _ => some (b₀.toNat + 256 * b₁.toNat)
  | _ => none

@[simp] theorem rxTotal_nil : rxTotal [] = 0 := rfl

@[simp] theorem rxTotal_cons (p : List UInt8) (packets : List (List UInt8)) :
    rxTotal (p :: packets) = rxAggrInfoSize + p.length + rxTotal packets := by
  simp [rxTotal]

theorem toInt_of_lt {x : ℕ} (h : x < 2147483648) : toInt x = x := if_pos h

theorem addU32_of_lt {x y : ℕ} (h : x + y < 4294967296) : addU32 x y = x + y := Nat.mod_eq_of_lt h

theorem subU32_of_le {x y : ℕ} (h : y ≤ x) (hx : x < 4294967296) : subU32 x y = x - y := by
  rw [subU32]
  omega

theorem length_le_rxTotal (packets : List (List UInt8)) : packets.length ≤ rxTotal packets := by
  induction packets with
  | nil => rfl
  | cons p packets ih =>
    rw [rxTotal_cons, List.length_cons, rxAggrInfoSize]
    omega

/-! ## The last packet -/

/-- Before another packet of the aggregate, a packet is not the last. -/
theorem aggrFrameIsLast_of_more {m : Mem} {off length : ℕ} {p q : List UInt8}
    {packets : List (List UInt8)} (h : RxLaidOut m off (p :: q :: packets))
    (hlength : length = off + rxTotal (p :: q :: packets)) :
    aggrFrameIsLast m off off length = false := by
  obtain ⟨hjmp, -, hnext, -, -⟩ := h
  rw [rxTotal_cons, rxTotal_cons] at hlength
  rw [rxAggrInfoSize] at *
  simp only [aggrFrameIsLast, hjmp, hnext]
  rw [if_neg (by push_cast; omega)]
  simp only [Bool.or_eq_false_iff, decide_eq_false_iff_not]
  constructor
  · omega
  · push_cast
    omega

/-- At the end of the aggregate a packet is the last, whatever jump is found behind it. -/
theorem aggrFrameIsLast_of_end {m : Mem} {off length : ℕ} {p : List UInt8}
    (h : RxLaidOut m off [p]) (hlength : length = off + rxTotal [p]) :
    aggrFrameIsLast m off off length = true := by
  obtain ⟨hjmp, -, -⟩ := h
  rw [rxTotal_cons, rxTotal_nil] at hlength
  rw [rxAggrInfoSize] at *
  simp only [aggrFrameIsLast, hjmp]
  rw [if_neg (by push_cast; omega)]
  simp only [Bool.or_eq_true, decide_eq_true_eq]
  by_cases hzero : jmpMpduLen m (off + (12 + p.length)) = 0
  · exact .inl hzero
  · refine .inr ?_
    push_cast
    omega

/-! ## The whole aggregate -/

theorem packetAt_eq {m : Mem} {off : ℕ} {p : List UInt8}
    (hjmp : jmpMpduLen m off = rxAggrInfoSize + p.length)
    (hdata : slice m (off + rxAggrInfoSize) p.length = p) : packetAt m off = p := by
  have hlt : jmpMpduLen m off < 65536 := getU16_lt m off
  have hlen : subU32 (jmpMpduLen m off) rxAggrInfoSize = p.length := by
    rw [subU32_of_le (by omega) (by omega)]
    omega
  rw [packetAt, hlen, hdata]

/-- From the header of the first packet on, the loop hands over all packets and returns what it
peeks from the last header. -/
theorem rxAggrLoop_laidOut {pdata : Mem} {fresh : ℕ → Mem} {length : ℕ}
    {packets : List (List UInt8)} {off fuel : ℕ} {frames : List RxFrame} {ret : ℕ}
    (hne : packets ≠ []) (h : RxLaidOut pdata off packets)
    (hmax : ∀ p ∈ packets, rxAggrInfoSize + p.length ≤ maxFrameSize)
    (hlength : length = off + rxTotal packets) (hint : length < 2147483648)
    (hfuel : packets.length < fuel) :
    rxAggrLoop pdata fresh length fuel off off frames ret
      = some (frames ++ delivered fresh frames.length packets,
          nextAggrLen pdata (off + rxTotal packets.dropLast)) := by
  induction packets generalizing off fuel frames ret with
  | nil => exact absurd rfl hne
  | cons p packets ih =>
    obtain ⟨fuel, rfl⟩ := Nat.exists_eq_succ_of_ne_zero (Nat.ne_zero_of_lt hfuel)
    obtain ⟨hjmp, hdata, hrest⟩ := id h
    have hsum : length = off + (rxAggrInfoSize + p.length) + rxTotal packets := by
      rw [hlength, rxTotal_cons]
      omega
    have hsize : rxAggrInfoSize = 12 := rfl
    have hinside : ¬ (addU32 off rxAggrInfoSize > length
        ∨ addU32 off (jmpMpduLen pdata off) > length) := by
      rw [hjmp, addU32_of_lt (by omega), addU32_of_lt (by omega)]
      omega
    rw [List.length_cons] at hfuel
    rw [rxAggrLoop, if_pos (by omega)]
    simp only [toInt_of_lt (show off < 2147483648 by omega), toInt_of_lt hint,
      packetAt_eq hjmp hdata]
    cases packets with
    | nil =>
      obtain ⟨fuel, rfl⟩ := Nat.exists_eq_succ_of_ne_zero
        (Nat.ne_zero_of_lt (Nat.lt_of_succ_lt_succ hfuel))
      rw [if_pos (aggrFrameIsLast_of_end h hlength), if_neg hinside, rxAggrLoop,
        if_neg (lt_irrefl length)]
      rfl
    | cons q packets =>
      have hmore := aggrFrameIsLast_of_more h hlength
      have hbig : ¬ (jmpMpduLen pdata off = 0 ∨ jmpMpduLen pdata off > maxFrameSize ∨
          (addU32 off rxAggrInfoSize > length ∨ addU32 off (jmpMpduLen pdata off) > length)) := by
        have hp := hmax p List.mem_cons_self
        rw [← hjmp] at hp
        rintro (hzero | hlarge | hout)
        · omega
        · omega
        · exact hinside hout
      rw [hmore, if_neg Bool.false_ne_true, if_neg hbig, hjmp, addU32_of_lt (by omega),
        ih (List.cons_ne_nil q packets) hrest (fun p hp => hmax p (List.mem_cons_of_mem _ hp))
          (by omega) (by omega)]
      simp [delivered, Nat.add_assoc]

/-- What is found in a new frame: the packet, and as its data length what the packet says. -/
theorem newFrame_spec (stale : Mem) (p : List UInt8) :
    slice (newFrame stale p).bytes 0 p.length = p ∧
      (newFrame stale p).len = getU16 (newFrame stale p).bytes 0 ∧
      (lenField p = some p.length → (newFrame stale p).data = p) := by
  have hbytes : slice (newFrame stale p).bytes 0 p.length = p := slice_copy_self stale 0 p
  refine ⟨hbytes, rfl, fun hlen => ?_⟩
  match p, hlen with
  | b₀ :: b₁ :: rest, hlen =>
    have heq : (newFrame stale (b₀ :: b₁ :: rest)).len = (b₀ :: b₁ :: rest).length :=
      Option.some_inj.mp hlen
    rw [RxFrame.data, heq, hbytes]

theorem delivered_spec (fresh : ℕ → Mem) (k : ℕ) (packets : List (List UInt8)) :
    List.Forall₂ (fun p f => slice f.bytes 0 p.length = p ∧ f.len = getU16 f.bytes 0 ∧
      (lenField p = some p.length → f.data = p)) packets (delivered fresh k packets) := by
  induction packets generalizing k with
  | nil => exact .nil
  | cons p packets ih => exact .cons (newFrame_spec (fresh k) p) (ih (k + 1))

/-- An aggregate of one packet of four bytes whose first two say that it has two. -/
def shortLenAggr : Mem := ofList [16, 0, 16, 0, 0, 0, 0, 0, 0, 0, 0, 0, 2, 0, 7, 7]

theorem rxLaidOut_shortLenAggr : RxLaidOut shortLenAggr 0 [[2, 0, 7, 7]] :=
  ⟨by decide, by decide, trivial⟩

end Fullmac.Hci
