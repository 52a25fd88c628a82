import Fullmac.Hci.RxAggr

/-!
# What taking a receive aggregate apart touches

Reference: `host/hal/SSV6006/ssv6006_pkt.c`, `ssv6xxx_aggr_frame_is_last` and
`ssv6006_hal_process_hci_rx_aggr`.

`rxAggrTraced` is the loop of `rxAggrLoop` with a list of what it touches: the headers it reads, the
copies it makes and the difference it computes for the value returned. `RxChained m len off` says
what the buffer has to look like from `off` on for all of this to be in order; the loop goes down
such a chain header by header (`rxAggrTraced_safe_iff`). The header behind a packet is read to find
out whether the packet is the last, so a chain ends with a packet behind which there is one, or a
single byte.
-/

namespace Fullmac.Hci

open Bytes

/-! ## The loop with its touches -/

/-- What the loop does with the buffer. -/
inductive RxTouch
  /-- The header at `off` is read. -/
  | header (off : ℕ)
  /-- `len` bytes from `off` on are copied to a receive buffer. -/
  | copy (off : ℕ) (len : ℤ)
  /-- `diff` is computed to be returned. -/
  | ret (diff : ℤ)
deriving DecidableEq

/-- A header inside the buffer of `dataLength` bytes, a copy that has a length, stays inside and
fits in a receive buffer, a difference that does not underflow. -/
def RxTouch.Safe (dataLength : ℕ) : RxTouch → Prop
  | .header off => off + rxAggrInfoSize ≤ dataLength
  | .copy off len => 0 ≤ len ∧ off + len ≤ dataLength ∧ len ≤ maxFrameSize
  | .ret diff => 0 ≤ diff

instance (dataLength : ℕ) : DecidablePred (RxTouch.Safe dataLength)
  | .header off => inferInstanceAs (Decidable (off + rxAggrInfoSize ≤ dataLength))
  | .copy off len =>
    inferInstanceAs (Decidable (0 ≤ len ∧ off + len ≤ dataLength ∧ len ≤ maxFrameSize))
  | .ret diff => inferInstanceAs (Decidable (0 ≤ diff))

/-- What `ssv6xxx_aggr_frame_is_last` reads: its header and, unless one byte is left behind the
packet, the next. -/
def isLastTouches (m : Mem) (data : ℕ) (offset length : ℤ) : List RxTouch :=
  let jmp := jmpMpduLen m data
  if jmp + offset = length - 1 then [.header data] else [.header data, .header (data + jmp)]

/-- The copy of the packet behind the header at `aggrdata`. -/
def copyTouch (m : Mem) (aggrdata : ℕ) : RxTouch :=
  .copy (aggrdata + rxAggrInfoSize) ((jmpMpduLen m aggrdata : ℤ) - rxAggrInfoSize)

/-- The difference of the last header. -/
def retTouches (m : Mem) (aggrdata : ℕ) : List RxTouch :=
  if accuRxLen m aggrdata ≤ maxHciAggrSize + maxRxPktRsvd then
    [.ret ((accuRxLen m aggrdata : ℤ) - jmpMpduLen m aggrdata)]
  else []

/-- `rxAggrLoop`, with what it touches. -/
def rxAggrTraced (pdata : Mem) (fresh : ℕ → Mem) (dataLength : ℕ) :
    ℕ → ℕ → ℕ → List RxFrame → ℕ → Option (List RxFrame × ℕ) × List RxTouch
  | 0, _, _, _, _ => (none, [])
  | fuel + 1, aggrdata, dataOffset, frames, ret =>
    if dataOffset < dataLength then
      let jmp := jmpMpduLen pdata aggrdata
      let outside :=
        addU32 dataOffset rxAggrInfoSize > dataLength ∨ addU32 dataOffset jmp > dataLength
      let frames' := frames ++ [newFrame (fresh frames.length) (packetAt pdata aggrdata)]
      let looked := isLastTouches pdata aggrdata (toInt dataOffset) (toInt dataLength)
        ++ [.header aggrdata]
      if aggrFrameIsLast pdata aggrdata (toInt dataOffset) (toInt dataLength) then
        if outside then (some (frames, ret), looked)
        else
          let r := rxAggrTraced pdata fresh dataLength fuel aggrdata dataLength frames'
            (nextAggrLen pdata aggrdata)
          (r.1, looked ++ copyTouch pdata aggrdata :: (retTouches pdata aggrdata ++ r.2))
      else
        if jmp = 0 ∨ jmp > maxFrameSize ∨ outside then (some (frames, ret), looked)
        else
          let r := rxAggrTraced pdata fresh dataLength fuel (aggrdata + jmp) (addU32 dataOffset jmp)
            frames' ret
          (r.1, looked ++ copyTouch pdata aggrdata :: r.2)
    else (some (frames, ret), [])

/-- What `ssv6006_hal_process_hci_rx_aggr` touches. -/
def rxAggrTouches (pdata : Mem) (fresh : ℕ → Mem) (dataLength : ℕ) : List RxTouch :=
  (rxAggrTraced pdata fresh dataLength (dataLength + 1) 0 0 [] 0).2

/-- The touches aside, it is the loop. -/
theorem rxAggrTraced_fst (pdata : Mem) (fresh : ℕ → Mem) (dataLength fuel aggrdata dataOffset : ℕ)
    (frames : List RxFrame) (ret : ℕ) :
    (rxAggrTraced pdata fresh dataLength fuel aggrdata dataOffset frames ret).1
      = rxAggrLoop pdata fresh dataLength fuel aggrdata dataOffset frames ret := by
  induction fuel generalizing aggrdata dataOffset frames ret with
  | zero => rfl
  | succ fuel ih =>
    simp only [rxAggrTraced, rxAggrLoop, ← ih]
    split_ifs <;> rfl

/-! ## Chains of headers -/

/-- What the buffer of `len` bytes looks like from `off` on. -/
inductive RxChained (m : Mem) (len : ℕ) : ℕ → Prop
  /-- Nothing is left. -/
  | nil {off : ℕ} (hend : len ≤ off) : RxChained m len off
  /-- The last packet: one byte follows it, or a header that leads nowhere. -/
  | last {off : ℕ} (hhead : off + rxAggrInfoSize ≤ len)
      (hnext : off + jmpMpduLen m off + 1 = len ∨
        off + jmpMpduLen m off + rxAggrInfoSize ≤ len ∧
          (jmpMpduLen m (off + jmpMpduLen m off) = 0 ∨
            len < off + jmpMpduLen m off + jmpMpduLen m (off + jmpMpduLen m off)))
      (hmin : rxAggrInfoSize ≤ jmpMpduLen m off)
      (hmax : jmpMpduLen m off ≤ maxFrameSize + rxAggrInfoSize)
      (haccu : maxHciAggrSize + maxRxPktRsvd < accuRxLen m off ∨
        jmpMpduLen m off ≤ accuRxLen m off) : RxChained m len off
  /-- A packet too long to be taken, with a header behind it that leads on. -/
  | stop {off : ℕ} (hhead : off + rxAggrInfoSize ≤ len)
      (hnext : off + jmpMpduLen m off + rxAggrInfoSize ≤ len)
      (hmore : jmpMpduLen m (off + jmpMpduLen m off) ≠ 0 ∧
        off + jmpMpduLen m off + jmpMpduLen m (off + jmpMpduLen m off) ≤ len)
      (hbig : maxFrameSize < jmpMpduLen m off) : RxChained m len off
  /-- A packet with a header behind it that leads on, and the chain that starts there. -/
  | more {off : ℕ} (hhead : off + rxAggrInfoSize ≤ len)
      (hnext : off + jmpMpduLen m off + rxAggrInfoSize ≤ len)
      (hmore : jmpMpduLen m (off + jmpMpduLen m off) ≠ 0 ∧
        off + jmpMpduLen m off + jmpMpduLen m (off + jmpMpduLen m off) ≤ len)
      (hmin : rxAggrInfoSize ≤ jmpMpduLen m off) (hmax : jmpMpduLen m off ≤ maxFrameSize)
      (hrest : RxChained m len (off + jmpMpduLen m off)) : RxChained m len off

/-! ## One iteration -/

section Iteration

variable {m : Mem} {off len : ℕ}

theorem aggrFrameIsLast_iff :
    aggrFrameIsLast m off off len = true ↔
      off + jmpMpduLen m off + 1 = len ∨ jmpMpduLen m (off + jmpMpduLen m off) = 0 ∨
        len < off + jmpMpduLen m off + jmpMpduLen m (off + jmpMpduLen m off) := by
  simp only [aggrFrameIsLast]
  split
  · simp only [true_iff]
    omega
  · simp only [Bool.or_eq_true, decide_eq_true_eq]
    omega

theorem safe_looked_iff :
    (∀ t ∈ isLastTouches m off off len ++ [RxTouch.header off], t.Safe len) ↔
      off + rxAggrInfoSize ≤ len ∧
        (off + jmpMpduLen m off + 1 = len ∨ off + jmpMpduLen m off + rxAggrInfoSize ≤ len) := by
  have hint : ((jmpMpduLen m off : ℤ) + off = (len : ℤ) - 1) ↔
      off + jmpMpduLen m off + 1 = len := by
    omega
  simp only [isLastTouches, hint]
  split
  · rename_i hone
    simp [RxTouch.Safe, hone]
  · rename_i hone
    simp only [List.cons_append, List.nil_append, List.forall_mem_cons, RxTouch.Safe, hone,
      false_or]
    exact ⟨fun h => ⟨h.1, h.2.1⟩,
      fun h => ⟨h.1, h.2, h.1, fun t ht => absurd ht List.not_mem_nil⟩⟩

theorem safe_copyTouch_iff :
    (copyTouch m off).Safe len ↔ rxAggrInfoSize ≤ jmpMpduLen m off ∧
      off + jmpMpduLen m off ≤ len ∧ jmpMpduLen m off ≤ maxFrameSize + rxAggrInfoSize := by
  simp only [copyTouch, RxTouch.Safe]
  push_cast
  omega

theorem safe_retTouches_iff :
    (∀ t ∈ retTouches m off, t.Safe len) ↔
      maxHciAggrSize + maxRxPktRsvd < accuRxLen m off ∨ jmpMpduLen m off ≤ accuRxLen m off := by
  rw [retTouches]
  split
  · rename_i haccu
    simp only [List.mem_singleton, forall_eq, RxTouch.Safe]
    omega
  · rename_i haccu
    exact iff_of_true (fun t ht => absurd ht List.not_mem_nil) (.inl (Nat.lt_of_not_le haccu))

/-- A chain with something left goes on in one of three ways. -/
theorem rxChained_iff (hoff : off < len) :
    RxChained m len off ↔
      (off + rxAggrInfoSize ≤ len ∧
        (off + jmpMpduLen m off + 1 = len ∨ off + jmpMpduLen m off + rxAggrInfoSize ≤ len)) ∧
      if aggrFrameIsLast m off off len then
        (rxAggrInfoSize ≤ jmpMpduLen m off ∧ off + jmpMpduLen m off ≤ len ∧
          jmpMpduLen m off ≤ maxFrameSize + rxAggrInfoSize) ∧
        (maxHciAggrSize + maxRxPktRsvd < accuRxLen m off ∨ jmpMpduLen m off ≤ accuRxLen m off)
      else jmpMpduLen m off ≤ maxFrameSize →
        rxAggrInfoSize ≤ jmpMpduLen m off ∧ RxChained m len (off + jmpMpduLen m off) := by
  rw [rxAggrInfoSize]
  constructor
  · intro h
    cases h with
    | nil hend => omega
    | last hhead hnext hmin hmax haccu =>
      rw [rxAggrInfoSize] at hhead hnext hmin hmax
      have hlast : aggrFrameIsLast m off off len = true := aggrFrameIsLast_iff.mpr (by omega)
      rw [if_pos hlast]
      exact ⟨⟨hhead, by omega⟩, ⟨hmin, by omega, hmax⟩, haccu⟩
    | stop hhead hnext hmore hbig =>
      rw [rxAggrInfoSize] at hhead hnext
      have hlast : ¬ aggrFrameIsLast m off off len = true := by
        rw [aggrFrameIsLast_iff]
        omega
      rw [if_neg hlast]
      exact ⟨⟨hhead, .inr hnext⟩, fun hsmall => absurd hbig (Nat.not_lt_of_le hsmall)⟩
    | more hhead hnext hmore hmin hmax hrest =>
      rw [rxAggrInfoSize] at hhead hnext hmin
      have hlast : ¬ aggrFrameIsLast m off off len = true := by
        rw [aggrFrameIsLast_iff]
        omega
      rw [if_neg hlast]
      exact ⟨⟨hhead, .inr hnext⟩, fun _ => ⟨hmin, hrest⟩⟩
  · rintro ⟨⟨hhead, hnext⟩, hcases⟩
    split at hcases
    · rename_i hlast
      rw [aggrFrameIsLast_iff] at hlast
      obtain ⟨⟨hmin, -, hmax⟩, haccu⟩ := hcases
      refine .last hhead ?_ hmin hmax haccu
      rw [rxAggrInfoSize]
      omega
    · rename_i hlast
      rw [aggrFrameIsLast_iff, not_or, not_or] at hlast
      obtain ⟨hone, hzero, hfar⟩ := hlast
      have hpeek := hnext.resolve_left hone
      by_cases hmax : jmpMpduLen m off ≤ maxFrameSize
      · obtain ⟨hmin, hrest⟩ := hcases hmax
        exact .more hhead hpeek ⟨hzero, by omega⟩ hmin hmax hrest
      · exact .stop hhead hpeek ⟨hzero, by omega⟩ (Nat.lt_of_not_le hmax)

end Iteration

/-! ## The whole loop -/

/-- With enough iterations the loop ends: each one that goes on moves `data_offset` up. -/
theorem rxAggrLoop_isSome {pdata : Mem} {fresh : ℕ → Mem} {dataLength : ℕ}
    (hlen : dataLength ≤ maxHciAggrSize) {fuel aggrdata dataOffset : ℕ} {frames : List RxFrame}
    {ret : ℕ} (hfuel : dataLength - dataOffset < fuel) :
    (rxAggrLoop pdata fresh dataLength fuel aggrdata dataOffset frames ret).isSome := by
  induction fuel generalizing aggrdata dataOffset frames ret with
  | zero => omega
  | succ fuel ih =>
    have hjmp : jmpMpduLen pdata aggrdata < 65536 := getU16_lt pdata aggrdata
    have hsize : maxHciAggrSize = 9344 := rfl
    rw [rxAggrLoop]
    dsimp only
    split
    · split
      · split
        · rfl
        · exact ih (by omega)
      · split
        · rfl
        · rename_i hgoes
          rw [not_or] at hgoes
          rw [addU32_of_lt (by omega)]
          exact ih (by omega)
    · rfl

theorem rxAggrTraced_snd_of_end (pdata : Mem) (fresh : ℕ → Mem) (len fuel aggrdata : ℕ)
    (frames : List RxFrame) (ret : ℕ) :
    (rxAggrTraced pdata fresh len fuel aggrdata len frames ret).2 = [] := by
  cases fuel with
  | zero => rfl
  | succ fuel => rw [rxAggrTraced, if_neg (lt_irrefl len)]

/-- From `off` on, what the loop touches is in order exactly when the buffer holds a chain there. -/
theorem rxAggrTraced_safe_iff {pdata : Mem} {fresh : ℕ → Mem} {len : ℕ}
    (hlen : len ≤ maxHciAggrSize)
    {fuel off : ℕ} {frames : List RxFrame} {ret : ℕ} (hfuel : len < fuel + off) :
    (∀ t ∈ (rxAggrTraced pdata fresh len fuel off off frames ret).2, t.Safe len) ↔
      RxChained pdata len off := by
  induction fuel generalizing off frames ret with
  | zero => exact iff_of_true (fun t ht => absurd ht List.not_mem_nil) (.nil (by omega))
  | succ fuel ih =>
    have hjmp : jmpMpduLen pdata off < 65536 := getU16_lt pdata off
    have hsize : maxHciAggrSize = 9344 := rfl
    by_cases hoff : off < len
    · rw [rxChained_iff hoff, rxAggrTraced, if_pos hoff]
      simp only [toInt_of_lt (show off < 2147483648 by omega),
        toInt_of_lt (show len < 2147483648 by omega),
        addU32_of_lt (show off + rxAggrInfoSize < 4294967296 by rw [rxAggrInfoSize]; omega),
        addU32_of_lt (show off + jmpMpduLen pdata off < 4294967296 by omega)]
      have hlooked : ∀ rest : List RxTouch,
          (∀ t ∈ isLastTouches pdata off off len ++ [.header off] ++ rest, t.Safe len) ↔
            (off + rxAggrInfoSize ≤ len ∧ (off + jmpMpduLen pdata off + 1 = len ∨
              off + jmpMpduLen pdata off + rxAggrInfoSize ≤ len)) ∧ ∀ t ∈ rest, t.Safe len := by
        intro rest
        rw [List.forall_mem_append, safe_looked_iff]
      split
      · rename_i hlast
        split
        · rename_i hout
          -- an iteration that has looked at headers inside the buffer does not stop here
          rw [safe_looked_iff]
          omega
        · rw [hlooked, List.forall_mem_cons, List.forall_mem_append, safe_copyTouch_iff,
            safe_retTouches_iff, rxAggrTraced_snd_of_end]
          rw [and_iff_left fun t ht => absurd ht List.not_mem_nil]
      · rename_i hlast
        split
        · rename_i hstop
          rw [aggrFrameIsLast_iff] at hlast
          -- a zero jump leads to its own header, which makes the packet the last
          have hjmp0 : jmpMpduLen pdata off ≠ 0 := by
            intro hzero
            rw [hzero] at hlast
            exact hlast (.inr (.inl hzero))
          rw [safe_looked_iff]
          constructor
          · exact fun hlook => ⟨hlook, fun hsmall => by omega⟩
          · exact fun h => h.1
        · rename_i hgoes
          rw [not_or, not_or] at hgoes
          rw [hlooked, List.forall_mem_cons, safe_copyTouch_iff, ih (by omega)]
          have hsmall : jmpMpduLen pdata off ≤ maxFrameSize := Nat.le_of_not_lt hgoes.2.1
          have hin : off + jmpMpduLen pdata off ≤ len := by omega
          have hbig : jmpMpduLen pdata off ≤ maxFrameSize + rxAggrInfoSize := by omega
          exact and_congr_right fun _ => ⟨fun h _ => ⟨h.1.1, h.2⟩,
            fun h => ⟨⟨(h hsmall).1, hin, hbig⟩, (h hsmall).2⟩⟩
    · rw [rxAggrTraced, if_neg hoff]
      exact iff_of_true (fun t ht => absurd ht List.not_mem_nil) (.nil (by omega))

/-- Taking a buffer apart ends, and all it touches is in order exactly when the buffer is a chain:
every packet with room for its header and one more behind it, or one byte behind the last. -/
theorem processHciRxAggr_safe_iff (pdata : Mem) (fresh : ℕ → Mem) (dataLength : ℕ)
    (hlen : dataLength ≤ maxHciAggrSize) :
    ((processHciRxAggr pdata fresh dataLength).isSome ∧
      ∀ t ∈ rxAggrTouches pdata fresh dataLength, t.Safe dataLength) ↔
      RxChained pdata dataLength 0 := by
  have hsome : (processHciRxAggr pdata fresh dataLength).isSome :=
    rxAggrLoop_isSome hlen (by omega)
  rw [rxAggrTouches, rxAggrTraced_safe_iff hlen (by omega)]
  exact and_iff_right hsome

/-- An aggregate laid out back to back is no chain: nothing is left behind its last packet. -/
theorem not_rxChained_of_laidOut {m : Mem} {len off : ℕ} {packets : List (List UInt8)}
    (hne : packets ≠ []) (h : RxLaidOut m off packets)
    (hmax : ∀ p ∈ packets, rxAggrInfoSize + p.length ≤ maxFrameSize)
    (hlen : len = off + rxTotal packets) : ¬ RxChained m len off := by
  induction packets generalizing off with
  | nil => exact absurd rfl hne
  | cons p packets ih =>
    obtain ⟨hjmp, -, hrest⟩ := id h
    have hp := hmax p List.mem_cons_self
    have hall := hlen
    rw [rxTotal_cons] at hlen
    rw [← hjmp] at hp hlen hrest
    intro hchain
    have hinfo : rxAggrInfoSize = 12 := rfl
    cases packets with
    | nil =>
      rw [rxTotal_nil] at hlen
      cases hchain <;> omega
    | cons q packets =>
      have hmore := aggrFrameIsLast_of_more h hall
      have hoff : off < len := by omega
      rw [rxChained_iff hoff, if_neg (by rw [hmore]; exact Bool.false_ne_true)] at hchain
      exact ih (List.cons_ne_nil q packets) hrest (fun p hp => hmax p (List.mem_cons_of_mem _ hp))
        (by omega) (hchain.2 hp).2

/-- A packet of four bytes, and a header that leads nowhere behind it. -/
def closedAggr : Mem := ofList [16, 0, 16, 0, 0, 0, 0, 0, 0, 0, 0, 0, 4, 0, 7, 7]

theorem processHciRxAggr_safe_closedAggr :
    28 ≤ maxHciAggrSize ∧ ∀ t ∈ rxAggrTouches closedAggr (fun _ => zeroBuf) 28, t.Safe 28 := by
  have hchained : RxChained closedAggr 28 0 :=
    .last (by decide) (by decide) (by decide) (by decide) (by decide)
  exact ⟨by decide, ((processHciRxAggr_safe_iff closedAggr _ 28 (by decide)).mpr hchained).2⟩

/-- The same packet alone, 16 bytes laid out as they should be: to see that it is the last, the
header behind the buffer is read. -/
theorem rxAggrTouches_shortLenAggr :
    ¬ ∀ (pdata : Mem) (fresh : ℕ → Mem) (dataLength : ℕ), dataLength ≤ maxHciAggrSize →
      (processHciRxAggr pdata fresh dataLength).isSome ∧
        ∀ t ∈ rxAggrTouches pdata fresh dataLength, t.Safe dataLength := by
  intro hall
  obtain ⟨-, hsafe⟩ := hall shortLenAggr (fun _ => zeroBuf) 16 (by decide)
  have hread : RxTouch.header 16 ∈ rxAggrTouches shortLenAggr (fun _ => zeroBuf) 16 := by decide
  exact absurd (hsafe _ hread) (by decide)

end Fullmac.Hci
