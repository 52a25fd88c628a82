import Fullmac.Hci.TxAggrTask

/-!
# Where a transmit aggregate is written

Reference: `host/hal/SSV6006/ssv6006_pkt.c`, `ssv6006_hal_process_hci_aggr_tx`;
`host/core/txrx_task.c`, `TXRXTask_TxTask`, the test `aggr_len + len < MAX_HCI_AGGR_SIZE`.

The writes of a call are listed one by one, in the order of the source, and applied to the buffer
they give what the call leaves there (`written_aggrTxWrites`). A call writes up to the end of the
zero jump behind its frame, 12 bytes behind the rounded length, and never behind that
(`aggrTxWrites_inside_iff`); the test of the task leaves room for the frame and 4 bytes.
-/

namespace Fullmac.Hci

open Bytes

/-! ## The writes of a call -/

/-- A write: the offset in `aggr_buf` and the bytes that are written from there on. -/
structure Write where
  off : ℕ
  bytes : List UInt8

/-- Every byte is written inside `aggr_buf`. -/
def Write.Inside (w : Write) : Prop := ∀ i < w.bytes.length, w.off + i < maxHciAggrSize

/-- The buffer after the writes, one after another. -/
def written (m : Mem) (ws : List Write) : Mem := ws.foldl (fun m w => copy m w.off w.bytes) m

/-- The bytes of a little-endian 16-bit field. -/
def le16 (v : ℕ) : List UInt8 := [UInt8.ofNat v, UInt8.ofNat (v / 256)]

/-- `aggr_tx_info->jmp_len0 = aggr_tx_info->jmp_len1 = v` for a header at `off`. -/
def jmpLensWrites (off v : ℕ) : List Write := [⟨off + 2, le16 v⟩, ⟨off, le16 (v % 65536)⟩]

/-- The jump and the frame. -/
def frameWrites (tFrame : Frame) (start : ℕ) : List Write :=
  jmpLensWrites start (tFrame.alignSize + txAggrInfoSize)
    ++ [⟨start + txAggrInfoSize, tFrame.aligned⟩]

/-- The sum in the first header, and the zero jump behind the frame. -/
def endWrites (tFrame : Frame) (start : ℕ) (m : Mem) : List Write :=
  ⟨5, le16 (totolLen m + jmpLen0 m start)⟩
    :: jmpLensWrites (start + (tFrame.alignSize + txAggrInfoSize)) 0

/-- What `ssv6006_hal_process_hci_aggr_tx` writes to `aggr_buf`, in order. -/
def aggrTxWrites (tFrame : Frame) (aggrBuf : Mem) : List Write :=
  let start := if totolLen aggrBuf ≠ 0 then totolLen aggrBuf else 0
  let m := written aggrBuf (frameWrites tFrame start)
  let m' := written m (endWrites tFrame start m)
  frameWrites tFrame start ++ endWrites tFrame start m ++ [⟨4, [m' 4 + 1]⟩]

theorem written_append (m : Mem) (ws ws' : List Write) :
    written m (ws ++ ws') = written (written m ws) ws' :=
  List.foldl_append

theorem Write.inside_iff {w : Write} :
    w.Inside ↔ w.bytes = [] ∨ w.off + w.bytes.length ≤ maxHciAggrSize := by
  rw [← List.length_eq_zero_iff]
  constructor
  · intro h
    rcases Nat.eq_zero_or_pos w.bytes.length with h0 | hpos
    · exact .inl h0
    · have hlast := h (w.bytes.length - 1) (by omega)
      exact .inr (by omega)
  · intro h i hi
    omega

/-- The writes are those of the call. -/
theorem written_aggrTxWrites (f : Frame) (m : Mem) :
    written m (aggrTxWrites f m) = (processHciAggrTx f m).1 := by
  simp only [aggrTxWrites, written_append]
  rfl

/-- A call stays in `aggr_buf` exactly when the zero jump behind its frame does. -/
theorem aggrTxWrites_inside_iff {f : Frame} {m : Mem} {start : ℕ} (hstart : totolLen m = start) :
    (∀ w ∈ aggrTxWrites f m, w.Inside) ↔ start + f.alignSize + 12 ≤ maxHciAggrSize := by
  have hstart' : (if totolLen m ≠ 0 then totolLen m else 0) = start := by
    rw [hstart]
    split <;> omega
  have hsize := length_aligned f
  have hfirst : 8 ≤ maxHciAggrSize := by decide
  simp only [aggrTxWrites, hstart', frameWrites, endWrites, jmpLensWrites, List.forall_mem_append,
    List.forall_mem_cons, Write.inside_iff, le16, List.length_cons, List.length_nil, txAggrInfoSize,
    hsize, List.cons_ne_nil, false_or]
  constructor
  · rintro ⟨⟨-, -, hend, -⟩, -⟩
    omega
  · intro h
    have hnil : ∀ w ∈ ([] : List Write), w.bytes = [] ∨ w.off + w.bytes.length ≤ maxHciAggrSize :=
      fun w hw => absurd hw List.not_mem_nil
    exact ⟨⟨⟨⟨by omega, by omega, hnil⟩, .inr (by omega), hnil⟩, by omega, by omega, by omega,
      hnil⟩, by omega, hnil⟩

/-! ## The writes of the task -/

/-- The buffer a frame is appended to, if there is room for it: `aggr_buf`, or the memory just
allocated for it. -/
def bufFor (aggrBuf alloc : Option Mem) : Option Mem :=
  match aggrBuf, alloc with
  | some aggrBuf, _ => some aggrBuf
  | none, some mem => some (clear mem)
  | none, none => none

/-- The frame and the buffer `process_hci_aggr_tx` is called with in a step. -/
def aggrCall (s : AggrState) : AggrIn → Option (Frame × Mem)
  | .frame tFrame alloc =>
    if s.hciAggrTx ∧ s.aggrLen + tFrame.len < maxHciAggrSize then
      (bufFor s.aggrBuf alloc).map (tFrame, ·)
    else none
  | .idlePass => none

/-- What `process_hci_aggr_tx` writes in a step. -/
def stepWrites (s : AggrState) (inp : AggrIn) : List Write :=
  match aggrCall s inp with
  | some call => aggrTxWrites call.1 call.2
  | none => []

/-- The task, seen through its writes. -/
def writeStep (s : AggrState) (inp : AggrIn) : AggrState × List Write :=
  ((aggrStep s inp).1, stepWrites s inp)

/-- It goes through the states of the task. -/
theorem run_writeStep_fst (s : AggrState) (is : List AggrIn) :
    (Machine.run writeStep s is).1 = (Machine.run aggrStep s is).1 := by
  induction is generalizing s with
  | nil => rfl
  | cons inp is ih => exact ih (aggrStep s inp).1

/-- The frame a step admits to the aggregate ends, rounded up and with 12 bytes for the header and
the zero jump, in `aggr_buf`; behind what is there already, `aggr_len` less the zero jump. -/
def Fits (s : AggrState) (inp : AggrIn) : Prop :=
  ∀ call, aggrCall s inp = some call → s.aggrLen - 4 + call.1.alignSize + 12 ≤ maxHciAggrSize

theorem sendFrm_of_bufFor {s : AggrState} {f : Frame} {alloc : Option Mem} {m : Mem}
    (hon : s.hciAggrTx = true) (hbuf : bufFor s.aggrBuf alloc = some m) :
    sendFrm s f alloc = aggregateFrm s m f := by
  unfold sendFrm
  rw [if_pos hon]
  cases hbuf' : s.aggrBuf with
  | some m' =>
    rw [hbuf', bufFor, Option.some_inj] at hbuf
    rw [hbuf]
  | none =>
    rw [hbuf'] at hbuf
    cases alloc with
    | some mem =>
      rw [bufFor, Option.some_inj] at hbuf
      rw [← hbuf]
    | none => exact absurd hbuf (Option.some_ne_none m).symm

/-- In a step with a call, `aggr_buf` is what the writes make of the buffer, set to zero again if
the aggregate has been sent. -/
theorem aggrStep_of_call {s : AggrState} {inp : AggrIn} {call : Frame × Mem}
    (hcall : aggrCall s inp = some call) :
    (aggrStep s inp).1.aggrBuf = some (written call.2 (stepWrites s inp)) ∨
      (aggrStep s inp).1.aggrBuf = some (clear (written call.2 (stepWrites s inp))) := by
  have hwrites : written call.2 (stepWrites s inp) = (processHciAggrTx call.1 call.2).1 := by
    rw [stepWrites, hcall]
    exact written_aggrTxWrites call.1 call.2
  rw [hwrites]
  cases inp with
  | idlePass => exact absurd hcall (by simp [aggrCall])
  | frame f alloc =>
    rw [aggrCall] at hcall
    split at hcall
    · rename_i hroom
      obtain ⟨m, hbuf, rfl⟩ := Option.map_eq_some_iff.mp hcall
      simp only [aggrStep, sendFrm_of_bufFor hroom.1 hbuf, aggregateFrm, if_pos hroom.2]
      split
      · exact .inr rfl
      · exact .inl rfl
    · exact absurd hcall (by simp)

/-- What the buffer of a call holds, and how long the task takes it to be. -/
theorem Holding.totolLen_of_call {s : AggrState} {frames : List Frame} (h : Holding s frames)
    {inp : AggrIn} {call : Frame × Mem} (hcall : aggrCall s inp = some call) :
    totolLen call.2 = s.aggrLen - 4 := by
  cases inp with
  | idlePass => exact absurd hcall (by simp [aggrCall])
  | frame f alloc =>
    rw [aggrCall] at hcall
    split at hcall
    · obtain ⟨m, hbuf, rfl⟩ := Option.map_eq_some_iff.mp hcall
      unfold bufFor at hbuf
      split at hbuf
      · rename_i m' hsome
        cases hbuf
        obtain ⟨-, hholds⟩ := h.buf m hsome
        have hlen := hholds.len
        rw [hholds.aggr.sum]
        split at hlen
        · rename_i hnil
          rw [hlen, hnil, total_nil]
        · omega
      · rename_i mem hnone
        cases hbuf
        rw [(h.noBuf hnone).2.2]
        exact (aggregate_clear mem).sum
      · exact absurd hbuf (by simp)
    · exact absurd hcall (by simp)

/-- The writes of a step stay in `aggr_buf` exactly when its frame fits. -/
theorem Holding.stepWrites_inside_iff {s : AggrState} {frames : List Frame} (h : Holding s frames)
    (inp : AggrIn) : (∀ w ∈ stepWrites s inp, w.Inside) ↔ Fits s inp := by
  rw [stepWrites]
  split
  · rename_i call hcall
    rw [aggrTxWrites_inside_iff (h.totolLen_of_call hcall)]
    constructor
    · intro hfit call' hcall'
      rw [hcall, Option.some_inj] at hcall'
      exact hcall' ▸ hfit
    · exact fun hfits => hfits call hcall
  · rename_i hnone
    refine iff_of_true (fun w hw => absurd hw List.not_mem_nil) fun call hcall => ?_
    rw [hnone] at hcall
    exact absurd hcall.symm (Option.some_ne_none call)

/-- In a run, every byte is written inside `aggr_buf` exactly when every frame admitted fits. -/
theorem aggrRun_writes_inside_iff (is : List AggrIn) :
    (∀ w ∈ (Machine.run writeStep aggrInit is).2, w.Inside) ↔
      Machine.Meets writeStep Fits aggrInit is := by
  have hkeep : ∀ s inp, (∃ frames, Holding s frames) → Fits s inp →
      ∃ frames, Holding (writeStep s inp).1 frames := fun s inp h _ => by
    obtain ⟨frames, h⟩ := h
    exact h.step inp
  have hstep : ∀ s inp, (∃ frames, Holding s frames) →
      ((∀ w ∈ (writeStep s inp).2, w.Inside) ↔ Fits s inp) := fun s inp h => by
    obtain ⟨frames, h⟩ := h
    exact h.stepWrites_inside_iff inp
  exact Machine.forall_output_iff_meets hkeep hstep ⟨[], holding_aggrInit⟩ is

/-- A frame of 2019 zero bytes. -/
def frame2019 : Frame := ⟨zeroBuf, 2019, by decide⟩

/-- Three frames of `MAX_FRAME_SIZE` bytes, and one of 2019. -/
def admittedFrames : List AggrIn :=
  List.replicate 3 (.frame fullFrame (some zeroBuf)) ++ [.frame frame2019 none]

/-- The first three take 7320 bytes; 7324 and 2019 pass the test, and the zero jump behind the
fourth frame ends at 9352. -/
theorem admittedFrames_outside :
    ¬ ∀ w ∈ (Machine.run writeStep aggrInit admittedFrames).2, w.Inside := by
  intro h
  have hall : ∀ w ∈ (Machine.run writeStep aggrInit admittedFrames).2,
      w.bytes = [] ∨ w.off + w.bytes.length ≤ maxHciAggrSize := fun w hw =>
    Write.inside_iff.mp (h w hw)
  revert hall
  decide +kernel

end Fullmac.Hci
