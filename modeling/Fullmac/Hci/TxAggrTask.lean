import Fullmac.Lib.Machine
import Fullmac.Hci.TxAggr

/-!
# The transmit task with aggregation on

Reference: `host/core/txrx_task.c`, `TXRXTask_TxTask`, the branch `g_host_cfg.hci_aggr_tx == 1`, and
the end of a pass.

A frame that is not flushed is appended to `aggr_buf` when there seems to be room for it, the
aggregate goes to the driver with its fifth frame, or when a pass over the queues has found nothing;
and the frame is freed, whether it has been appended or not. `Holding s frames` says what `aggr_buf`
holds; each step says what becomes of that list (`Holding.append`, `Holding.send`, `Holding.lose`),
and a frame is lost exactly when the test for room fails. The test does not count the header and the
rounding, so that an aggregate may end up to 8 bytes behind `aggr_buf`; the memory behind it is part
of the model.
-/

namespace Fullmac.Hci

open Bytes

/-! ## The task -/

/-- `MAX_FRAME_SIZE`. -/
def maxFrameSize : ℕ := 2432

/-- `MAX_HCI_AGGR_SIZE`, `HCI_AGGR_SIZE + MAX_FRAME_SIZE`. -/
def maxHciAggrSize : ℕ := 0x1b00 + maxFrameSize

/-- The variables of the task, and `g_host_cfg.hci_aggr_tx`. -/
structure AggrState where
  hciAggrTx : Bool
  aggrBuf : Option Mem
  aggrN : ℕ
  aggrLen : ℕ
  sleepTick : ℕ

/-- The task starts, with aggregation on. -/
def aggrInit : AggrState := ⟨true, none, 0, 0, 0⟩

/-- What can be seen: a frame is taken (and freed at the end of the step), and
`ssv6xxx_drv_send` is called with a frame or with an aggregate. -/
inductive AggrOut
  | taken (f : Frame)
  | direct (data : List UInt8)
  | sent (data : List UInt8)

/-- `OS_MemSET(aggr_buf, 0, MAX_HCI_AGGR_SIZE)`. -/
def clear (m : Mem) : Mem := fun i => if i < maxHciAggrSize then 0 else m i

/-- Append the frame to `aggr_buf` if there is room, and send the aggregate when it is complete. -/
def aggregateFrm (s : AggrState) (aggrBuf : Mem) (tFrame : Frame) : AggrState × List AggrOut :=
  let r := if s.aggrLen + tFrame.len < maxHciAggrSize then processHciAggrTx tFrame aggrBuf
    else (aggrBuf, s.aggrN, s.aggrLen)
  if 4 < r.2.1 then
    ({ s with aggrBuf := some (clear r.1), aggrN := 0, aggrLen := 0 }, [.sent (slice r.1 0 r.2.2)])
  else ({ s with aggrBuf := some r.1, aggrN := r.2.1, aggrLen := r.2.2, sleepTick := 1 }, [])

/-- What the task does with a frame it does not flush. `alloc` is what `OS_MemAlloc` returns if it
is called, the memory it hands out as it is. -/
def sendFrm (s : AggrState) (tFrame : Frame) (alloc : Option Mem) : AggrState × List AggrOut :=
  if s.hciAggrTx then
    match s.aggrBuf, alloc with
    | some aggrBuf, _ => aggregateFrm s aggrBuf tFrame
    | none, some mem => aggregateFrm s (clear mem) tFrame
    | none, none => ({ s with hciAggrTx := false }, [.direct tFrame.data])
  else (s, [.direct tFrame.data])

/-- The end of a pass that has processed no frame. -/
def endIdlePass (s : AggrState) : AggrState × List AggrOut :=
  match s.aggrBuf with
  | some aggrBuf =>
    if s.aggrN ≠ 0 then
      ({ s with aggrBuf := some (clear aggrBuf), aggrN := 0, aggrLen := 0, sleepTick := 0 },
        [.sent (slice aggrBuf 0 s.aggrLen)])
    else (s, [])
  | none => (s, [])

/-- What comes next: a frame that is not flushed, or the end of a pass without any. -/
inductive AggrIn
  | frame (tFrame : Frame) (alloc : Option Mem)
  | idlePass

/-- One step. -/
def aggrStep (s : AggrState) : AggrIn → AggrState × List AggrOut
  | .frame tFrame alloc =>
    let r := sendFrm s tFrame alloc
    (r.1, .taken tFrame :: r.2)
  | .idlePass => endIdlePass s

/-- A run of the task. -/
abbrev aggrRun (is : List AggrIn) : AggrState × List AggrOut := Machine.run aggrStep aggrInit is

/-! ## Frames taken and frames passed on -/

/-- A list of bytes as a memory. -/
def ofList (bs : List UInt8) : Mem := fun i => bs.getD i 0

/-- The frames contained in what was passed to the driver. -/
def contained : AggrOut → List (List UInt8)
  | .taken _ => []
  | .direct data => [data]
  | .sent data => (walk (ofList data) (data.length + 1) 0).getD []

/-- The frames still in `aggr_buf`. -/
def AggrState.pending (s : AggrState) : List (List UInt8) :=
  match s.aggrBuf with
  | some aggrBuf => (walk aggrBuf (maxHciAggrSize + 1) 0).getD []
  | none => []

/-- The frames the task has taken. -/
def takenFrames (tr : List AggrOut) : List Frame :=
  tr.filterMap fun
    | .taken f => some f
    | _ => none

/-- The frame as it is found in an aggregate, where padding may follow it. -/
def Padded (f : Frame) (found : List UInt8) : Prop := ∃ pad, found = f.data ++ pad ∧ pad.length ≤ 3

/-- The frames passed on and those still in `aggr_buf` are the frames taken, in order. -/
def NothingLost (s : AggrState) (tr : List AggrOut) : Prop :=
  List.Forall₂ Padded (takenFrames tr) (tr.flatMap contained ++ s.pending)

/-- With aggregation on there is room for the frame in `aggr_buf`, as the task tests it. -/
def HasRoom (s : AggrState) : AggrIn → Prop
  | .frame tFrame alloc =>
    s.hciAggrTx = true → s.aggrBuf.isSome ∨ alloc.isSome → s.aggrLen + tFrame.len < maxHciAggrSize
  | .idlePass => True

/-! ## What the buffer holds -/

/-- `m` is `aggr_buf`, it holds `frames`, and the variables of the task say so. -/
structure Holds (s : AggrState) (m : Mem) (frames : List Frame) : Prop where
  aggr : Aggregate m frames
  count : s.aggrN = frames.length
  len : s.aggrLen = if frames = [] then 0 else total frames + 4
  few : frames.length ≤ 4
  fits : total frames < maxHciAggrSize + 16

/-- The frames waiting in `aggr_buf`. It is not allocated before the first frame, and if that fails
aggregation is off for good. -/
structure Holding (s : AggrState) (frames : List Frame) : Prop where
  buf : ∀ m, s.aggrBuf = some m → s.hciAggrTx = true ∧ Holds s m frames
  noBuf : s.aggrBuf = none → frames = [] ∧ s.aggrN = 0 ∧ s.aggrLen = 0

theorem holding_aggrInit : Holding aggrInit [] :=
  ⟨fun m h => absurd h (Option.some_ne_none m).symm, fun _ => ⟨rfl, rfl, rfl⟩⟩

theorem aggregate_clear (m : Mem) : Aggregate (clear m) [] := ⟨rfl, rfl, rfl⟩

theorem holds_clear {s : AggrState} (hn : s.aggrN = 0) (hlen : s.aggrLen = 0) (m : Mem) :
    Holds s (clear m) [] :=
  ⟨aggregate_clear m, hn, hlen, by simp, by decide⟩

/-- What is in the buffer is found there. -/
theorem Holding.pending {s : AggrState} {frames : List Frame} (h : Holding s frames) :
    s.pending = frames.map Frame.aligned := by
  cases hbuf : s.aggrBuf with
  | none =>
    rw [AggrState.pending, hbuf, (h.noBuf hbuf).1]
    rfl
  | some m =>
    obtain ⟨-, hholds⟩ := h.buf m hbuf
    have hfew := hholds.few
    rw [AggrState.pending, hbuf]
    simp only
    rw [hholds.aggr.laidOut.walk (by rw [maxHciAggrSize, maxFrameSize]; omega), Option.getD_some]

theorem ofList_slice {m : Mem} {len i : ℕ} (h : i < len) : ofList (slice m 0 len) i = m i := by
  have hi : i < (slice m 0 len).length := by rwa [length_slice]
  rw [ofList, List.getD_eq_getElem?_getD, List.getElem?_eq_getElem hi]
  simp [slice]

/-- The frames of an aggregate are found in the bytes passed to the driver. -/
theorem contained_sent {m : Mem} {frames : List Frame} (h : Aggregate m frames) :
    contained (.sent (slice m 0 (total frames + 4))) = frames.map Frame.aligned := by
  have hlaid : LaidOut (ofList (slice m 0 (total frames + 4))) 0 frames :=
    h.laidOut.congr fun i hi => ofList_slice (by omega)
  have hnum : frames.length ≤ total frames := length_le_total frames
  rw [contained, length_slice, hlaid.walk (by omega), Option.getD_some]

/-! ## The steps -/

/-- `frames` are waiting before the step and `frames'` after it; what the step passes on are the
first of them, and `more` has joined them. -/
def Moves (frames : List Frame) (more : List (List UInt8)) (out : List AggrOut)
    (frames' : List Frame) : Prop :=
  out.flatMap contained ++ frames'.map Frame.aligned = frames.map Frame.aligned ++ more

/-- With room, the frame joins those in the buffer, which are sent when they are five. -/
theorem Holds.aggregateFrm {s : AggrState} {m : Mem} {frames : List Frame} (h : Holds s m frames)
    {f : Frame} (hroom : s.aggrLen + f.len < maxHciAggrSize) :
    ∃ m' frames', (aggregateFrm s m f).1.aggrBuf = some m' ∧
      (aggregateFrm s m f).1.hciAggrTx = s.hciAggrTx ∧ Holds (aggregateFrm s m f).1 m' frames' ∧
      Moves frames [f.aligned] (aggregateFrm s m f).2 frames' := by
  have hfew := h.few
  have hfits := h.fits
  have htotal : total (frames ++ [f]) = total frames + f.jmpLen := by simp
  have hlen : total (frames ++ [f]) < maxHciAggrSize + 16 := by
    have hsize : f.alignSize ≤ f.len + 3 := by
      rw [Frame.alignSize]
      omega
    rw [htotal, Frame.jmpLen_eq]
    rw [h.len] at hroom
    split at hroom
    · rename_i hnil
      rw [hnil, total_nil]
      omega
    · omega
  obtain ⟨haggr, hret⟩ := h.aggr.append
    (lt_trans hlen (by decide)) (show frames.length + 1 < 256 by omega)
  have hne : frames ++ [f] ≠ [] := by simp
  simp only [Hci.aggregateFrm, if_pos hroom, hret]
  split
  · refine ⟨_, [], rfl, rfl, holds_clear rfl rfl _, ?_⟩
    rw [Moves, List.flatMap_singleton, contained_sent haggr, List.map_append, List.map_nil,
      List.append_nil]
    rfl
  · rename_i hmore
    refine ⟨_, frames ++ [f], rfl, rfl, ⟨haggr, ?_, ?_, ?_, hlen⟩, ?_⟩
    · rw [List.length_append, List.length_singleton]
    · rw [if_neg hne]
    · rw [List.length_append, List.length_singleton]
      omega
    · rw [Moves, List.map_append]
      rfl

/-- Without room, the buffer stays as it is. -/
theorem Holds.lose {s : AggrState} {m : Mem} {frames : List Frame} (h : Holds s m frames)
    {f : Frame} (hroom : ¬ s.aggrLen + f.len < maxHciAggrSize) :
    (Hci.aggregateFrm s m f).1.aggrBuf = some m ∧
      (Hci.aggregateFrm s m f).1.hciAggrTx = s.hciAggrTx ∧
      Holds (Hci.aggregateFrm s m f).1 m frames ∧ (Hci.aggregateFrm s m f).2 = [] := by
  have hn : ¬ 4 < s.aggrN := by
    have hfew := h.few
    rw [h.count]
    omega
  simp only [Hci.aggregateFrm, if_neg hroom, if_neg hn, true_and, and_true]
  exact ⟨h.aggr, h.count, h.len, h.few, h.fits⟩

theorem holding_of_some {s : AggrState} {m : Mem} {frames : List Frame}
    (hbuf : s.aggrBuf = some m) (hon : s.hciAggrTx = true) (h : Holds s m frames) :
    Holding s frames := by
  refine ⟨fun m' hm' => ?_, fun hnone => ?_⟩
  · rw [hbuf, Option.some_inj] at hm'
    exact hm' ▸ ⟨hon, h⟩
  · rw [hbuf] at hnone
    exact absurd hnone (Option.some_ne_none m)

/-- A frame is taken, with the result `r`: it is passed on or joins those in the buffer, if there is
room; otherwise nothing happens. -/
def Takes (s : AggrState) (frames : List Frame) (f : Frame) (alloc : Option Mem)
    (r : AggrState × List AggrOut) : Prop :=
  ∃ frames', Holding r.1 frames' ∧
    ((HasRoom s (.frame f alloc) ∧ ∃ found, Padded f found ∧ Moves frames [found] r.2 frames') ∨
      (¬ HasRoom s (.frame f alloc) ∧ Moves frames [] r.2 frames'))

theorem Holds.takes {s : AggrState} {m : Mem} {frames : List Frame} (h : Holds s m frames)
    {f : Frame} {alloc : Option Mem} (hon : s.hciAggrTx = true)
    (hbuf : s.aggrBuf.isSome ∨ alloc.isSome) :
    Takes s frames f alloc (Hci.aggregateFrm s m f) := by
  by_cases hroom : s.aggrLen + f.len < maxHciAggrSize
  · obtain ⟨m', frames', hbuf', hon', hholds, hmoves⟩ := h.aggregateFrm hroom
    exact ⟨frames', holding_of_some hbuf' (hon'.trans hon) hholds,
      .inl ⟨fun _ _ => hroom, f.aligned, aligned_eq_data_append f, hmoves⟩⟩
  · obtain ⟨hbuf', hon', hholds, hout⟩ := h.lose hroom
    refine ⟨frames, holding_of_some hbuf' (hon'.trans hon) hholds,
      .inr ⟨fun hall => hroom (hall hon hbuf), ?_⟩⟩
    rw [Moves, hout, List.append_nil]
    rfl

/-- A frame passed to the driver on its own, when nothing waits. -/
theorem takes_direct {s s' : AggrState} {f : Frame} {alloc : Option Mem} (h : Holding s' [])
    (hroom : HasRoom s (.frame f alloc)) : Takes s [] f alloc (s', [.direct f.data]) :=
  ⟨[], h, .inl ⟨hroom, f.data, ⟨[], (List.append_nil _).symm, Nat.zero_le 3⟩, rfl⟩⟩

/-- What becomes of a frame is decided by the test for room. -/
theorem Holding.takes {s : AggrState} {frames : List Frame} (h : Holding s frames) (f : Frame)
    (alloc : Option Mem) : Takes s frames f alloc (sendFrm s f alloc) := by
  unfold sendFrm
  split
  · rename_i hon
    split
    · rename_i m hbuf
      exact (h.buf m hbuf).2.takes hon (.inl (by rw [hbuf]; rfl))
    · rename_i mem hbuf
      obtain ⟨rfl, hn, hlen⟩ := h.noBuf hbuf
      exact (holds_clear hn hlen mem).takes hon (.inr rfl)
    · rename_i hbuf
      obtain ⟨rfl, hn, hlen⟩ := h.noBuf hbuf
      refine takes_direct ⟨fun m hm => ?_, h.noBuf⟩ fun _ hsome => ?_
      · exact absurd (hm.symm.trans hbuf) (Option.some_ne_none m)
      · simp [hbuf] at hsome
  · rename_i hoff
    have hbuf : s.aggrBuf = none := by
      cases hbuf : s.aggrBuf with
      | none => rfl
      | some m => exact absurd (h.buf m hbuf).1 hoff
    obtain ⟨rfl, -, -⟩ := h.noBuf hbuf
    exact takes_direct h fun hon => absurd hon hoff

/-- At the end of an idle pass all that waits is passed on. -/
theorem Holding.endIdlePass {s : AggrState} {frames : List Frame} (h : Holding s frames) :
    ∃ frames', Holding (endIdlePass s).1 frames' ∧ Moves frames [] (endIdlePass s).2 frames' := by
  have hidle : Moves frames [] [] frames := (List.append_nil _).symm
  unfold Hci.endIdlePass
  split
  · rename_i m hbuf
    obtain ⟨hon, hholds⟩ := h.buf m hbuf
    split
    · rename_i hn
      have hne : frames ≠ [] := by
        rintro rfl
        exact hn hholds.count
      have hlen : s.aggrLen = total frames + 4 := by rw [hholds.len, if_neg hne]
      refine ⟨[], holding_of_some rfl hon (holds_clear rfl rfl m), ?_⟩
      rw [Moves, List.flatMap_singleton, hlen, contained_sent hholds.aggr]
      rfl
    · exact ⟨frames, h, hidle⟩
  · exact ⟨frames, h, hidle⟩

/-! ## The run -/

theorem takenFrames_append (tr tr' : List AggrOut) :
    takenFrames (tr ++ tr') = takenFrames tr ++ takenFrames tr' := by
  simp [takenFrames]

theorem takenFrames_aggregateFrm (s : AggrState) (m : Mem) (f : Frame) :
    takenFrames (aggregateFrm s m f).2 = [] := by
  simp only [aggregateFrm]
  split <;> split <;> rfl

/-- The task takes the frame it is given, and no other. -/
theorem takenFrames_sendFrm (s : AggrState) (f : Frame) (alloc : Option Mem) :
    takenFrames (sendFrm s f alloc).2 = [] := by
  unfold sendFrm
  split
  · split
    · exact takenFrames_aggregateFrm s _ f
    · exact takenFrames_aggregateFrm s _ f
    · rfl
  · rfl

theorem takenFrames_endIdlePass (s : AggrState) : takenFrames (endIdlePass s).2 = [] := by
  unfold endIdlePass
  split
  · split <;> rfl
  · rfl

/-- What is passed on and what waits, from one state to the next. -/
theorem Moves.found {s s' : AggrState} {frames frames' : List Frame} {more : List (List UInt8)}
    {tr out : List AggrOut} (h : Holding s frames) (h' : Holding s' frames')
    (hmoves : Moves frames more out frames') :
    (tr ++ out).flatMap contained ++ s'.pending = (tr.flatMap contained ++ s.pending) ++ more := by
  rw [h.pending, h'.pending, List.flatMap_append, List.append_assoc, hmoves, List.append_assoc]

/-- Nothing was lost so far; then nothing is lost by the step exactly when there is room. -/
theorem nothingLost_aggrStep_iff {s : AggrState} {frames : List Frame} {tr : List AggrOut}
    (h : Holding s frames) (hlost : NothingLost s tr) (inp : AggrIn) :
    NothingLost (aggrStep s inp).1 (tr ++ (aggrStep s inp).2) ↔ HasRoom s inp := by
  cases inp with
  | idlePass =>
    obtain ⟨frames', h', hmoves⟩ := h.endIdlePass
    rw [NothingLost, aggrStep, takenFrames_append, takenFrames_endIdlePass, hmoves.found h h',
      List.append_nil, List.append_nil]
    exact iff_of_true hlost trivial
  | frame f alloc =>
    obtain ⟨frames', h', hcases⟩ := h.takes f alloc
    have htaken : takenFrames (tr ++ (aggrStep s (.frame f alloc)).2) = takenFrames tr ++ [f] := by
      rw [takenFrames_append]
      exact congrArg (takenFrames tr ++ f :: ·) (takenFrames_sendFrm s f alloc)
    have hfound : ∀ {more}, Moves frames more (sendFrm s f alloc).2 frames' →
        (tr ++ (aggrStep s (.frame f alloc)).2).flatMap contained
            ++ (aggrStep s (.frame f alloc)).1.pending
          = (tr.flatMap contained ++ s.pending) ++ more := fun hm => Moves.found h h' hm
    rw [NothingLost, htaken]
    rcases hcases with ⟨hroom, found, hpadded, hmoves⟩ | ⟨hroom, hmoves⟩
    · refine iff_of_true ?_ hroom
      rw [hfound hmoves]
      exact List.rel_append hlost (.cons hpadded .nil)
    · refine iff_of_false (fun hall => ?_) hroom
      -- the frame is missing, whatever the others are
      rw [hfound hmoves, List.append_nil] at hall
      have hlen := hall.length_eq
      rw [List.length_append, hlost.length_eq] at hlen
      simp at hlen

theorem Holding.step {s : AggrState} {frames : List Frame} (h : Holding s frames) (inp : AggrIn) :
    ∃ frames', Holding (aggrStep s inp).1 frames' := by
  cases inp with
  | idlePass => exact h.endIdlePass.imp fun _ h' => h'.1
  | frame f alloc => exact (h.takes f alloc).imp fun _ h' => h'.1

/-- Nothing is lost in a run exactly when the test for room never fails. -/
theorem aggrRun_nothingLost_iff (is : List AggrIn) :
    (∀ js, js <+: is → NothingLost (aggrRun js).1 (aggrRun js).2) ↔
      Machine.Meets aggrStep HasRoom aggrInit is :=
  Machine.forall_prefix_iff_meets (I := fun s _ => ∃ frames, Holding s frames) (P := NothingLost)
    ⟨[], holding_aggrInit⟩ (fun _ _ inp ⟨_, h⟩ => h.step inp) .nil
    (fun _ _ inp ⟨_, h⟩ hlost => nothingLost_aggrStep_iff h hlost inp) is

/-- A frame of `MAX_FRAME_SIZE` zero bytes. -/
def fullFrame : Frame := ⟨zeroBuf, maxFrameSize, by decide⟩

/-- Four of them, one after another. -/
def fourFrames : List AggrIn := List.replicate 4 (.frame fullFrame (some zeroBuf))

/-- The first three take 7324 bytes, so the test for room fails for the fourth: it is taken and
freed, and is in no aggregate. -/
theorem fourFrames_lost : ¬ NothingLost (aggrRun fourFrames).1 (aggrRun fourFrames).2 := by
  intro h
  have hlen : (takenFrames (aggrRun fourFrames).2).length
      ≠ ((aggrRun fourFrames).2.flatMap contained ++ (aggrRun fourFrames).1.pending).length := by
    decide +kernel
  exact hlen h.length_eq

end Fullmac.Hci
