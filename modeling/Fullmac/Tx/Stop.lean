import Fullmac.Tx.Drain

/-!
# What a stop discards

`TXRXTask_SetOpMode(MT_STOP)` marks no frame: it copies `tx_data_frm_num` into
`tx_flush_data_frm_num`, and the task drops as many frames as that counter says. Which frames these
are is decided by the order in which the task comes to them. `outlook` writes down, for a state, the
frames the task has not passed on yet together with what it is going to do with each of them; a step
takes the first entry off or appends an accepted frame as one to be sent (`outlook_step`), and a
stop turns all the entries not yet counted into frames to be dropped. All callers in `host/core` use
priority 0, so that one queue is in use, and `g_host_cfg.hci_aggr_tx` is 0.
-/

namespace Fullmac.Tx

open Queues

/-! ## Frames sent and dropped -/

/-- What the task does with a frame it has counted. -/
inductive Fate
  | sent | dropped
deriving DecidableEq, Repr

/-- What can be seen of a frame: it is accepted, and later passed to `ssv6xxx_drv_send` or not. -/
inductive SendOut
  | accepted (f : TxFrame)
  | passed (f : TxFrame) (fate : Fate)
deriving DecidableEq, Repr

/-- `if (flush_frm == false) ssv6xxx_drv_send(...)`. -/
def fateOf (flushFrm : Bool) : Fate := if flushFrm = false then .sent else .dropped

/-- The counted frame in the hands of the task, with what happens to it next. -/
def TxPc.inHand : TxPc → List (TxFrame × Fate)
  | .counted _ _ tFrame flushFrm => [(tFrame, fateOf flushFrm)]
  | _ => []

/-- `txStep`, seen from the driver: the step in which the task frees a counted frame is the one in
which it has passed the frame to `ssv6xxx_drv_send`, or has not. -/
def sendStep (cfg : TxCfg) (s : TxState) (inp : TxIn) : TxState × List SendOut :=
  ((txStep cfg s inp).1,
    match inp with
    | .task _ => s.task.inHand.map fun p => .passed p.1 p.2
    | _ => (accepted (txStep cfg s inp).2).map .accepted)

/-- A run from `TXRXTask_Init`. -/
abbrev sendRun (cfg : TxCfg) (is : List TxIn) : TxState × List SendOut :=
  Machine.run (sendStep cfg) (txInit cfg) is

/-- The frames accepted in a run, in order. -/
def acceptedFrames (tr : List SendOut) : List TxFrame :=
  tr.filterMap fun
    | .accepted f => some f
    | .passed _ _ => none

/-- The frames the task is done with, in order, each sent or dropped. -/
def fates (tr : List SendOut) : List (TxFrame × Fate) :=
  tr.filterMap fun
    | .accepted _ => none
    | .passed f fate => some (f, fate)

@[simp] theorem acceptedFrames_append (tr tr' : List SendOut) :
    acceptedFrames (tr ++ tr') = acceptedFrames tr ++ acceptedFrames tr' := by
  simp [acceptedFrames]

@[simp] theorem fates_append (tr tr' : List SendOut) :
    fates (tr ++ tr') = fates tr ++ fates tr' := by
  simp [fates]

@[simp] theorem acceptedFrames_map_accepted (l : List TxFrame) :
    acceptedFrames (l.map .accepted) = l := by
  simp [acceptedFrames, List.filterMap_map]

@[simp] theorem fates_map_accepted (l : List TxFrame) : fates (l.map .accepted) = [] := by
  simp [fates, List.filterMap_map]

@[simp] theorem acceptedFrames_map_passed (l : List (TxFrame × Fate)) :
    acceptedFrames (l.map fun p => .passed p.1 p.2) = [] := by
  simp [acceptedFrames, List.filterMap_map]

@[simp] theorem fates_map_passed (l : List (TxFrame × Fate)) :
    fates (l.map fun p => .passed p.1 p.2) = l := by
  simp [fates, List.filterMap_map]

/-- The two views of a run go through the same states. -/
theorem run_sendStep_fst (cfg : TxCfg) (s : TxState) (is : List TxIn) :
    (Machine.run (sendStep cfg) s is).1 = (Machine.run (txStep cfg) s is).1 := by
  induction is generalizing s with
  | nil => rfl
  | cons inp is ih => exact ih (txStep cfg s inp).1

/-! ## One queue -/

/-- The input names no priority but 0. -/
def AtPriorityZero : TxIn → Prop
  | .call _ priority => priority = pri0
  | .enqueue _ priority => priority = pri0
  | _ => True

instance : DecidablePred AtPriorityZero
  | .call _ priority => inferInstanceAs (Decidable (priority = pri0))
  | .enqueue _ priority => inferInstanceAs (Decidable (priority = pri0))
  | .signal | .setOpMode _ | .task _ => inferInstanceAs (Decidable True)

/-- Only queue 0 is in use, and the books agree. -/
structure OneQueue (cfg : TxCfg) (s : TxState) : Prop where
  books : ∃ tr, Accounted cfg s tr
  others : ∀ r ≠ 0, s.txHwq r = []

theorem oneQueue_txInit (cfg : TxCfg) : OneQueue cfg (txInit cfg) :=
  ⟨⟨[], accounted_txInit cfg⟩, fun _ _ => rfl⟩

/-- The task takes frames out of queues only. -/
theorem txHwq_taskStep {s s' : TxState} {out : List TxOut} {timeout : Bool}
    (hstep : TaskStep s timeout s' out) :
    s'.txHwq = s.txHwq ∨ ∃ r e rest, s.task = .scan (r + 1) ∧ s.txHwq r = e :: rest ∧
      s'.txHwq = Function.update s.txHwq r rest ∧ s'.task = .popped (r + 1) e := by
  cases hstep with
  | pop htask hq => exact .inr ⟨_, _, _, htask, hq, rfl, rfl⟩
  | waited _ | waitedMore _ =>
    refine .inl ?_
    unfold semWait
    split
    · rfl
    · split <;> rfl
  | _ => exact .inl rfl

theorem txHwq_setOpMode (s : TxState) (mode : ModeType) : (setOpMode s mode).txHwq = s.txHwq := by
  unfold setOpMode
  split
  · rfl
  · split <;> rfl
  · rfl

theorem OneQueue.step {cfg : TxCfg} {s : TxState} (h : OneQueue cfg s) {inp : TxIn}
    (hpri : AtPriorityZero inp) : OneQueue cfg (txStep cfg s inp).1 := by
  obtain ⟨tr, hbooks⟩ := h.books
  refine ⟨⟨_, hbooks.step inp⟩, fun r hr => ?_⟩
  cases inp with
  | call frame priority =>
    simp only [txStep]
    split <;> exact h.others r hr
  | enqueue frame priority =>
    obtain rfl : priority = pri0 := hpri
    simp only [txStep]
    split
    · unfold enqueueFrm
      split
      · exact h.others r hr
      · simpa only [Function.update_of_ne (show r ≠ ((pri0 : Fin priQNum) : ℕ) from hr)]
          using h.others r hr
    · exact h.others r hr
  | signal => simpa only [txStep, signalFrm_txHwq] using h.others r hr
  | setOpMode mode => simpa only [txStep, txHwq_setOpMode] using h.others r hr
  | task timeout =>
    rcases txHwq_taskStep (taskStep_txTask s timeout) with hsame | ⟨q, e, rest, -, hq, hpop, -⟩
    · simpa only [txStep, hsame] using h.others r hr
    · have hq0 : q = 0 := by
        by_contra hne
        rw [h.others q hne] at hq
        exact List.cons_ne_nil e rest hq.symm
      subst hq0
      simpa only [txStep, hpop, Function.update_of_ne hr] using h.others r hr

/-- The frame the task has taken from its queue and not counted yet. -/
def TxPc.uncountedFrames : TxPc → List TxFrame
  | .popped _ outFrm => outFrm.frame.toList
  | _ => []

/-- The frames accepted and not counted out, oldest first. -/
def waiting (s : TxState) : List TxFrame :=
  s.task.uncountedFrames ++ (s.txHwq 0).filterMap FrmL.frame

/-- `tx_data_frm_num` is the number of frames not counted out. -/
theorem OneQueue.length_waiting {cfg : TxCfg} {s : TxState} (h : OneQueue cfg s) :
    (waiting s).length = s.txDataFrmNum := by
  obtain ⟨tr, hbooks⟩ := h.books
  have hnum : s.queuedNum = (s.txHwq 0).length := by
    rw [TxState.queuedNum, total, Finset.sum_eq_single_of_mem 0 (by simp [priQNum])]
    intro r _ hr
    rw [h.others r hr, List.length_nil]
  have hqueue : ((s.txHwq 0).filterMap FrmL.frame).length = (s.txHwq 0).length :=
    List.filterMap_length_eq_length.mpr (hbooks.framed 0)
  have htask : s.task.uncountedFrames.length = s.task.uncounted := by
    cases hpc : s.task with
    | popped left e =>
      obtain ⟨f, hf⟩ := Option.isSome_iff_exists.mp (hbooks.held left e hpc)
      simp [TxPc.uncountedFrames, TxPc.uncounted, hf]
    | _ => rfl
  rw [waiting, List.length_append, hqueue, htask, hbooks.data, hnum]
  omega

theorem OneQueue.flush_le {cfg : TxCfg} {s : TxState} (h : OneQueue cfg s) :
    s.txFlushDataFrmNum ≤ (waiting s).length := by
  obtain ⟨tr, hbooks⟩ := h.books
  rw [h.length_waiting]
  exact hbooks.flush

/-! ## What the task is going to do -/

/-- The first `flush` frames are dropped and the others are sent. -/
def verdicts (flush : ℕ) (frames : List TxFrame) : List (TxFrame × Fate) :=
  (frames.take flush).map (·, .dropped) ++ (frames.drop flush).map (·, .sent)

theorem verdicts_cons (flush : ℕ) (f : TxFrame) (frames : List TxFrame) :
    verdicts flush (f :: frames)
      = (f, fateOf (if flush = 0 then false else true)) :: verdicts (flush - 1) frames := by
  cases flush <;> simp [verdicts, fateOf]

theorem verdicts_concat {flush : ℕ} {frames : List TxFrame} (h : flush ≤ frames.length)
    (f : TxFrame) : verdicts flush (frames ++ [f]) = verdicts flush frames ++ [(f, .sent)] := by
  simp [verdicts, List.take_append_of_le_length h, List.drop_append_of_le_length h]

theorem verdicts_length (frames : List TxFrame) :
    verdicts frames.length frames = frames.map (·, .dropped) := by
  simp [verdicts]

theorem map_fst_verdicts (flush : ℕ) (frames : List TxFrame) :
    (verdicts flush frames).map Prod.fst = frames := by
  simp [verdicts, Function.comp_def, List.take_append_drop]

/-- The frames the task has not passed on yet, oldest first, each with its fate as the counters
stand. -/
def outlook (s : TxState) : List (TxFrame × Fate) :=
  s.task.inHand ++ verdicts s.txFlushDataFrmNum (waiting s)

/-- A step that takes no new frame and counts none only lays down the frame in the hands of the
task. -/
theorem outlook_of_same {s s' : TxState} (hin : s'.task.inHand = [])
    (huncounted : s'.task.uncountedFrames = s.task.uncountedFrames) (hq : s'.txHwq = s.txHwq)
    (hflush : s'.txFlushDataFrmNum = s.txFlushDataFrmNum) :
    s.task.inHand ++ outlook s' = outlook s := by
  rw [outlook, outlook, waiting, waiting, hin, huncounted, hq, hflush, List.nil_append]

theorem outlook_semWait {s : TxState} (timeout : Bool) {left : ℕ}
    (hin : s.task.inHand = []) (huncounted : s.task.uncountedFrames = []) :
    s.task.inHand ++ outlook (semWait s timeout (.scan left)) = outlook s := by
  unfold semWait
  split
  · exact outlook_of_same rfl huncounted.symm rfl rfl
  split
  · exact outlook_of_same rfl huncounted.symm rfl rfl
  · exact outlook_of_same hin rfl rfl rfl

theorem outlook_pop {s : TxState} {r : ℕ} {e : FrmL} {rest : List FrmL}
    (hothers : ∀ r ≠ 0, s.txHwq r = []) (htask : s.task = .scan (r + 1))
    (hq : s.txHwq r = e :: rest) :
    outlook { s with txHwq := Function.update s.txHwq r rest, task := .popped (r + 1) e }
      = outlook s := by
  have hr : r = 0 := by
    by_contra hne
    rw [hothers r hne] at hq
    exact List.cons_ne_nil e rest hq.symm
  subst hr
  have hfront : (e :: rest).filterMap FrmL.frame
      = e.frame.toList ++ rest.filterMap FrmL.frame := by
    cases hf : e.frame <;> simp [hf]
  simp only [outlook, waiting, htask, hq, hfront, TxPc.inHand, TxPc.uncountedFrames,
    Function.update_self, List.nil_append]

/-- Counting is what the verdict on the first frame says. -/
theorem outlook_countFrm {s : TxState} {left : ℕ} {e : FrmL} {tFrame : TxFrame}
    (htask : s.task = .popped left e) (hframe : e.frame = some tFrame) :
    outlook (countFrm s left e.node tFrame) = outlook s := by
  have hflush : (if (if s.txFlushDataFrmNum = 0 then false else true) = true
      then decU32 s.txFlushDataFrmNum else s.txFlushDataFrmNum) = s.txFlushDataFrmNum - 1 := by
    by_cases hzero : s.txFlushDataFrmNum = 0
    · simp [hzero]
    · simp [hzero, decU32_of_pos (Nat.pos_of_ne_zero hzero)]
  simp only [outlook, waiting, htask, hframe, countFrm, hflush, TxPc.inHand, TxPc.uncountedFrames,
    Option.toList_some, List.nil_append, List.singleton_append, verdicts_cons]

/-- A step of the task passes on the frame in its hands, and changes nothing else. -/
theorem outlook_taskStep {s s' : TxState} {out : List TxOut} {timeout : Bool}
    (hothers : ∀ r ≠ 0, s.txHwq r = []) (hstep : TaskStep s timeout s' out) :
    s.task.inHand ++ outlook s' = outlook s := by
  cases hstep with
  | leave htask _ | enter htask _ | endPass htask | next htask _ | free htask =>
    exact outlook_of_same rfl (by rw [htask]; rfl) rfl rfl
  | skip htask hframe =>
    exact outlook_of_same rfl (by rw [htask, TxPc.uncountedFrames, hframe]; rfl) rfl rfl
  | waited htask | waitedMore htask =>
    exact outlook_semWait timeout (by rw [htask]; rfl) (by rw [htask]; rfl)
  | pop htask hq =>
    rw [outlook_pop hothers htask hq, htask]
    rfl
  | count htask hframe =>
    rw [outlook_countFrm htask hframe, htask]
    rfl
  | giveBack htask =>
    refine outlook_of_same ?_ ?_ rfl rfl
    · dsimp only
      split <;> rfl
    · rw [htask]
      dsimp only
      split <;> rfl
  | idle htask => exact outlook_of_same (by rw [htask]; rfl) rfl rfl rfl

/-- An accepted frame is going to be sent. -/
theorem outlook_enqueueFrm {cfg : TxCfg} {s : TxState} (h : OneQueue cfg s) (frame : TxFrame) :
    outlook (enqueueFrm s frame pri0).1
      = outlook s ++ if (enqueueFrm s frame pri0).2 then [(frame, .sent)] else [] := by
  have hle := h.flush_le
  unfold enqueueFrm
  split
  · simp
  · rename_i dataFrm rest hfree
    have hwaiting : s.task.uncountedFrames
        ++ (s.txHwq 0 ++ [(⟨dataFrm.node, some frame⟩ : FrmL)]).filterMap FrmL.frame
        = waiting s ++ [frame] := by simp [waiting]
    simp only [outlook, if_true]
    rw [List.append_assoc, ← verdicts_concat hle, ← hwaiting]
    rfl

/-- What a step passes on comes off the front of the outlook, what it accepts goes to its end, to be
sent. -/
theorem outlook_step {cfg : TxCfg} {s : TxState} (h : OneQueue cfg s) {inp : TxIn}
    (hpri : AtPriorityZero inp) (hmode : ∀ mode, inp ≠ .setOpMode mode) :
    fates (sendStep cfg s inp).2 ++ outlook (sendStep cfg s inp).1
      = outlook s ++ (acceptedFrames (sendStep cfg s inp).2).map (·, .sent) := by
  cases inp with
  | call frame priority =>
    simp only [sendStep, txStep, fates_map_accepted, acceptedFrames_map_accepted, List.nil_append]
    split <;> exact (List.append_nil _).symm
  | enqueue frame priority =>
    obtain rfl : priority = pri0 := hpri
    simp only [sendStep, txStep, fates_map_accepted, acceptedFrames_map_accepted, List.nil_append]
    split
    · have hq : OneQueue cfg { s with callers := s.callers.erase (frame, pri0) } := by
        obtain ⟨tr, hbooks⟩ := h.books
        exact ⟨⟨tr, hbooks.callers _⟩, h.others⟩
      have hsame : outlook { s with callers := s.callers.erase (frame, pri0) } = outlook s := rfl
      rw [outlook_enqueueFrm hq frame, hsame]
      split <;> rfl
    · exact (List.append_nil _).symm
  | signal =>
    have hsame : (signalFrm cfg s).txFlushDataFrmNum = s.txFlushDataFrmNum := by
      unfold signalFrm
      split <;> rfl
    simp only [sendStep, txStep, fates_map_accepted, acceptedFrames_map_accepted, List.nil_append,
      outlook, waiting, signalFrm_task, signalFrm_txHwq, hsame]
    exact (List.append_nil _).symm
  | setOpMode mode => exact absurd rfl (hmode mode)
  | task timeout =>
    simpa [sendStep, txStep] using outlook_taskStep h.others (taskStep_txTask s timeout)

/-- No step changes the order of the frames, not even a change of the mode. -/
theorem map_fst_outlook_step {cfg : TxCfg} {s : TxState} (h : OneQueue cfg s) {inp : TxIn}
    (hpri : AtPriorityZero inp) :
    (fates (sendStep cfg s inp).2 ++ outlook (sendStep cfg s inp).1).map Prod.fst
      = (outlook s).map Prod.fst ++ acceptedFrames (sendStep cfg s inp).2 := by
  by_cases hmode : ∀ mode, inp ≠ .setOpMode mode
  · rw [outlook_step h hpri hmode]
    simp [Function.comp_def]
  · push Not at hmode
    obtain ⟨mode, rfl⟩ := hmode
    simp only [sendStep, txStep, fates_map_accepted, acceptedFrames_map_accepted, List.nil_append,
      outlook, waiting, setOpMode_task, txHwq_setOpMode, List.map_append, map_fst_verdicts]
    exact (List.append_nil _).symm

/-! ## The run -/

theorem OneQueue.run {cfg : TxCfg} {s : TxState} (h : OneQueue cfg s) {is : List TxIn}
    (hpri : ∀ inp ∈ is, AtPriorityZero inp) :
    OneQueue cfg (Machine.run (sendStep cfg) s is).1 := by
  refine Machine.run_induction_of_meets (C := fun _ inp => AtPriorityZero inp)
    (P := fun s _ _ => OneQueue cfg s) h ?_ is (Machine.meets_of_forall hpri)
  intro t _ _ inp hinp ht
  exact ht.step hinp

/-- Between two changes of the mode the frames go as the outlook says, and those accepted meanwhile
are sent after them. -/
theorem outlook_run {cfg : TxCfg} {s : TxState} (h : OneQueue cfg s) {is : List TxIn}
    (hpri : ∀ inp ∈ is, AtPriorityZero inp) (hmode : ∀ inp ∈ is, ∀ mode, inp ≠ .setOpMode mode) :
    fates (Machine.run (sendStep cfg) s is).2 ++ outlook (Machine.run (sendStep cfg) s is).1
      = outlook s ++ (acceptedFrames (Machine.run (sendStep cfg) s is).2).map (·, .sent) := by
  refine (Machine.run_induction_of_meets
    (C := fun _ inp => AtPriorityZero inp ∧ ∀ mode, inp ≠ .setOpMode mode)
    (P := fun t _ tr => OneQueue cfg t ∧
      fates tr ++ outlook t = outlook s ++ (acceptedFrames tr).map (·, .sent))
    ⟨h, (List.append_nil _).symm⟩ ?_ is
    (Machine.meets_of_forall fun inp hinp => ⟨hpri inp hinp, hmode inp hinp⟩)).2
  rintro t _ tr inp ⟨hinp, hnot⟩ ⟨ht, heq⟩
  refine ⟨ht.step hinp, ?_⟩
  rw [fates_append, acceptedFrames_append, List.map_append, List.append_assoc,
    outlook_step ht hinp hnot, ← List.append_assoc, heq, List.append_assoc]

/-- Frames leave in the order in which they came. -/
theorem sendRun_fifo {cfg : TxCfg} {is : List TxIn} (hpri : ∀ inp ∈ is, AtPriorityZero inp) :
    acceptedFrames (sendRun cfg is).2
      = (fates (sendRun cfg is).2 ++ outlook (sendRun cfg is).1).map Prod.fst := by
  refine (Machine.run_induction_of_meets (C := fun _ inp => AtPriorityZero inp)
    (P := fun t _ tr => OneQueue cfg t ∧
      acceptedFrames tr = (fates tr ++ outlook t).map Prod.fst)
    ⟨oneQueue_txInit cfg, rfl⟩ ?_ is (Machine.meets_of_forall hpri)).2
  rintro t _ tr inp hinp ⟨ht, heq⟩
  refine ⟨ht.step hinp, ?_⟩
  have hstep := map_fst_outlook_step ht hinp
  rw [acceptedFrames_append, fates_append, heq, List.append_assoc, List.map_append,
    List.append_assoc, ← hstep, ← List.map_append]

theorem setOpMode_stop {s : TxState} (hmode : s.currMode = .running) :
    setOpMode s .stop = { s with txFlushDataFrmNum := s.txDataFrmNum, currMode := .stop } := by
  simp only [setOpMode, hmode, if_true]

/-- A stop in `MT_RUNNING` condemns every frame not counted out. -/
theorem outlook_setOpMode_stop {cfg : TxCfg} {s : TxState} (h : OneQueue cfg s)
    (hmode : s.currMode = .running) :
    outlook (setOpMode s .stop) = s.task.inHand ++ (waiting s).map (·, .dropped) := by
  rw [setOpMode_stop hmode, ← verdicts_length, h.length_waiting]
  rfl

theorem currMode_taskStep {s s' : TxState} {out : List TxOut} {timeout : Bool}
    (hstep : TaskStep s timeout s' out) : s'.currMode = s.currMode := by
  cases hstep with
  | waited _ | waitedMore _ =>
    unfold semWait
    split
    · rfl
    · split <;> rfl
  | _ => rfl

/-- The mode is changed by `TXRXTask_SetOpMode` only. -/
theorem currMode_step {cfg : TxCfg} {s : TxState} {inp : TxIn}
    (hmode : ∀ mode, inp ≠ .setOpMode mode) : (sendStep cfg s inp).1.currMode = s.currMode := by
  cases inp with
  | call frame priority =>
    simp only [sendStep, txStep]
    split <;> rfl
  | enqueue frame priority =>
    simp only [sendStep, txStep]
    split
    · rw [enqueueFrm_currMode]
    · rfl
  | signal => exact signalFrm_currMode cfg s
  | setOpMode mode => exact absurd rfl (hmode mode)
  | task timeout => exact currMode_taskStep (taskStep_txTask s timeout)

theorem currMode_run {cfg : TxCfg} {s : TxState} {is : List TxIn}
    (hmode : ∀ inp ∈ is, ∀ mode, inp ≠ .setOpMode mode) :
    (Machine.run (sendStep cfg) s is).1.currMode = s.currMode := by
  induction is generalizing s with
  | nil => rfl
  | cons inp is ih =>
    rw [Machine.run_cons, ih fun i hi => hmode i (List.mem_cons_of_mem _ hi),
      currMode_step (hmode inp List.mem_cons_self)]

/-- With nothing under way there is nothing left to pass on. -/
theorem outlook_of_drained {s : TxState} (h : Drained s) : outlook s = [] := by
  obtain ⟨hqueued, hframes⟩ := add_eq_zero.mp h
  have hqueue : (s.txHwq 0).filterMap FrmL.frame = [] := by
    rw [TxState.queued, total] at hqueued
    have hzero := Finset.sum_eq_zero_iff.mp hqueued 0 (Finset.mem_range.mpr (Nat.zero_lt_succ 4))
    exact Multiset.coe_eq_zero _ |>.mp hzero
  have htask : s.task.inHand = [] ∧ s.task.uncountedFrames = [] := by
    revert hframes
    cases s.task <;> simp [TxPc.frames, TxPc.inHand, TxPc.uncountedFrames]
  simp [outlook, waiting, verdicts, hqueue, htask]

theorem mem_rounds {n : ℕ} {inp : TxIn} (h : inp ∈ rounds n) :
    inp = .signal ∨ inp = .task false := by
  induction n with
  | zero => simp [rounds] at h
  | succ n ih =>
    simp only [rounds, List.mem_cons] at h
    tauto

theorem acceptedFrames_rounds (cfg : TxCfg) (s : TxState) (n : ℕ) :
    acceptedFrames (Machine.run (sendStep cfg) s (rounds n)).2 = [] := by
  refine Machine.run_induction_of_meets (C := fun _ inp => inp = .signal ∨ inp = .task false)
    (P := fun _ _ tr => acceptedFrames tr = []) rfl ?_ _
    (Machine.meets_of_forall fun _ => mem_rounds)
  rintro t _ tr inp (rfl | rfl) htr
  · simpa [sendStep, txStep, accepted] using htr
  · simpa [sendStep] using htr

/-- Outside `MT_EXIT` nothing is left behind: given the time, the task passes everything on as the
outlook says. -/
theorem exists_rounds_fates {cfg : TxCfg} {s : TxState} (hqueue : OneQueue cfg s)
    (hserved : Served cfg s) (hmode : s.currMode ≠ .exit) :
    ∃ n, fates (Machine.run (sendStep cfg) s (rounds n)).2 = outlook s := by
  obtain ⟨n, hn⟩ := exists_rounds_drained hserved fun hstranded => hmode hstranded.1
  refine ⟨n, ?_⟩
  have hpri : ∀ inp ∈ rounds n, AtPriorityZero inp := by
    intro inp h
    rcases mem_rounds h with rfl | rfl <;> trivial
  have hnot : ∀ inp ∈ rounds n, ∀ mode, inp ≠ .setOpMode mode := by
    intro inp h mode
    rcases mem_rounds h with rfl | rfl <;> exact TxIn.noConfusion
  have hrest := outlook_run hqueue hpri hnot
  rw [run_sendStep_fst, outlook_of_drained hn, acceptedFrames_rounds] at hrest
  simpa using hrest

/-- A run from `TXRXTask_Init` with all callers at priority 0 comes to a stop in `MT_RUNNING` and
goes on. What was accepted before the stop is what the task had counted out, and after it what
waits, in that order. After the stop the task finishes the frame in its hands, drops all the frames
that waited, and sends those accepted since: it never does anything else, and it gets to the end of
that list when it is given the time. -/
theorem sendRun_stop_drops_waiting (cfg : TxCfg) (is₁ is₂ : List TxIn)
    (hpri : ∀ inp ∈ is₁ ++ is₂, AtPriorityZero inp)
    (hrun : (sendRun cfg is₁).1.currMode = .running)
    (hmode : ∀ inp ∈ is₂, ∀ mode, inp ≠ .setOpMode mode) :
    let s := (sendRun cfg is₁).1
    let before := (sendRun cfg is₁).2
    let after := fun js => (Machine.run (sendStep cfg) (sendStep cfg s (.setOpMode .stop)).1 js).2
    let due := s.task.inHand ++ (waiting s).map (·, .dropped)
      ++ (acceptedFrames (after is₂)).map (·, .sent)
    acceptedFrames before = (fates before ++ s.task.inHand).map Prod.fst ++ waiting s ∧
      fates (after is₂) <+: due ∧
      ∃ n, fates (after (is₂ ++ rounds n)) = due := by
  intro s before after due
  have hpri₁ : ∀ inp ∈ is₁, AtPriorityZero inp := fun inp h => hpri inp (List.mem_append_left _ h)
  have hpri₂ : ∀ inp ∈ is₂, AtPriorityZero inp := fun inp h => hpri inp (List.mem_append_right _ h)
  have hqueue : OneQueue cfg s := (oneQueue_txInit cfg).run hpri₁
  have hstopped : OneQueue cfg (setOpMode s .stop) :=
    hqueue.step (show AtPriorityZero (.setOpMode .stop) from trivial)
  have hdue := outlook_run hstopped hpri₂ hmode
  rw [outlook_setOpMode_stop hqueue hrun] at hdue
  refine ⟨?_, ?_, ?_⟩
  · rw [sendRun_fifo hpri₁, outlook, List.map_append, List.map_append, map_fst_verdicts,
      ← List.append_assoc, ← List.map_append]
  · exact ⟨_, hdue⟩
  · set t := (Machine.run (sendStep cfg) (setOpMode s .stop) is₂).1
    have htmode : t.currMode = .stop := by
      rw [currMode_run hmode, setOpMode_stop hrun]
    have hserved : Served cfg t := by
      have hwhole := served_txRun cfg (is₁ ++ .setOpMode .stop :: is₂)
      rwa [txRun, ← run_sendStep_fst, Machine.run_append] at hwhole
    obtain ⟨n, hn⟩ := exists_rounds_fates (hstopped.run hpri₂) hserved
      (by rw [htmode]; exact ModeType.noConfusion)
    refine ⟨n, ?_⟩
    have hsplit : after (is₂ ++ rounds n)
        = after is₂ ++ (Machine.run (sendStep cfg) t (rounds n)).2 := by
      simp only [after, Machine.run_append]
      rfl
    rw [hsplit, fates_append, hn]
    exact hdue

/-- Two data frames are accepted in `MT_RUNNING` and the task has one of them in its hands, not yet
counted. -/
def runningRun : List TxIn :=
  [.setOpMode .running, .call ⟨1, true⟩ pri0, .enqueue ⟨1, true⟩ pri0, .signal,
    .call ⟨2, true⟩ pri0, .enqueue ⟨2, true⟩ pri0, .signal] ++
    List.replicate 7 (.task false)

/-- A host command follows the stop. -/
def commandRun : List TxIn := [.call ⟨3, false⟩ pri0, .enqueue ⟨3, false⟩ pri0, .signal]

/-- Both data frames are dropped, and the command is sent. -/
theorem stop_drops_two_sends_command :
    waiting (sendRun ⟨72, 16, by decide, by decide⟩ runningRun).1 = [⟨1, true⟩, ⟨2, true⟩] ∧
      ∃ n, fates (Machine.run (sendStep ⟨72, 16, by decide, by decide⟩)
          (sendStep ⟨72, 16, by decide, by decide⟩
            (sendRun ⟨72, 16, by decide, by decide⟩ runningRun).1 (.setOpMode .stop)).1
          (commandRun ++ rounds n)).2
        = [(⟨1, true⟩, .dropped), (⟨2, true⟩, .dropped), (⟨3, false⟩, .sent)] := by
  obtain ⟨-, -, n, hn⟩ := sendRun_stop_drops_waiting ⟨72, 16, by decide, by decide⟩
    runningRun commandRun (by decide) (by decide) (by simp [commandRun])
  refine ⟨by decide, n, hn.trans ?_⟩
  decide

end Fullmac.Tx
