import Fullmac.Lib.Machine
import Mathlib.Logic.Function.Basic

/-!
# The transmit task

Reference: `host/core/txrx_task.c`, `_prepare_tx_frm_list`, `TXRXTask_TxTask`,
`TXRXTask_FrameEnqueue` and `TXRXTask_SetOpMode`.

Callers put frames into one of `PRI_Q_NUM` queues, each frame in one of `g_TXSEMA_MAX_NUM` list
nodes; the transmit task takes them out, highest priority first, sends or flushes them, frees them
and returns the nodes. The counters `tx_data_frm_num` and `tx_flush_data_frm_num` are kept under the
mutex, but at other moments than the lists: a step of the machine is one critical section, or one
stretch of code between two of them. The semaphore is modelled with the callers that have queued a
frame and not yet signalled it. What the task does with a frame between counting and freeing it
(aggregation, the driver call) does not touch any of this and is left out.
-/

namespace Fullmac.Tx

/-- `ModeType`. -/
inductive ModeType
  | stop | running | exit
deriving DecidableEq, Repr

/-- The two pool sizes, 16-bit fields of `struct Host_cfg`. -/
structure TxCfg where
  poolSize : ℕ
  poolSecSize : ℕ
  poolSize_lt : poolSize < 65536
  poolSecSize_lt : poolSecSize < 65536

/-- `g_TXSEMA_MAX_NUM`. -/
def TxCfg.txsemaMaxNum (cfg : TxCfg) : ℕ := cfg.poolSize + cfg.poolSecSize + 10

/-- `PRI_Q_NUM`. -/
def priQNum : ℕ := 5

/-- Priority 0, the one of the callers in `host/core`. -/
def pri0 : Fin priQNum := ⟨0, Nat.zero_lt_succ 4⟩

/-- A frame to be sent: its buffer, and whether its `c_type` is that of a data frame. -/
structure TxFrame where
  ptr : ℕ
  isTxReq : Bool
deriving DecidableEq, Repr

/-- `FrmL`, a list node with the frame it carries. -/
structure FrmL where
  node : ℕ
  frame : Option TxFrame
deriving DecidableEq, Repr

/-- Where the transmit task stands. `left` counts the queues the current pass has still to look at,
the one at hand included; that one is queue `left - 1`. -/
inductive TxPc
  | test
  | wait
  | scan (left : ℕ)
  | popped (left : ℕ) (outFrm : FrmL)
  | counted (left : ℕ) (node : ℕ) (tFrame : TxFrame) (flushFrm : Bool)
  | returning (left : ℕ) (node : ℕ)
  | waitMore (left : ℕ)
  | done
deriving DecidableEq, Repr

/-- The state the transmit side shares, the calls of `TXRXTask_FrameEnqueue` under way (`callers`
have passed the test of the mode, `signals` counts those that have queued their frame and not yet
signalled it), and the transmit task. `prcCount` is a signed 8-bit counter, kept here by its bits.
-/
structure TxState where
  currMode : ModeType
  freeFrmQ : List FrmL
  txHwq : ℕ → List FrmL
  txDataFrmNum : ℕ
  txFlushDataFrmNum : ℕ
  sema : ℕ
  callers : List (TxFrame × Fin priQNum)
  signals : ℕ
  task : TxPc
  prcCount : ℕ

/-- `TXRXTask_Init` with `_prepare_tx_frm_list`. -/
def txInit (cfg : TxCfg) : TxState where
  currMode := .stop
  freeFrmQ := (List.range cfg.txsemaMaxNum).map fun n => ⟨n, none⟩
  txHwq := fun _ => []
  txDataFrmNum := 0
  txFlushDataFrmNum := 0
  sema := 0
  callers := []
  signals := 0
  task := .test
  prcCount := 0

/-- `x++` on a `u32`. -/
def incU32 (x : ℕ) : ℕ := if x = 4294967295 then 0 else x + 1

/-- `x--` on a `u32`. -/
def decU32 (x : ℕ) : ℕ := if x = 0 then 4294967295 else x - 1

theorem incU32_of_lt {x : ℕ} (h : x < 4294967295) : incU32 x = x + 1 := if_neg (by omega)

theorem decU32_of_pos {x : ℕ} (h : 0 < x) : decU32 x = x - 1 := if_neg (by omega)

/-- What can be seen of a run. -/
inductive TxOut
  | accepted (f : TxFrame)
  | refused (f : TxFrame)
  | freed (f : TxFrame)
deriving DecidableEq, Repr

/-- The test of the mode that `TXRXTask_FrameEnqueue` makes before it takes the mutex. -/
def refusesFrame (s : TxState) (frame : TxFrame) : Bool :=
  s.currMode = .stop && frame.isTxReq

/-- The critical section of `TXRXTask_FrameEnqueue`. The Boolean is its return value. -/
def enqueueFrm (s : TxState) (frame : TxFrame) (priority : Fin priQNum) : TxState × Bool :=
  match s.freeFrmQ with
  | [] => (s, false)
  | dataFrm :: rest =>
    ({ s with
        freeFrmQ := rest
        txDataFrmNum := incU32 s.txDataFrmNum
        txHwq := Function.update s.txHwq priority
          (s.txHwq priority ++ [⟨dataFrm.node, some frame⟩])
        signals := s.signals + 1 },
      true)

/-- `TXRXTask_FrameEnqueue` up to the signal, when the mode does not change meanwhile. -/
def frameEnqueue (s : TxState) (frame : TxFrame) (priority : Fin priQNum) : TxState × Bool :=
  if refusesFrame s frame then (s, false) else enqueueFrm s frame priority

/-- A frame that is no data frame is refused for want of a node only. -/
theorem frameEnqueue_iff_of_not_isTxReq {s : TxState} {frame : TxFrame} (h : frame.isTxReq = false)
    (priority : Fin priQNum) : (frameEnqueue s frame priority).2 = true ↔ s.freeFrmQ ≠ [] := by
  have hmode : refusesFrame s frame = false := by simp [refusesFrame, h]
  rw [frameEnqueue, hmode, enqueueFrm]
  cases s.freeFrmQ <;> simp

section enqueueFrm

variable (s : TxState) (frame : TxFrame) (priority : Fin priQNum)

@[simp] theorem enqueueFrm_task : (enqueueFrm s frame priority).1.task = s.task := by
  unfold enqueueFrm
  split <;> rfl

@[simp] theorem enqueueFrm_currMode : (enqueueFrm s frame priority).1.currMode = s.currMode := by
  unfold enqueueFrm
  split <;> rfl

end enqueueFrm

/-- The end of `TXRXTask_FrameEnqueue`: a caller signals the semaphore, as soon as it is not full.
-/
def signalFrm (cfg : TxCfg) (s : TxState) : TxState :=
  if 0 < s.signals ∧ s.sema < cfg.txsemaMaxNum then
    { s with signals := s.signals - 1, sema := s.sema + 1 }
  else s

section signalFrm

variable (cfg : TxCfg) (s : TxState)

@[simp] theorem signalFrm_task : (signalFrm cfg s).task = s.task := by
  unfold signalFrm
  split <;> rfl

@[simp] theorem signalFrm_currMode : (signalFrm cfg s).currMode = s.currMode := by
  unfold signalFrm
  split <;> rfl

@[simp] theorem signalFrm_txHwq : (signalFrm cfg s).txHwq = s.txHwq := by
  unfold signalFrm
  split <;> rfl

end signalFrm

/-- `TXRXTask_SetOpMode`. -/
def setOpMode (s : TxState) (mode : ModeType) : TxState :=
  match s.currMode with
  | .stop =>
    { s with
      txFlushDataFrmNum := if mode = .exit then s.txDataFrmNum else s.txFlushDataFrmNum
      currMode := mode }
  | .running =>
    if mode = .stop then { s with txFlushDataFrmNum := s.txDataFrmNum, currMode := mode } else s
  | .exit => s

@[simp] theorem setOpMode_task (s : TxState) (mode : ModeType) :
    (setOpMode s mode).task = s.task := by
  unfold setOpMode
  split
  · rfl
  · split <;> rfl
  · rfl

/-- There is no way out of `MT_EXIT`. -/
theorem setOpMode_of_exit {s : TxState} (h : s.currMode = .exit) (mode : ModeType) :
    setOpMode s mode = s := by
  simp only [setOpMode, h]

/-- `OS_SemWait(tx_frm_sphr, sleep_tick)`: take a token, or time out, or stay blocked. -/
def semWait (s : TxState) (timeout : Bool) (next : TxPc) : TxState :=
  if 0 < s.sema then { s with sema := s.sema - 1, task := next }
  else if timeout then { s with task := next }
  else s

/-- The critical section that counts a popped frame. -/
def countFrm (s : TxState) (left : ℕ) (node : ℕ) (tFrame : TxFrame) : TxState :=
  let flushFrm := if s.txFlushDataFrmNum = 0 then false else true
  { s with
    txDataFrmNum := decU32 s.txDataFrmNum
    txFlushDataFrmNum :=
      if flushFrm = true then decU32 s.txFlushDataFrmNum else s.txFlushDataFrmNum
    task := .counted left node tFrame flushFrm }

/-- `prc_count > 1`, for the signed 8-bit value. -/
def manyProcessed (prcCount : ℕ) : Bool := 1 < prcCount && prcCount < 128

/-- `TXRXTask_TxTask`, one step. -/
def txTask (s : TxState) (timeout : Bool) : TxState × List TxOut :=
  match s.task with
  | .test =>
    if s.currMode = .exit then ({ s with task := .done }, [])
    else ({ s with task := .wait, prcCount := 0 }, [])
  | .wait => (semWait s timeout (.scan priQNum), [])
  | .scan 0 => ({ s with task := .test }, [])
  | .scan (r + 1) =>
    match s.txHwq r with
    | [] => ({ s with task := .scan r }, [])
    | outFrm :: rest =>
      ({ s with txHwq := Function.update s.txHwq r rest, task := .popped (r + 1) outFrm }, [])
  | .popped left outFrm =>
    match outFrm.frame with
    | none => ({ s with task := .scan left }, [])
    | some tFrame => (countFrm s left outFrm.node tFrame, [])
  | .counted left node tFrame _ =>
    ({ s with task := .returning left node, prcCount := (s.prcCount + 1) % 256 }, [.freed tFrame])
  | .returning left node =>
    ({ s with
        freeFrmQ := s.freeFrmQ ++ [⟨node, none⟩]
        task := if manyProcessed s.prcCount then .waitMore left else .scan left }, [])
  | .waitMore left => (semWait s timeout (.scan left), [])
  | .done => (s, [])

/-- All that a step of the task can do. -/
inductive TaskStep (s : TxState) (timeout : Bool) : TxState → List TxOut → Prop
  | leave (htask : s.task = .test) (hmode : s.currMode = .exit) :
      TaskStep s timeout { s with task := .done } []
  | enter (htask : s.task = .test) (hmode : s.currMode ≠ .exit) :
      TaskStep s timeout { s with task := .wait, prcCount := 0 } []
  | waited (htask : s.task = .wait) : TaskStep s timeout (semWait s timeout (.scan priQNum)) []
  | endPass (htask : s.task = .scan 0) : TaskStep s timeout { s with task := .test } []
  | next {r : ℕ} (htask : s.task = .scan (r + 1)) (hq : s.txHwq r = []) :
      TaskStep s timeout { s with task := .scan r } []
  | pop {r : ℕ} {outFrm : FrmL} {rest : List FrmL} (htask : s.task = .scan (r + 1))
      (hq : s.txHwq r = outFrm :: rest) :
      TaskStep s timeout
        { s with txHwq := Function.update s.txHwq r rest, task := .popped (r + 1) outFrm } []
  | skip {left : ℕ} {outFrm : FrmL} (htask : s.task = .popped left outFrm)
      (hframe : outFrm.frame = none) : TaskStep s timeout { s with task := .scan left } []
  | count {left : ℕ} {outFrm : FrmL} {tFrame : TxFrame} (htask : s.task = .popped left outFrm)
      (hframe : outFrm.frame = some tFrame) :
      TaskStep s timeout (countFrm s left outFrm.node tFrame) []
  | free {left node : ℕ} {tFrame : TxFrame} {flushFrm : Bool}
      (htask : s.task = .counted left node tFrame flushFrm) :
      TaskStep s timeout { s with task := .returning left node, prcCount := (s.prcCount + 1) % 256 }
        [.freed tFrame]
  | giveBack {left node : ℕ} (htask : s.task = .returning left node) :
      TaskStep s timeout
        { s with
          freeFrmQ := s.freeFrmQ ++ [⟨node, none⟩]
          task := if manyProcessed s.prcCount then .waitMore left else .scan left } []
  | waitedMore {left : ℕ} (htask : s.task = .waitMore left) :
      TaskStep s timeout (semWait s timeout (.scan left)) []
  | idle (htask : s.task = .done) : TaskStep s timeout s []

theorem taskStep_txTask (s : TxState) (timeout : Bool) :
    TaskStep s timeout (txTask s timeout).1 (txTask s timeout).2 := by
  unfold txTask
  split
  · rename_i htask
    split
    · rename_i hmode
      exact .leave htask hmode
    · rename_i hmode
      exact .enter htask hmode
  · rename_i htask
    exact .waited htask
  · rename_i htask
    exact .endPass htask
  · rename_i r htask
    split
    · rename_i hq
      exact .next htask hq
    · rename_i outFrm rest hq
      exact .pop htask hq
  · rename_i left outFrm htask
    split
    · rename_i hframe
      exact .skip htask hframe
    · rename_i tFrame hframe
      exact .count htask hframe
  · rename_i left node tFrame flushFrm htask
    exact .free htask
  · rename_i left node htask
    exact .giveBack htask
  · rename_i left htask
    exact .waitedMore htask
  · rename_i htask
    exact .idle htask

/-- Who moves. -/
inductive TxIn
  | call (frame : TxFrame) (priority : Fin priQNum)
  | enqueue (frame : TxFrame) (priority : Fin priQNum)
  | signal
  | setOpMode (mode : ModeType)
  | task (timeout : Bool)
deriving DecidableEq, Repr

/-- One step. A call of `TXRXTask_FrameEnqueue` is a `call`, an `enqueue` of the same frame and,
when it has succeeded, a `signal`. -/
def txStep (cfg : TxCfg) (s : TxState) : TxIn → TxState × List TxOut
  | .call frame priority =>
    if refusesFrame s frame then (s, [.refused frame])
    else ({ s with callers := (frame, priority) :: s.callers }, [])
  | .enqueue frame priority =>
    if (frame, priority) ∈ s.callers then
      let r := enqueueFrm { s with callers := s.callers.erase (frame, priority) } frame priority
      (r.1, [if r.2 then .accepted frame else .refused frame])
    else (s, [])
  | .signal => (signalFrm cfg s, [])
  | .setOpMode mode => (setOpMode s mode, [])
  | .task timeout => txTask s timeout

/-- A run from `TXRXTask_Init`. -/
abbrev txRun (cfg : TxCfg) (is : List TxIn) : TxState × List TxOut :=
  Machine.run (txStep cfg) (txInit cfg) is

end Fullmac.Tx
