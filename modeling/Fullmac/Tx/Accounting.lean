import Fullmac.Tx.Model
import Fullmac.Lib.Queues
import Mathlib.Algebra.Order.Group.Multiset

/-!
# The books of the transmit task

Nodes, frames and counters are three views of the same queues. `Accounted` says that they agree at
every step, with the frame in the hands of the task entered once: it has left its queue but is still
counted until the task has come to the counters (`TxPc.uncounted`), and it is owed until the task
has freed it (`TxPc.frames`).
-/

namespace Fullmac.Tx

open Queues

/-! ## What the task holds -/

/-- The node in the hands of the task. -/
def TxPc.nodes : TxPc → Multiset ℕ
  | .popped _ outFrm => {outFrm.node}
  | .counted _ node _ _ => {node}
  | .returning _ node => {node}
  | _ => 0

/-- The frame in the hands of the task. -/
def TxPc.frames : TxPc → Multiset TxFrame
  | .popped _ outFrm => (outFrm.frame.toList : Multiset TxFrame)
  | .counted _ _ tFrame _ => {tFrame}
  | _ => 0

/-- The task holds nothing. -/
def TxPc.Idle : TxPc → Prop
  | .popped _ _ | .counted _ _ _ _ | .returning _ _ => False
  | _ => True

/-- The number of popped frames that `tx_data_frm_num` still counts. -/
def TxPc.uncounted : TxPc → ℕ
  | .popped _ _ => 1
  | _ => 0

/-- How many queues the current pass has still to look at. -/
def TxPc.left : TxPc → ℕ
  | .scan left => left
  | .popped left _ => left
  | .counted left _ _ _ => left
  | .returning left _ => left
  | .waitMore left => left
  | _ => 0

section Idle

variable {pc : TxPc}

theorem TxPc.Idle.nodes (h : pc.Idle) : pc.nodes = 0 := by
  cases pc <;> first | rfl | cases h

theorem TxPc.Idle.frames (h : pc.Idle) : pc.frames = 0 := by
  cases pc <;> first | rfl | cases h

theorem TxPc.Idle.uncounted (h : pc.Idle) : pc.uncounted = 0 := by
  cases pc <;> first | rfl | cases h

theorem TxPc.Idle.ne_popped (h : pc.Idle) (left : ℕ) (e : FrmL) : pc ≠ .popped left e := by
  rintro rfl
  exact h

end Idle

/-- The nodes of a list. -/
def nodesOf (l : List FrmL) : Multiset ℕ := (l.map FrmL.node : List ℕ)

/-- The frames of a list. -/
def framesOf (l : List FrmL) : Multiset TxFrame := (l.filterMap FrmL.frame : List TxFrame)

@[simp] theorem nodesOf_cons (e : FrmL) (l : List FrmL) : nodesOf (e :: l) = e.node ::ₘ nodesOf l :=
  rfl

@[simp] theorem nodesOf_concat (l : List FrmL) (e : FrmL) :
    nodesOf (l ++ [e]) = e.node ::ₘ nodesOf l := by
  rw [nodesOf, List.map_append, ← Multiset.coe_add, add_comm]
  rfl

@[simp] theorem card_nodesOf (l : List FrmL) : Multiset.card (nodesOf l) = l.length := by
  simp [nodesOf]

theorem framesOf_cons (e : FrmL) (l : List FrmL) :
    framesOf (e :: l) = (e.frame.toList : Multiset TxFrame) + framesOf l := by
  cases h : e.frame <;> simp [framesOf, h]

theorem framesOf_concat (l : List FrmL) (e : FrmL) :
    framesOf (l ++ [e]) = (e.frame.toList : Multiset TxFrame) + framesOf l := by
  rw [add_comm, framesOf, List.filterMap_append, ← Multiset.coe_add, ← framesOf]
  cases h : e.frame <;> simp [h]

/-- All nodes: free, queued and held. -/
def TxState.nodes (s : TxState) : Multiset ℕ :=
  nodesOf s.freeFrmQ + total priQNum nodesOf s.txHwq + s.task.nodes

/-- The frames in the queues. -/
def TxState.queued (s : TxState) : Multiset TxFrame := total priQNum framesOf s.txHwq

/-- The number of entries of all queues. -/
def TxState.queuedNum (s : TxState) : ℕ := total priQNum List.length s.txHwq

/-- The frames `TXRXTask_FrameEnqueue` has accepted. -/
def accepted (tr : List TxOut) : List TxFrame :=
  tr.filterMap fun
    | .accepted f => some f
    | _ => none

/-- The frames the task has freed. -/
def freed (tr : List TxOut) : List TxFrame :=
  tr.filterMap fun
    | .freed f => some f
    | _ => none

@[simp] theorem accepted_append (tr tr' : List TxOut) :
    accepted (tr ++ tr') = accepted tr ++ accepted tr' := by
  simp [accepted]

@[simp] theorem freed_append (tr tr' : List TxOut) : freed (tr ++ tr') = freed tr ++ freed tr' := by
  simp [freed]

/-! ## The invariant -/

/-- Nodes, counters and frames agree: each of the `g_TXSEMA_MAX_NUM` nodes is in `free_frmQ`, in one
of the queues or in the hands of the task; `tx_data_frm_num` counts the queued frames and the one
not yet counted; the frames to be flushed are among them; and each accepted frame is queued, in the
hands of the task, or freed. -/
structure Accounted (cfg : TxCfg) (s : TxState) (tr : List TxOut) : Prop where
  nodes : s.nodes = Multiset.range cfg.txsemaMaxNum
  framed : ∀ r, ∀ e ∈ s.txHwq r, e.frame.isSome
  held : ∀ left e, s.task = .popped left e → e.frame.isSome
  left : s.task.left ≤ priQNum
  data : s.txDataFrmNum = s.queuedNum + s.task.uncounted
  flush : s.txFlushDataFrmNum ≤ s.txDataFrmNum
  frames : (accepted tr : Multiset TxFrame)
    = s.queued + s.task.frames + (freed tr : Multiset TxFrame)

/-- There are not more entries than nodes, so the 32-bit counters do not wrap. -/
theorem Accounted.queuedNum_le {cfg : TxCfg} {s : TxState} {tr : List TxOut}
    (h : Accounted cfg s tr) : s.queuedNum + s.task.uncounted + s.freeFrmQ.length
      ≤ cfg.txsemaMaxNum := by
  have hcard := congrArg Multiset.card h.nodes
  have hqueues : Multiset.card (total priQNum nodesOf s.txHwq) = s.queuedNum := by
    simp only [total, TxState.queuedNum, Multiset.card_sum, card_nodesOf]
  have huncounted : s.task.uncounted ≤ Multiset.card s.task.nodes := by
    cases s.task <;> simp [TxPc.uncounted, TxPc.nodes]
  simp only [TxState.nodes, Multiset.card_add, hqueues, card_nodesOf, Multiset.card_range] at hcard
  omega

theorem txsemaMaxNum_lt (cfg : TxCfg) : cfg.txsemaMaxNum < 4294967295 := by
  have h := cfg.poolSize_lt
  have h' := cfg.poolSecSize_lt
  simp only [TxCfg.txsemaMaxNum]
  omega

theorem accounted_txInit (cfg : TxCfg) : Accounted cfg (txInit cfg) [] where
  nodes := by
    have hzero : total priQNum nodesOf (txInit cfg).txHwq = 0 := total_eq_zero rfl fun _ _ => rfl
    rw [TxState.nodes, hzero]
    simp [txInit, TxPc.nodes, nodesOf, Function.comp_def, Multiset.range]
  framed r e he := by simp [txInit] at he
  held left e he := by simp [txInit] at he
  left := by simp [txInit, TxPc.left]
  data := by
    have hzero : (txInit cfg).queuedNum = 0 := total_eq_zero rfl fun _ _ => rfl
    rw [hzero]
    rfl
  flush := le_rfl
  frames := by
    have hzero : (txInit cfg).queued = 0 := total_eq_zero rfl fun _ _ => rfl
    rw [hzero]
    rfl

/-! ## The calls -/

theorem Accounted.refused {cfg : TxCfg} {s : TxState} {tr : List TxOut} (h : Accounted cfg s tr)
    (frame : TxFrame) : Accounted cfg s (tr ++ [.refused frame]) :=
  ⟨h.nodes, h.framed, h.held, h.left, h.data, h.flush, by
    simpa [accepted, freed] using h.frames⟩

/-- The calls under way hold no node and are not counted. -/
theorem Accounted.callers {cfg : TxCfg} {s : TxState} {tr : List TxOut} (h : Accounted cfg s tr)
    (callers : List (TxFrame × Fin priQNum)) : Accounted cfg { s with callers := callers } tr :=
  ⟨h.nodes, h.framed, h.held, h.left, h.data, h.flush, h.frames⟩

theorem Accounted.enqueue {cfg : TxCfg} {s : TxState} {tr : List TxOut} (h : Accounted cfg s tr)
    (frame : TxFrame) (priority : Fin priQNum) :
    Accounted cfg (enqueueFrm s frame priority).1
      (tr ++ [if (enqueueFrm s frame priority).2 then .accepted frame else .refused frame]) := by
  unfold enqueueFrm
  split
  · exact h.refused frame
  · rename_i dataFrm rest hfree
    have hlt := txsemaMaxNum_lt cfg
    have hroom := h.queuedNum_le
    have hdata := h.data
    have hflush := h.flush
    simp only [hfree, List.length_cons] at hroom
    have hnum := total_length_push priority.isLt s.txHwq ⟨dataFrm.node, some frame⟩
    have hnodes := total_update priority.isLt nodesOf s.txHwq
      (s.txHwq priority ++ [⟨dataFrm.node, some frame⟩])
    have hframes := total_update priority.isLt framesOf s.txHwq
      (s.txHwq priority ++ [⟨dataFrm.node, some frame⟩])
    rw [nodesOf_concat, ← Multiset.singleton_add, ← add_assoc] at hnodes
    rw [framesOf_concat, ← add_assoc] at hframes
    have hnodes := add_right_cancel hnodes
    have hframes := add_right_cancel hframes
    refine ⟨?_, ?_, h.held, h.left, ?_, ?_, ?_⟩
    · rw [← h.nodes, TxState.nodes, TxState.nodes, hnodes, hfree, nodesOf_cons,
        ← Multiset.singleton_add]
      abel
    · intro r e he
      by_cases hr : r = priority
      · subst hr
        simp only [Function.update_self, List.mem_append, List.mem_singleton] at he
        rcases he with he | rfl
        · exact h.framed _ e he
        · rfl
      · simp only [Function.update_of_ne hr] at he
        exact h.framed r e he
    · show incU32 s.txDataFrmNum
        = total priQNum List.length (Function.update s.txHwq priority _) + s.task.uncounted
      rw [hnum, incU32_of_lt (by omega), hdata, TxState.queuedNum]
      omega
    · show s.txFlushDataFrmNum ≤ incU32 s.txDataFrmNum
      rw [incU32_of_lt (by omega)]
      omega
    · have hold := h.frames
      simp only [accepted_append, freed_append, ← Multiset.coe_add, hold]
      show _ = total priQNum framesOf _ + s.task.frames + _
      rw [hframes, TxState.queued]
      simp [accepted, freed]
      abel

theorem Accounted.signal {cfg : TxCfg} {s : TxState} {tr : List TxOut} (h : Accounted cfg s tr) :
    Accounted cfg (signalFrm cfg s) tr := by
  unfold signalFrm
  split
  · exact ⟨h.nodes, h.framed, h.held, h.left, h.data, h.flush, h.frames⟩
  · exact h

theorem Accounted.setOpMode {cfg : TxCfg} {s : TxState} {tr : List TxOut} (h : Accounted cfg s tr)
    (mode : ModeType) : Accounted cfg (setOpMode s mode) tr := by
  -- the snapshot is the count itself
  have hflush : ∀ {m n}, n ≤ s.txDataFrmNum →
      Accounted cfg { s with currMode := m, txFlushDataFrmNum := n } tr := fun hn =>
    ⟨h.nodes, h.framed, h.held, h.left, h.data, hn, h.frames⟩
  rw [Tx.setOpMode]
  split
  · refine hflush ?_
    split
    · exact le_rfl
    · exact h.flush
  · split
    · exact hflush le_rfl
    · exact h
  · exact h

/-! ## The task -/

/-- Moving the task from one place where it holds nothing to another. -/
theorem Accounted.goto {cfg : TxCfg} {s : TxState} {tr : List TxOut} (h : Accounted cfg s tr)
    {next : TxPc} (m n : ℕ) (hidle : s.task.Idle) (hnext : next.Idle)
    (hleft : next.left ≤ priQNum) :
    Accounted cfg { s with sema := m, task := next, prcCount := n } tr := by
  refine ⟨?_, h.framed, fun left e he => absurd he (hnext.ne_popped left e), hleft, ?_, h.flush, ?_⟩
  · have hold := h.nodes
    rw [TxState.nodes, hidle.nodes] at hold
    rw [← hold, TxState.nodes, hnext.nodes]
  · have hold := h.data
    rw [hidle.uncounted] at hold
    rw [hnext.uncounted]
    exact hold
  · have hold := h.frames
    rw [hidle.frames] at hold
    rw [hnext.frames]
    exact hold

theorem Accounted.semWait {cfg : TxCfg} {s : TxState} {tr : List TxOut} (h : Accounted cfg s tr)
    (timeout : Bool) {next : TxPc} (hidle : s.task.Idle) (hnext : next.Idle)
    (hleft : next.left ≤ priQNum) : Accounted cfg (semWait s timeout next) tr := by
  unfold Tx.semWait
  split
  · exact h.goto _ s.prcCount hidle hnext hleft
  split
  · exact h.goto s.sema s.prcCount hidle hnext hleft
  · exact h

/-- Taking the first entry of a queue. -/
theorem Accounted.pop {cfg : TxCfg} {s : TxState} {tr : List TxOut} (h : Accounted cfg s tr)
    {r : ℕ} (htask : s.task = .scan (r + 1)) {outFrm : FrmL} {rest : List FrmL}
    (hq : s.txHwq r = outFrm :: rest) :
    Accounted cfg
      { s with txHwq := Function.update s.txHwq r rest, task := .popped (r + 1) outFrm } tr := by
  have hr : r < priQNum := by
    have := h.left
    rw [htask] at this
    exact this
  have hnum := total_length_pop hr hq
  have hnodes := total_update hr nodesOf s.txHwq rest
  have hframes := total_update hr framesOf s.txHwq rest
  rw [hq, nodesOf_cons, ← Multiset.singleton_add, ← add_assoc] at hnodes
  rw [hq, framesOf_cons, ← add_assoc] at hframes
  have hnodes := add_right_cancel hnodes
  have hframes := add_right_cancel hframes
  have hmem : outFrm ∈ s.txHwq r := by simp [hq]
  refine ⟨?_, ?_, ?_, hr, ?_, h.flush, ?_⟩
  · rw [← h.nodes, TxState.nodes, TxState.nodes, htask]
    simp only [TxPc.nodes, add_zero, ← hnodes]
    abel
  · intro r' e he
    by_cases hr' : r' = r
    · subst hr'
      simp only [Function.update_self] at he
      exact h.framed r' e (by rw [hq]; exact List.mem_cons_of_mem _ he)
    · simp only [Function.update_of_ne hr'] at he
      exact h.framed r' e he
  · intro left e he
    cases he
    exact h.framed r outFrm hmem
  · have hdata := h.data
    rw [htask] at hdata
    show s.txDataFrmNum = total priQNum List.length (Function.update s.txHwq r rest) + 1
    rw [hdata, hnum]
    rfl
  · have hold := h.frames
    rw [hold, htask, TxState.queued, ← hframes]
    simp only [TxPc.frames, TxState.queued]
    abel

/-- Counting the popped frame: neither counter is zero when it is decremented. -/
theorem Accounted.count {cfg : TxCfg} {s : TxState} {tr : List TxOut} (h : Accounted cfg s tr)
    {left : ℕ} {outFrm : FrmL} (htask : s.task = .popped left outFrm) {tFrame : TxFrame}
    (hframe : outFrm.frame = some tFrame) :
    Accounted cfg (countFrm s left outFrm.node tFrame) tr := by
  have hlt := txsemaMaxNum_lt cfg
  have hroom := h.queuedNum_le
  have hdata := h.data
  have hflush := h.flush
  have hleft := h.left
  rw [htask] at hroom hdata hleft
  simp only [TxPc.uncounted] at hroom hdata
  have hdec : decU32 s.txDataFrmNum = s.queuedNum := by
    rw [decU32_of_pos (by omega)]
    omega
  refine ⟨?_, h.framed, (fun l e he => by cases he), hleft, hdec, ?_, ?_⟩
  · have hold := h.nodes
    rw [TxState.nodes, htask] at hold
    exact hold
  · show (countFrm s left outFrm.node tFrame).txFlushDataFrmNum ≤ decU32 s.txDataFrmNum
    rw [hdec]
    by_cases hzero : s.txFlushDataFrmNum = 0
    · simp [countFrm, hzero]
    · simp only [countFrm, if_neg hzero, if_true]
      rw [decU32_of_pos (by omega)]
      omega
  · have hqueued : (countFrm s left outFrm.node tFrame).queued = s.queued := rfl
    have hheld : (countFrm s left outFrm.node tFrame).task.frames = {tFrame} := rfl
    have hold := h.frames
    rw [htask] at hold
    simp only [TxPc.frames, hframe, Option.toList_some, Multiset.coe_singleton] at hold
    rw [hqueued, hheld, hold]

/-- Freeing the counted frame. -/
theorem Accounted.free {cfg : TxCfg} {s : TxState} {tr : List TxOut} (h : Accounted cfg s tr)
    {left node : ℕ} {tFrame : TxFrame} {flushFrm : Bool}
    (htask : s.task = .counted left node tFrame flushFrm) (n : ℕ) :
    Accounted cfg { s with task := .returning left node, prcCount := n }
      (tr ++ [.freed tFrame]) := by
  have hleft := h.left
  rw [htask] at hleft
  refine ⟨?_, h.framed, (fun l e he => by cases he), hleft, ?_, h.flush, ?_⟩
  · have hold := h.nodes
    rw [TxState.nodes, htask] at hold
    exact hold
  · have hold := h.data
    rw [htask] at hold
    exact hold
  · have hold := h.frames
    rw [htask] at hold
    simp only [accepted_append, freed_append, ← Multiset.coe_add, hold]
    simp only [TxPc.frames, accepted, freed, List.filterMap_cons, List.filterMap_nil,
      Multiset.coe_nil, Multiset.coe_singleton, TxState.queued]
    abel

/-- Returning the node. -/
theorem Accounted.giveBack {cfg : TxCfg} {s : TxState} {tr : List TxOut} (h : Accounted cfg s tr)
    {left node : ℕ} (htask : s.task = .returning left node) {next : TxPc} (hnext : next.Idle)
    (hleft : next.left ≤ priQNum) :
    Accounted cfg { s with freeFrmQ := s.freeFrmQ ++ [⟨node, none⟩], task := next } tr := by
  refine ⟨?_, h.framed, fun l e he => absurd he (hnext.ne_popped l e), hleft, ?_, h.flush, ?_⟩
  · have hret : (TxPc.returning left node).nodes = {node} := rfl
    rw [← h.nodes, TxState.nodes, TxState.nodes, htask, hret]
    simp only [nodesOf_concat, hnext.nodes, ← Multiset.singleton_add]
    abel
  · have hold := h.data
    rw [htask] at hold
    rw [hnext.uncounted]
    exact hold
  · have hold := h.frames
    rw [htask] at hold
    rw [hnext.frames]
    exact hold

theorem Accounted.taskStep {cfg : TxCfg} {s s' : TxState} {tr out : List TxOut} {timeout : Bool}
    (h : Accounted cfg s tr) (hstep : TaskStep s timeout s' out) :
    Accounted cfg s' (tr ++ out) := by
  have hleft := h.left
  -- away from the three places where the task holds a node
  have hidle : ∀ {pc : TxPc}, s.task = pc → pc.Idle → s.task.Idle := by
    rintro _ rfl hpc
    exact hpc
  cases hstep with
  | leave htask _ =>
    rw [List.append_nil]
    exact h.goto s.sema s.prcCount (hidle htask trivial) trivial (Nat.zero_le _)
  | enter htask _ =>
    rw [List.append_nil]
    exact h.goto s.sema 0 (hidle htask trivial) trivial (Nat.zero_le _)
  | waited htask =>
    rw [List.append_nil]
    exact h.semWait timeout (hidle htask trivial) trivial le_rfl
  | endPass htask =>
    rw [List.append_nil]
    exact h.goto s.sema s.prcCount (hidle htask trivial) trivial (Nat.zero_le _)
  | next htask _ =>
    rw [htask] at hleft
    rw [List.append_nil]
    exact h.goto s.sema s.prcCount (hidle htask trivial) trivial (Nat.le_of_succ_le hleft)
  | pop htask hq =>
    rw [List.append_nil]
    exact h.pop htask hq
  | skip htask hframe =>
    -- a queued node always carries a frame
    have hsome := h.held _ _ htask
    rw [hframe] at hsome
    cases hsome
  | count htask hframe =>
    rw [List.append_nil]
    exact h.count htask hframe
  | free htask => exact h.free htask _
  | giveBack htask =>
    rw [htask] at hleft
    rw [List.append_nil]
    split
    · exact h.giveBack htask trivial hleft
    · exact h.giveBack htask trivial hleft
  | waitedMore htask =>
    rw [htask] at hleft
    rw [List.append_nil]
    exact h.semWait timeout (hidle htask trivial) trivial hleft
  | idle _ =>
    rw [List.append_nil]
    exact h

theorem Accounted.step {cfg : TxCfg} {s : TxState} {tr : List TxOut} (h : Accounted cfg s tr)
    (inp : TxIn) : Accounted cfg (txStep cfg s inp).1 (tr ++ (txStep cfg s inp).2) := by
  cases inp with
  | call frame priority =>
    rw [txStep]
    split
    · exact h.refused frame
    · rw [List.append_nil]
      exact h.callers _
  | enqueue frame priority =>
    rw [txStep]
    split
    · exact (h.callers _).enqueue frame priority
    · rw [List.append_nil]
      exact h
  | signal =>
    rw [show (txStep cfg s .signal).2 = [] from rfl, List.append_nil]
    exact h.signal
  | setOpMode mode =>
    rw [show (txStep cfg s (.setOpMode mode)).2 = [] from rfl, List.append_nil]
    exact h.setOpMode mode
  | task timeout => exact h.taskStep (taskStep_txTask s timeout)

/-- The books agree after every run. -/
theorem accounted_txRun (cfg : TxCfg) (is : List TxIn) :
    Accounted cfg (txRun cfg is).1 (txRun cfg is).2 :=
  Machine.run_induction (P := fun s _ tr => Accounted cfg s tr) (accounted_txInit cfg)
    (fun _ _ _ inp h => h.step inp) is

end Fullmac.Tx
