import Fullmac.Cmd.Order
import Mathlib.Algebra.Order.Group.Multiset
import Mathlib.Tactic.Abel

/-!
# Who owns a command

A command taken from the mailbox ends up parked, accepted by the transmit side, or freed, with one
exception: when it is to be parked and no node can be had, nobody owns it any more. The nodes go
round between `pending_cmds` and `free_FrmQ`. `Owned` is what holds in every run, the lost commands
counted; `OwnedOnce` is what should hold. They differ by the lost commands and by the length of
`free_FrmQ`, which the turn of the task keeps at `FREE_FRM_NUM` and the flush does not.
-/

namespace Fullmac.Cmd

open Tx (ModeType)

variable {τ ι : Type*}

/-! ## The books -/

/-- The commands `TXRXTask_FrameEnqueue` has accepted. -/
def accepted (tr : List CmdOut) : List HostCmd :=
  tr.filterMap fun
    | .passed c true => some c
    | _ => none

/-- The commands freed. -/
def freed (tr : List CmdOut) : List HostCmd :=
  tr.filterMap fun
    | .freed c => some c
    | _ => none

/-- The commands nobody owns. -/
def lost (tr : List CmdOut) : List HostCmd :=
  tr.filterMap fun
    | .lost c => some c
    | _ => none

@[simp] theorem taken_append (tr tr' : List CmdOut) :
    taken (tr ++ tr') = taken tr ++ taken tr' := by
  simp [taken]

@[simp] theorem accepted_append (tr tr' : List CmdOut) :
    accepted (tr ++ tr') = accepted tr ++ accepted tr' := by
  simp [accepted]

@[simp] theorem freed_append (tr tr' : List CmdOut) :
    freed (tr ++ tr') = freed tr ++ freed tr' := by
  simp [freed]

@[simp] theorem lost_append (tr tr' : List CmdOut) : lost (tr ++ tr') = lost tr ++ lost tr' := by
  simp [lost]

/-- The nodes of both queues. -/
def nodes (s : Eng τ) : Multiset ℕ :=
  (s.pendingCmds.map FrmQ.node : List ℕ) + (s.freeFrmQ : Multiset ℕ)

/-- What holds in every run. -/
structure Owned (s : Eng τ) (tr : List CmdOut) : Prop where
  frames : (taken tr : Multiset HostCmd) = (parked s : Multiset HostCmd)
    + (accepted tr : Multiset HostCmd) + (freed tr : Multiset HostCmd)
    + (lost tr : Multiset HostCmd)
  nodup : (nodes s).Nodup
  fresh : ∀ n ∈ nodes s, n < s.nextNode

/-- Each command taken from the mailbox is parked, accepted or freed, and only one of them; no node
is in use twice; and there are not too many spare nodes. -/
structure OwnedOnce (s : Eng τ) (tr : List CmdOut) : Prop where
  frames : (taken tr : Multiset HostCmd) = (parked s : Multiset HostCmd)
    + (accepted tr : Multiset HostCmd) + (freed tr : Multiset HostCmd)
  nodup : (s.pendingCmds.map FrmQ.node ++ s.freeFrmQ).Nodup
  free : s.freeFrmQ.length ≤ freeFrmNum

theorem Owned.ownedOnce_iff {s : Eng τ} {tr : List CmdOut} (h : Owned s tr) :
    OwnedOnce s tr ↔ lost tr = [] ∧ s.freeFrmQ.length ≤ freeFrmNum := by
  constructor
  · rintro ⟨hframes, -, hfree⟩
    have heq := hframes.symm.trans h.frames
    rw [left_eq_add, Multiset.coe_eq_zero] at heq
    exact ⟨heq, hfree⟩
  · rintro ⟨hlost, hfree⟩
    refine ⟨?_, ?_, hfree⟩
    · rw [h.frames, hlost, Multiset.coe_nil, add_zero]
    · have hnodup := h.nodup
      rwa [nodes, Multiset.coe_add, Multiset.coe_nodup] at hnodup

/-- The nodes a step leaves in use were in use before. -/
theorem Owned.nodes_of_le {s s' : Eng τ} {tr : List CmdOut} (h : Owned s tr)
    (hle : nodes s' ≤ nodes s) (hnext : s'.nextNode = s.nextNode) :
    (nodes s').Nodup ∧ ∀ n ∈ nodes s', n < s'.nextNode := by
  refine ⟨Multiset.nodup_of_le hle h.nodup, fun n hn => ?_⟩
  rw [hnext]
  exact h.fresh n (Multiset.mem_of_le hle hn)

/-! ## The flush -/

/-- The flush keeps the spare nodes and adds some of those it takes. -/
theorem flushNodes_sublist (l : List FrmQ) (free : List ℕ) :
    (flushNodes l free).Sublist (free ++ l.map FrmQ.node) := by
  induction l generalizing free with
  | nil => simp [flushNodes]
  | cons pcmd rest ih =>
    rw [flushNodes]
    split
    · refine (ih free).trans (List.Sublist.append_left ?_ free)
      simp
    · simpa using ih (free ++ [pcmd.node])

/-- The flush stops at one node more than `FREE_FRM_NUM`. -/
theorem length_flushNodes (l : List FrmQ) {free : List ℕ} (h : free.length ≤ freeFrmNum + 1) :
    (flushNodes l free).length = min (freeFrmNum + 1) (free.length + l.length) := by
  induction l generalizing free with
  | nil => simp [flushNodes, h]
  | cons pcmd rest ih =>
    rw [flushNodes, List.length_cons]
    split
    · rw [ih h]
      omega
    · rw [ih (by simp; omega)]
      simp only [List.length_append, List.length_singleton]
      omega

theorem nodes_flushPendingCmds_le (s : Eng τ) : nodes (flushPendingCmds s).1 ≤ nodes s := by
  have hsub := (flushNodes_sublist s.pendingCmds s.freeFrmQ).subperm
  have hle := Multiset.coe_le.mpr hsub
  rw [← Multiset.coe_add, add_comm] at hle
  simpa [nodes, flushPendingCmds] using hle

theorem Owned.flushPendingCmds {s : Eng τ} {tr : List CmdOut} (h : Owned s tr) :
    Owned (flushPendingCmds s).1 (tr ++ (flushPendingCmds s).2) := by
  have hnodes := h.nodes_of_le (nodes_flushPendingCmds_le s) rfl
  refine ⟨?_, hnodes.1, hnodes.2⟩
  have htaken : taken (Cmd.flushPendingCmds s).2 = [] := by simp [Cmd.flushPendingCmds, taken]
  have haccepted : accepted (Cmd.flushPendingCmds s).2 = [] := by
    simp [Cmd.flushPendingCmds, accepted]
  have hlost : lost (Cmd.flushPendingCmds s).2 = [] := by simp [Cmd.flushPendingCmds, lost]
  have hfreed : freed (Cmd.flushPendingCmds s).2 = parked s := by
    simp [Cmd.flushPendingCmds, freed, parked, List.filterMap_map]
  have hparked : parked (Cmd.flushPendingCmds s).1 = [] := rfl
  rw [taken_append, accepted_append, freed_append, lost_append, htaken, haccepted, hlost, hfreed,
    hparked]
  simp only [List.append_nil, ← Multiset.coe_add, h.frames, Multiset.coe_nil]
  abel

/-! ## A turn of the task -/

section TxHdlCmd

variable (side : TxSide τ ι) (s : Eng τ) (c : HostCmd)

theorem taken_txHdlCmd : taken (txHdlCmd side s c).2 = [] := by
  by_cases hsoc : c.hCmd.isSoc
  · cases hok : (side.enqueue s.tx c).2 <;> simp [txHdlCmd, hsoc, hok, taken]
  · simp [txHdlCmd, hsoc, taken]

theorem lost_txHdlCmd : lost (txHdlCmd side s c).2 = [] := by
  by_cases hsoc : c.hCmd.isSoc
  · cases hok : (side.enqueue s.tx c).2 <;> simp [txHdlCmd, hsoc, hok, lost]
  · simp [txHdlCmd, hsoc, lost]

/-- A command handled is accepted or freed. -/
theorem accepted_freed_txHdlCmd :
    (accepted (txHdlCmd side s c).2 : Multiset HostCmd)
      + (freed (txHdlCmd side s c).2 : Multiset HostCmd) = {c} := by
  by_cases hsoc : c.hCmd.isSoc
  · cases hok : (side.enqueue s.tx c).2 <;> simp [txHdlCmd, hsoc, hok, accepted, freed]
  · simp [txHdlCmd, hsoc, accepted, freed]

end TxHdlCmd

theorem parked_rxHdlEvent (s : Eng τ) (e : HostEvent) :
    (rxHdlEvent s e).pendingCmds = s.pendingCmds ∧ (rxHdlEvent s e).freeFrmQ = s.freeFrmQ ∧
      (rxHdlEvent s e).nextNode = s.nextNode := by
  cases e with
  | mlmeCmdDone n =>
    rw [rxHdlEvent]
    split <;> simp
  | other n => simp [rxHdlEvent]

/-- A turn loses no command that it does not write off. -/
theorem frames_turn {side : TxSide τ ι} {s s' : Eng τ} {m : Msg} {malloc : Bool}
    {out : List CmdOut} (h : Turn side s m malloc s' out) :
    (parked s : Multiset HostCmd) + (taken out : Multiset HostCmd)
      = (parked s' : Multiset HostCmd) + (accepted out : Multiset HostCmd)
        + (freed out : Multiset HostCmd) + (lost out : Multiset HostCmd) := by
  cases h with
  | resume hgate hpending =>
    rename_i pcmd rest
    have hbooks := accepted_freed_txHdlCmd side { s with pendingCmds := rest } pcmd.frame
    rw [taken_txHdlCmd, lost_txHdlCmd]
    simp only [parked, recycle_pendingCmds, txHdlCmd_pendingCmds, hpending, List.map_cons,
      Multiset.coe_nil, add_zero]
    rw [add_assoc, hbooks, ← Multiset.cons_coe, ← Multiset.singleton_add, add_comm]
  | event hm hfirst =>
    rename_i e
    simp [parked, (parked_rxHdlEvent s e).1, taken, accepted, freed, lost]
  | park hm hparks =>
    rename_i c
    unfold park
    split
    · simp [parked, taken, accepted, freed, lost, ← Multiset.coe_add]
    split
    · simp [parked, taken, accepted, freed, lost, ← Multiset.coe_add]
    · simp [parked, taken, accepted, freed, lost]
  | handle hm hparks hfirst =>
    rename_i c
    have hbooks := accepted_freed_txHdlCmd side s c
    have htaken : taken (.fetched (.hostCmd c) :: (txHdlCmd side s c).2) = [c] := by
      rw [← List.singleton_append, taken_append, taken_txHdlCmd]
      rfl
    have hlost : lost (.fetched (.hostCmd c) :: (txHdlCmd side s c).2) = [] := by
      rw [← List.singleton_append, lost_append, lost_txHdlCmd]
      rfl
    have haccepted : accepted (.fetched (.hostCmd c) :: (txHdlCmd side s c).2)
        = accepted (txHdlCmd side s c).2 := rfl
    have hfreed : freed (.fetched (.hostCmd c) :: (txHdlCmd side s c).2)
        = freed (txHdlCmd side s c).2 := rfl
    rw [htaken, hlost, haccepted, hfreed, add_assoc (parked _ : Multiset HostCmd), hbooks]
    simp [parked]
  | other hm hfirst => simp [parked, taken, accepted, freed, lost]

/-- The nodes a turn leaves in use: those in use before, or one more from `MALLOC`. -/
theorem nodes_turn {side : TxSide τ ι} {s s' : Eng τ} {m : Msg} {malloc : Bool}
    {out : List CmdOut} (h : Turn side s m malloc s' out) :
    nodes s' ≤ nodes s ∧ s'.nextNode = s.nextNode ∨
      nodes s' = s.nextNode ::ₘ nodes s ∧ s'.nextNode = s.nextNode + 1 := by
  cases h with
  | resume hgate hpending =>
    rename_i pcmd rest
    refine .inl ⟨?_, by simp⟩
    simp only [nodes, recycle_pendingCmds, txHdlCmd_pendingCmds, hpending, List.map_cons,
      ← Multiset.cons_coe]
    unfold recycle
    split
    · simp only [txHdlCmd_freeFrmQ, ← Multiset.coe_add, Multiset.coe_singleton]
      rw [← Multiset.singleton_add]
      exact le_of_eq (by abel)
    · simp only [txHdlCmd_freeFrmQ]
      exact add_le_add_left (Multiset.le_cons_self _ _) _
  | event hm hfirst =>
    rename_i e
    obtain ⟨hpending, hfree, hnext⟩ := parked_rxHdlEvent s e
    exact .inl ⟨le_of_eq (by simp only [nodes, hpending, hfree]), hnext⟩
  | park hm hparks =>
    rename_i c
    unfold park
    split
    · rename_i node rest hfree
      refine .inl ⟨le_of_eq ?_, rfl⟩
      simp only [nodes, hfree, List.map_append, List.map_cons, List.map_nil, ← Multiset.coe_add,
        ← Multiset.cons_coe]
      rw [← Multiset.singleton_add]
      abel
    · rename_i hfree
      split
      · refine .inr ⟨?_, rfl⟩
        simp only [nodes, List.map_append, List.map_cons, List.map_nil, ← Multiset.coe_add,
          Multiset.coe_singleton]
        rw [← Multiset.singleton_add]
        abel
      · exact .inl ⟨le_rfl, rfl⟩
  | handle hm hparks hfirst => exact .inl ⟨le_of_eq (by simp [nodes]), by simp⟩
  | other hm hfirst => exact .inl ⟨le_rfl, rfl⟩

theorem Owned.turn {side : TxSide τ ι} {s s' : Eng τ} {m : Msg} {malloc : Bool}
    {tr out : List CmdOut} (h : Owned s tr) (hturn : Turn side s m malloc s' out) :
    Owned s' (tr ++ out) := by
  have hframes : (taken (tr ++ out) : Multiset HostCmd) = (parked s' : Multiset HostCmd)
      + (accepted (tr ++ out) : Multiset HostCmd) + (freed (tr ++ out) : Multiset HostCmd)
      + (lost (tr ++ out) : Multiset HostCmd) := by
    have hout := frames_turn hturn
    simp only [taken_append, accepted_append, freed_append, lost_append, ← Multiset.coe_add,
      h.frames]
    calc (parked s : Multiset HostCmd) + accepted tr + freed tr + lost tr + taken out
        = ((parked s : Multiset HostCmd) + taken out) + accepted tr + freed tr + lost tr := by abel
      _ = _ := by rw [hout]; abel
  rcases nodes_turn hturn with ⟨hle, hnext⟩ | ⟨heq, hnext⟩
  · have hnodes := h.nodes_of_le hle hnext
    exact ⟨hframes, hnodes.1, hnodes.2⟩
  · refine ⟨hframes, ?_, ?_⟩
    · rw [heq, Multiset.nodup_cons]
      exact ⟨fun hmem => absurd (h.fresh _ hmem) (lt_irrefl _), h.nodup⟩
    · intro n hn
      rw [heq, Multiset.mem_cons] at hn
      rw [hnext]
      rcases hn with rfl | hn
      · exact Nat.lt_succ_self _
      · exact Nat.lt_succ_of_lt (h.fresh n hn)

/-! ## The whole run -/

/-- `CmdEng_SetOpMode` changes the mode, and flushes on the way from `MT_RUNNING` to `MT_STOP`. -/
theorem setOpMode_cases (s : Eng τ) (mode : ModeType) :
    (∃ mode', setOpMode s mode = ({ s with currMode := mode' }, [])) ∧
        ¬ (s.currMode = .running ∧ mode = .stop) ∨
      (s.currMode = .running ∧ mode = .stop) ∧
        setOpMode s mode
          = ({ (flushPendingCmds s).1 with currMode := mode }, (flushPendingCmds s).2) := by
  have hstay : setOpMode s mode = (s, []) →
      ∃ mode', setOpMode s mode = ({ s with currMode := mode' }, []) := fun h => ⟨s.currMode, h⟩
  cases hmode : s.currMode with
  | stop =>
    refine .inl ⟨?_, by simp⟩
    by_cases h : mode = .stop
    · exact hstay (by simp [setOpMode, hmode, h])
    · exact ⟨mode, by simp [setOpMode, hmode, h]⟩
  | running =>
    by_cases h : mode = .stop
    · exact .inr ⟨⟨rfl, h⟩, by simp [setOpMode, hmode, h]⟩
    · exact .inl ⟨hstay (by simp [setOpMode, hmode, h]), by simp [h]⟩
  | exit => exact .inl ⟨hstay (by simp [setOpMode, hmode]), by simp⟩

theorem Owned.currMode {s : Eng τ} {tr : List CmdOut} (h : Owned s tr) (mode : ModeType) :
    Owned { s with currMode := mode } tr :=
  ⟨h.frames, h.nodup, h.fresh⟩

theorem Owned.step {side : TxSide τ ι} {s : Eng τ} {tr : List CmdOut} (h : Owned s tr)
    (i : CmdIn ι) : Owned (cmdStep side s i).1 (tr ++ (cmdStep side s i).2) := by
  cases i with
  | task m malloc => exact h.turn (turn_cmdTask side s m malloc)
  | flushPendingCmds => exact h.flushPendingCmds
  | setOpMode mode =>
    rw [show cmdStep side s (.setOpMode mode) = setOpMode s mode from rfl]
    rcases setOpMode_cases s mode with ⟨⟨mode', heq⟩, -⟩ | ⟨-, heq⟩
    · rw [heq, List.append_nil]
      exact h.currMode mode'
    · rw [heq]
      exact h.flushPendingCmds.currMode mode
  | tx i =>
    simp only [cmdStep, List.append_nil]
    exact ⟨h.frames, h.nodup, h.fresh⟩

theorem owned_cmdEngInit (tx : τ) : Owned (cmdEngInit tx) [] :=
  ⟨rfl, by simp [nodes, cmdEngInit], by simp [nodes, cmdEngInit]⟩

/-- The step finds a node for the command it parks, and has room for the nodes it flushes. -/
def KeepsFrames (s : Eng τ) : CmdIn ι → Prop
  | .task (.hostCmd c) malloc => parks s c → s.freeFrmQ = [] → malloc = true
  | .flushPendingCmds => s.pendingCmds.length + s.freeFrmQ.length ≤ freeFrmNum
  | .setOpMode mode => s.currMode = .running ∧ mode = .stop →
      s.pendingCmds.length + s.freeFrmQ.length ≤ freeFrmNum
  | _ => True

/-- The flush keeps within `FREE_FRM_NUM` exactly when all its nodes fit. -/
theorem length_flushPendingCmds_le_iff {s : Eng τ} (h : s.freeFrmQ.length ≤ freeFrmNum) :
    (flushPendingCmds s).1.freeFrmQ.length ≤ freeFrmNum
      ↔ s.pendingCmds.length + s.freeFrmQ.length ≤ freeFrmNum := by
  have hlen := length_flushNodes s.pendingCmds (Nat.le_succ_of_le h)
  simp only [flushPendingCmds]
  omega

theorem lost_flushPendingCmds (s : Eng τ) : lost (flushPendingCmds s).2 = [] := by
  simp [flushPendingCmds, lost]

theorem length_recycle_le {s : Eng τ} (h : s.freeFrmQ.length ≤ freeFrmNum) (node : ℕ) :
    (recycle s node).freeFrmQ.length ≤ freeFrmNum := by
  unfold recycle
  split
  · simp only [List.length_append, List.length_singleton]
    omega
  · exact h

/-- A turn writes a command off exactly when it finds no node for it. -/
theorem lost_turn_iff {side : TxSide τ ι} {s s' : Eng τ} {m : Msg} {malloc : Bool}
    {out : List CmdOut} (hfree : s.freeFrmQ.length ≤ freeFrmNum)
    (h : Turn side s m malloc s' out) :
    lost out = [] ∧ s'.freeFrmQ.length ≤ freeFrmNum
      ↔ KeepsFrames s (.task m malloc : CmdIn ι) := by
  cases h with
  | resume hgate hpending =>
    rename_i pcmd rest
    have hkeeps : KeepsFrames s (.task m malloc : CmdIn ι) := by
      cases m with
      | hostCmd c => simp [KeepsFrames, parks, hgate]
      | hostEvent e => trivial
      | other => trivial
    refine iff_of_true ⟨lost_txHdlCmd _ _ _, length_recycle_le ?_ _⟩ hkeeps
    rw [txHdlCmd_freeFrmQ]
    exact hfree
  | event hm hfirst =>
    subst hm
    rename_i e
    refine iff_of_true ⟨rfl, ?_⟩ trivial
    rw [(parked_rxHdlEvent s e).2.1]
    exact hfree
  | park hm hparks =>
    subst hm
    rename_i c
    simp only [KeepsFrames, hparks, true_imp_iff]
    unfold park
    split
    · rename_i node rest hnode
      rw [hnode, List.length_cons] at hfree
      refine iff_of_true ⟨rfl, ?_⟩ (by simp [hnode])
      show rest.length ≤ freeFrmNum
      omega
    · rename_i hnode
      split
      · rename_i hmalloc
        exact iff_of_true ⟨rfl, hfree⟩ fun _ => hmalloc
      · rename_i hmalloc
        refine iff_of_false (fun hlost => ?_) fun himp => hmalloc (himp hnode)
        simp [lost] at hlost
  | handle hm hparks hfirst =>
    subst hm
    rename_i c
    refine iff_of_true ⟨?_, ?_⟩ (by simp [KeepsFrames, hparks])
    · rw [← List.singleton_append, lost_append, lost_txHdlCmd]
      rfl
    · rw [txHdlCmd_freeFrmQ]
      exact hfree
  | other hm hfirst =>
    subst hm
    exact iff_of_true ⟨rfl, hfree⟩ trivial

/-- A step that starts well ends well exactly when it keeps its frames. -/
theorem ownedOnce_step_iff {side : TxSide τ ι} {s : Eng τ} {tr : List CmdOut} (h : Owned s tr)
    (honce : OwnedOnce s tr) (i : CmdIn ι) :
    OwnedOnce (cmdStep side s i).1 (tr ++ (cmdStep side s i).2) ↔ KeepsFrames s i := by
  obtain ⟨hlost, hfree⟩ := h.ownedOnce_iff.mp honce
  rw [(h.step i).ownedOnce_iff, lost_append, hlost, List.nil_append]
  cases i with
  | task m malloc => exact lost_turn_iff hfree (turn_cmdTask side s m malloc)
  | flushPendingCmds =>
    simp only [cmdStep, lost_flushPendingCmds, true_and, KeepsFrames]
    exact length_flushPendingCmds_le_iff hfree
  | setOpMode mode =>
    rw [show cmdStep side s (.setOpMode mode) = setOpMode s mode from rfl]
    rcases setOpMode_cases s mode with ⟨⟨mode', heq⟩, hno⟩ | ⟨hyes, heq⟩
    · rw [heq]
      exact iff_of_true ⟨rfl, hfree⟩ fun hyes => absurd hyes hno
    · rw [heq]
      simp only [lost_flushPendingCmds, true_and, KeepsFrames, hyes, and_self, true_imp_iff]
      exact length_flushPendingCmds_le_iff hfree
  | tx i => exact iff_of_true ⟨rfl, hfree⟩ trivial

/-- Every command taken from the mailbox has one owner in every state of a run, and the spare nodes
are neither in use nor too many, exactly when every step finds a node for the command it parks and
has room for the nodes it flushes. -/
theorem cmdRun_ownedOnce_iff (side : TxSide τ ι) (tx : τ) (is : List (CmdIn ι)) :
    (∀ js, js <+: is → OwnedOnce (cmdRun side tx js).1 (cmdRun side tx js).2)
      ↔ Machine.Meets (cmdStep side) KeepsFrames (cmdEngInit tx) is :=
  Machine.forall_prefix_iff_meets (I := Owned) (P := OwnedOnce) (owned_cmdEngInit tx)
    (fun _ _ i h => h.step i)
    ((owned_cmdEngInit tx).ownedOnce_iff.mpr ⟨rfl, by simp [cmdEngInit]⟩)
    (fun _ _ i h honce => ownedOnce_step_iff h honce i) is

/-- Six commands are parked when a recovery flushes them. -/
def flushRun : List (CmdIn Tx.TxIn) :=
  [.task (.hostCmd ⟨1, .scan, 1⟩) true, .task (.hostCmd ⟨2, .soc 7, 2⟩) true,
    .task (.hostCmd ⟨3, .soc 7, 3⟩) true, .task (.hostCmd ⟨4, .soc 7, 4⟩) true,
    .task (.hostCmd ⟨5, .soc 7, 5⟩) true, .task (.hostCmd ⟨6, .soc 7, 6⟩) true,
    .task (.hostCmd ⟨7, .soc 7, 7⟩) true, .flushPendingCmds]

/-- A command for which there is no memory has no owner, and a flush of six commands leaves six
spare nodes. -/
theorem not_ownedOnce_lostRun_flushRun :
    ¬ OwnedOnce (cmdRun (txSide defaultCfg) (Tx.txInit defaultCfg) lostRun).1
      (cmdRun (txSide defaultCfg) (Tx.txInit defaultCfg) lostRun).2 ∧
    ¬ OwnedOnce (cmdRun (txSide defaultCfg) (Tx.txInit defaultCfg) flushRun).1
      (cmdRun (txSide defaultCfg) (Tx.txInit defaultCfg) flushRun).2 := by
  constructor
  · rintro ⟨hframes, -, -⟩
    have hcard := congrArg Multiset.card hframes
    revert hcard
    simp only [Multiset.card_add, Multiset.coe_card]
    decide
  · rintro ⟨-, -, hfree⟩
    revert hfree
    decide

end Fullmac.Cmd
