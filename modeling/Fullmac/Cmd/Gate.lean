import Fullmac.Cmd.Order

/-!
# The gate and the command it waits for

`CmdEng_TxHdlCmd` closes the gate before it passes a blocking command on, and leaves it closed when
`TXRXTask_FrameEnqueue` refuses the command. A gate closed on a command that the firmware never gets
is not opened again by the firmware. `Awaited` says that the gate waits for a command that was
accepted; it is kept by every step but the one that passes a blocking command on when the transmit
side has no node for it.
-/

namespace Fullmac.Cmd

open Tx (ModeType)

variable {τ ι : Type*}

/-- The last blocking command passed on, and whether it was accepted, after one more event of the
trace. -/
def blockingStep (b : Option (HostCmd × Bool)) : CmdOut → Option (HostCmd × Bool)
  | .passed c ok => if c.hCmd.isBlocking then some (c, ok) else b
  | _ => b

/-- The last blocking command passed on, and whether it was accepted. -/
def lastBlocking (tr : List CmdOut) : Option (HostCmd × Bool) := tr.foldl blockingStep none

/-- A closed gate waits for the last blocking command: it was accepted, its number is the pending
one, and its report opens the gate. -/
def Awaited (s : Eng τ) (tr : List CmdOut) : Prop :=
  s.blockcmdInQ = true → ∃ c, lastBlocking tr = some (c, true) ∧ c.cmdSeqNo = s.pendingCmdSeqno ∧
    (rxHdlEvent s (.mlmeCmdDone c.cmdSeqNo)).blockcmdInQ = false

/-- The command that a step hands over from the head of a queue, while the gate is open. -/
def handed (s : Eng τ) : CmdIn ι → Option HostCmd
  | .task m _ =>
    if s.blockcmdInQ then none
    else
      match s.pendingCmds, m with
      | pcmd :: _, _ => some pcmd.frame
      | [], .hostCmd c => some c
      | [], _ => none
  | _ => none

theorem lastBlocking_append (tr out : List CmdOut) :
    lastBlocking (tr ++ out) = out.foldl blockingStep (lastBlocking tr) := by
  simp [lastBlocking]

/-- A closed gate waits when the pending number is that of an accepted blocking command. -/
theorem awaited_of_lastBlocking {s : Eng τ} {tr : List CmdOut} {c : HostCmd}
    (hlast : lastBlocking tr = some (c, true)) (hseq : c.cmdSeqNo = s.pendingCmdSeqno) :
    Awaited s tr := by
  intro hgate
  exact ⟨c, hlast, hseq, by simp [rxHdlEvent, hgate, hseq]⟩

theorem awaited_of_open {s : Eng τ} {tr : List CmdOut} (h : s.blockcmdInQ = false) :
    Awaited s tr := by
  intro hgate
  rw [h] at hgate
  cases hgate

/-- What does not touch the gate keeps it waiting. -/
theorem Awaited.congr {s s' : Eng τ} {tr tr' : List CmdOut} (h : Awaited s tr)
    (hgate : s'.blockcmdInQ = s.blockcmdInQ) (hseq : s'.pendingCmdSeqno = s.pendingCmdSeqno)
    (hlast : lastBlocking tr' = lastBlocking tr) : Awaited s' tr' := by
  intro hclosed
  obtain ⟨c, hc, hseqc, -⟩ := h (hgate ▸ hclosed)
  exact awaited_of_lastBlocking (hlast.trans hc) (hseqc.trans hseq.symm) hclosed

/-- A command handed over with the gate open leaves the gate waiting exactly when it is not a
blocking one, or is accepted. -/
theorem awaited_txHdlCmd_iff (side : TxSide τ ι) {s : Eng τ} (hgate : s.blockcmdInQ = false)
    (tr : List CmdOut) (c : HostCmd) :
    Awaited (txHdlCmd side s c).1 (tr ++ (txHdlCmd side s c).2)
      ↔ (c.hCmd.isBlocking → (side.enqueue s.tx c).2 = true) := by
  by_cases hblock : c.hCmd.isBlocking
  · have hsoc := HostCmdId.isSoc_of_isBlocking hblock
    cases hok : (side.enqueue s.tx c).2 with
    | true =>
      refine iff_of_true (awaited_of_lastBlocking (c := c) ?_ ?_) fun _ => rfl
      · simp [lastBlocking_append, txHdlCmd, hsoc, hok, blockingStep, hblock]
      · simp [txHdlCmd, hsoc, closeGate, hblock]
    | false =>
      refine iff_of_false (fun hawaited => ?_) (by simp [hblock])
      obtain ⟨c', hlast, -⟩ := hawaited (by simp [txHdlCmd, hsoc, closeGate, hblock])
      simp [lastBlocking_append, txHdlCmd, hsoc, hok, blockingStep, hblock] at hlast
  · refine iff_of_true (awaited_of_open ?_) fun h => absurd h hblock
    by_cases hsoc : c.hCmd.isSoc
    · simp [txHdlCmd, hsoc, closeGate, hblock, hgate]
    · simp [txHdlCmd, hsoc, hgate]

theorem awaited_rxHdlEvent {s : Eng τ} {tr : List CmdOut} (h : Awaited s tr) (e : HostEvent) :
    Awaited (rxHdlEvent s e) (tr ++ [.fetched (.hostEvent e)]) := by
  have hlast : lastBlocking (tr ++ [.fetched (.hostEvent e)]) = lastBlocking tr := by
    simp [lastBlocking_append, blockingStep]
  cases e with
  | mlmeCmdDone n =>
    rw [rxHdlEvent]
    split
    · exact awaited_of_open rfl
    · exact h.congr rfl rfl hlast
  | other n => exact h.congr rfl rfl hlast

theorem awaited_turn_iff {side : TxSide τ ι} {s s' : Eng τ} {m : Msg} {malloc : Bool}
    {tr out : List CmdOut} (h : Awaited s tr) (hturn : Turn side s m malloc s' out) :
    Awaited s' (tr ++ out) ↔ ∀ c, handed s (.task m malloc : CmdIn ι) = some c →
      c.hCmd.isBlocking → (side.enqueue s.tx c).2 = true := by
  cases hturn with
  | resume hgate hpending =>
    rename_i pcmd rest
    have hhanded : handed s (.task m malloc : CmdIn ι) = some pcmd.frame := by
      simp [handed, hgate, hpending]
    have hiff := awaited_txHdlCmd_iff side (s := { s with pendingCmds := rest }) hgate tr pcmd.frame
    rw [hhanded]
    simp only [Option.some.injEq, forall_eq', ← hiff]
    constructor
    · intro hawaited
      exact hawaited.congr (by simp) (by simp) rfl
    · intro hawaited
      exact hawaited.congr (by simp) (by simp) rfl
  | event hm hfirst =>
    subst hm
    rename_i e
    refine iff_of_true (awaited_rxHdlEvent h e) fun c hc => ?_
    rcases hfirst with hgate | hpending
    · simp [handed, hgate] at hc
    · simp [handed, hpending] at hc
  | park hm hparks =>
    subst hm
    rename_i c
    have hgate : s.blockcmdInQ = true := by
      rw [parks, Bool.and_eq_true] at hparks
      exact hparks.1
    refine iff_of_true ?_ fun c hc => by simp [handed, hgate] at hc
    unfold park
    split
    · exact h.congr rfl rfl (by simp [lastBlocking_append, blockingStep])
    split
    · exact h.congr rfl rfl (by simp [lastBlocking_append, blockingStep])
    · exact h.congr rfl rfl (by simp [lastBlocking_append, blockingStep])
  | handle hm hparks hfirst =>
    subst hm
    rename_i c
    cases hgate : s.blockcmdInQ with
    | true =>
      -- a command that passes a closed gate is none for the firmware
      have hsoc : c.hCmd.isSoc = false :=
        HostCmdId.isSoc_of_isCfg (by simpa [parks, hgate] using hparks)
      refine iff_of_true (h.congr ?_ ?_ ?_) fun c hc => by simp [handed, hgate] at hc
      · simp [txHdlCmd, hsoc]
      · simp [txHdlCmd, hsoc]
      · simp [lastBlocking_append, txHdlCmd, hsoc, blockingStep]
    | false =>
      have hpending : s.pendingCmds = [] := by simpa [hgate] using hfirst
      have hhanded : handed s (.task (.hostCmd c) malloc : CmdIn ι) = some c := by
        simp [handed, hgate, hpending]
      have hiff := awaited_txHdlCmd_iff side hgate (tr ++ [.fetched (.hostCmd c)]) c
      rw [List.append_assoc, List.singleton_append] at hiff
      rw [hhanded]
      simpa only [Option.some.injEq, forall_eq'] using hiff
  | other hm hfirst =>
    subst hm
    refine iff_of_true (h.congr rfl rfl (by simp [lastBlocking_append, blockingStep]))
      fun c hc => ?_
    rcases hfirst with hgate | hpending
    · simp [handed, hgate] at hc
    · simp [handed, hpending] at hc

/-- A flush opens the gate. -/
theorem awaited_setOpMode {s : Eng τ} {tr : List CmdOut} (h : Awaited s tr) (mode : ModeType) :
    Awaited (setOpMode s mode).1 (tr ++ (setOpMode s mode).2) := by
  unfold setOpMode
  split
  · split
    · rwa [List.append_nil]
    · exact h.congr rfl rfl (by rw [List.append_nil])
  · split
    · exact awaited_of_open rfl
    · rwa [List.append_nil]
  · rwa [List.append_nil]

theorem awaited_step_iff {side : TxSide τ ι} {s : Eng τ} {tr : List CmdOut} (h : Awaited s tr)
    (i : CmdIn ι) : Awaited (cmdStep side s i).1 (tr ++ (cmdStep side s i).2) ↔
      ∀ c, handed s i = some c → c.hCmd.isBlocking → (side.enqueue s.tx c).2 = true := by
  cases i with
  | task m malloc => exact awaited_turn_iff h (turn_cmdTask side s m malloc)
  | flushPendingCmds => exact iff_of_true (awaited_of_open rfl) (by simp [handed])
  | setOpMode mode => exact iff_of_true (awaited_setOpMode h mode) (by simp [handed])
  | tx i => exact iff_of_true (h.congr rfl rfl (by simp [cmdStep])) (by simp [handed])

/-! ## With the transmit side of `txrx_task.c` -/

/-- When the step hands a blocking command over, `free_frmQ` has a node for it. -/
def NodeForBlocking (s : Eng Tx.TxState) (i : CmdIn Tx.TxIn) : Prop :=
  ∀ c, handed s i = some c → c.hCmd.isBlocking → s.tx.freeFrmQ ≠ []

/-- In every state of a run a closed gate waits for a command that was accepted, exactly when there
is a node in `free_frmQ` whenever a blocking command is handed over. -/
theorem cmdRun_awaited_iff (cfg : Tx.TxCfg) (is : List (CmdIn Tx.TxIn)) :
    (∀ js, js <+: is → Awaited (cmdRun (txSide cfg) (Tx.txInit cfg) js).1
        (cmdRun (txSide cfg) (Tx.txInit cfg) js).2)
      ↔ Machine.Meets (cmdStep (txSide cfg)) NodeForBlocking (cmdEngInit (Tx.txInit cfg)) is := by
  refine Machine.forall_prefix_iff_meets (I := fun _ _ => True) (P := Awaited) trivial
    (fun _ _ _ _ => trivial) (awaited_of_open rfl) (fun s tr i _ h => ?_) is
  rw [awaited_step_iff h i]
  refine forall_congr' fun c => imp_congr_right fun _ => imp_congr_right fun _ => ?_
  exact Tx.frameEnqueue_iff_of_not_isTxReq rfl _

/-- Data frames take every node of the transmit side while its task is held up, and then a scan is
asked for. -/
def noNodeRun : List (CmdIn Tx.TxIn) :=
  .tx (.setOpMode .running) ::
    (List.range 98).flatMap
      (fun n => [.tx (.call ⟨n, true⟩ Tx.pri0), .tx (.enqueue ⟨n, true⟩ Tx.pri0)])
    ++ [.task (.hostCmd ⟨98, .scan, 1⟩) true]

/-- The scan is refused and freed, and the gate stays closed on it. -/
theorem noNodeRun_not_awaited :
    ¬ Awaited (cmdRun (txSide defaultCfg) (Tx.txInit defaultCfg) noNodeRun).1
      (cmdRun (txSide defaultCfg) (Tx.txInit defaultCfg) noNodeRun).2 := by
  intro h
  have hgate : (cmdRun (txSide defaultCfg) (Tx.txInit defaultCfg) noNodeRun).1.blockcmdInQ
      = true := by
    decide +kernel
  have hlast : lastBlocking (cmdRun (txSide defaultCfg) (Tx.txInit defaultCfg) noNodeRun).2
      = some (⟨98, .scan, 1⟩, false) := by
    decide +kernel
  obtain ⟨c, hc, -⟩ := h hgate
  rw [hlast] at hc
  cases hc

end Fullmac.Cmd
