import Fullmac.Tx.Model

/-!
# The command engine

Reference: `host/core/host_cmd_engine.c`, `CmdEng_Task`, `CmdEng_HandleQueue`,
`CmdEng_FlushPendingCmds` and `CmdEng_SetOpMode`; `host_cmd_engine_tx.c`, `CmdEng_TxHdlCmd`;
`host_cmd_engine_rx.c`, `CmdEng_RxHdlEvent`.

One task takes commands of the host and events of the firmware from a mailbox. A blocking command
closes a gate (`blockcmd_in_q`), and commands that come while it is closed are parked until the
firmware has reported the end of the blocking command. A step of the machine is one turn of the loop
of `CmdEng_Task`, one call of another task that flushes the parked commands, or a step of the
transmit side.

The transmit side is a parameter: what it does with a frame, and what it does meanwhile. The build
is the one of `host_config.h`, without access point mode; the trap table has no handlers.
-/

namespace Fullmac.Cmd

open Tx (ModeType)

/-! ## Commands and messages -/

/-- `ssv6xxx_host_cmd_id`, as far as the engine tells the commands apart: `soc` are the others below
`SSV6XXX_HOST_SOC_CMD_MAXID` and `host` the others from there on. -/
inductive HostCmdId
  | scan | join | leave
  | soc (id : ℕ)
  | setApCfg | setStaCfg
  | host (id : ℕ)
deriving DecidableEq, Repr

/-- `h_cmd < SSV6XXX_HOST_SOC_CMD_MAXID`. -/
def HostCmdId.isSoc : HostCmdId → Bool
  | .scan | .join | .leave | .soc _ => true
  | .setApCfg | .setStaCfg | .host _ => false

/-- The commands that close the gate. -/
def HostCmdId.isBlocking : HostCmdId → Bool
  | .scan | .join | .leave => true
  | _ => false

/-- The commands that pass a closed gate. -/
def HostCmdId.isCfg : HostCmdId → Bool
  | .setApCfg | .setStaCfg => true
  | _ => false

theorem HostCmdId.isSoc_of_isBlocking {id : HostCmdId} (h : id.isBlocking) : id.isSoc := by
  cases id <;> first | rfl | cases h

theorem HostCmdId.isSoc_of_isCfg {id : HostCmdId} (h : id.isCfg) : id.isSoc = false := by
  cases id <;> first | rfl | cases h

/-- A frame with a `struct cfg_host_cmd`. -/
structure HostCmd where
  ptr : ℕ
  hCmd : HostCmdId
  cmdSeqNo : ℕ
deriving DecidableEq, Repr

/-- A frame with a `struct cfg_host_event`. -/
inductive HostEvent
  | mlmeCmdDone (evtSeqNo : ℕ)
  | other (evtSeqNo : ℕ)
deriving DecidableEq, Repr

/-- What the task fetches: a packet buffer, or a message that is no business of the queues (a
timer). -/
inductive Msg
  | hostCmd (c : HostCmd)
  | hostEvent (e : HostEvent)
  | other
deriving DecidableEq, Repr

/-! ## The engine -/

/-- `FREE_FRM_NUM`. -/
def freeFrmNum : ℕ := 5

/-- `FrmQ`, a list node with the command it carries. -/
structure FrmQ where
  node : ℕ
  frame : HostCmd
deriving DecidableEq, Repr

/-- The transmit side, as the engine sees it: `TXRXTask_FrameEnqueue` at priority 0, and the steps
the transmit side takes meanwhile. -/
structure TxSide (τ ι : Type*) where
  enqueue : τ → HostCmd → τ × Bool
  step : τ → ι → τ

/-- `HostCmdEngInfo_st` and the transmit side. `MALLOC` numbers the nodes it gives out. -/
structure Eng (τ : Type*) where
  currMode : ModeType
  pendingCmds : List FrmQ
  freeFrmQ : List ℕ
  pendingCmdSeqno : ℕ
  blockcmdInQ : Bool
  nextNode : ℕ
  tx : τ

/-- What can be seen of a run. A command for which no node could be had is `lost`, not `fetched`. -/
inductive CmdOut
  | fetched (m : Msg)
  | lost (c : HostCmd)
  | passed (c : HostCmd) (accepted : Bool)
  | freed (c : HostCmd)
deriving DecidableEq, Repr

variable {τ ι : Type*}

/-- `CmdEng_Init`. -/
def cmdEngInit (tx : τ) : Eng τ where
  currMode := .stop
  pendingCmds := []
  freeFrmQ := []
  pendingCmdSeqno := 0
  blockcmdInQ := false
  nextNode := 0
  tx := tx

/-- The critical section of `CmdEng_TxHdlCmd`: a blocking command closes the gate. -/
def closeGate (s : Eng τ) (c : HostCmd) : Eng τ :=
  if c.hCmd.isBlocking then { s with pendingCmdSeqno := c.cmdSeqNo, blockcmdInQ := true } else s

/-- `CmdEng_TxHdlCmd`. A command of the host's own is carried out and freed. -/
def txHdlCmd (side : TxSide τ ι) (s : Eng τ) (c : HostCmd) : Eng τ × List CmdOut :=
  if c.hCmd.isSoc then
    let r := side.enqueue s.tx c
    ({ closeGate s c with tx := r.1 },
      if r.2 then [.passed c true] else [.passed c false, .freed c])
  else (s, [.freed c])

/-- The part of `CmdEng_HandleQueue` that parks a command. -/
def park (s : Eng τ) (c : HostCmd) (malloc : Bool) : Eng τ × List CmdOut :=
  match s.freeFrmQ with
  | node :: rest =>
    ({ s with freeFrmQ := rest, pendingCmds := s.pendingCmds ++ [⟨node, c⟩] },
      [.fetched (.hostCmd c)])
  | [] =>
    if malloc then
      ({ s with nextNode := s.nextNode + 1, pendingCmds := s.pendingCmds ++ [⟨s.nextNode, c⟩] },
        [.fetched (.hostCmd c)])
    else (s, [.lost c])

/-- `CmdEng_RxHdlEvent`, what it does to the engine. -/
def rxHdlEvent (s : Eng τ) : HostEvent → Eng τ
  | .mlmeCmdDone evtSeqNo =>
    if s.blockcmdInQ = true ∧ evtSeqNo = s.pendingCmdSeqno then
      { s with blockcmdInQ := false, pendingCmdSeqno := 0 }
    else s
  | .other _ => s

/-- A command that comes while the gate is closed is parked, with two exceptions. -/
def parks (s : Eng τ) (c : HostCmd) : Bool := s.blockcmdInQ && !c.hCmd.isCfg

/-- `CmdEng_HandleQueue`, with the message just fetched. -/
def handleQueue (side : TxSide τ ι) (s : Eng τ) (malloc : Bool) : Msg → Eng τ × List CmdOut
  | .hostEvent e => (rxHdlEvent s e, [.fetched (.hostEvent e)])
  | .hostCmd c =>
    if parks s c then park s c malloc
    else ((txHdlCmd side s c).1, .fetched (.hostCmd c) :: (txHdlCmd side s c).2)
  | .other => (s, [.fetched .other])

/-- The node of a command just handled, unless there are enough of them. -/
def recycle (s : Eng τ) (node : ℕ) : Eng τ :=
  if s.freeFrmQ.length < freeFrmNum then { s with freeFrmQ := s.freeFrmQ ++ [node] } else s

/-- `CmdEng_Task`, one turn of the loop. `m` is the message the mailbox has for the task; it stays
there when a parked command comes first. -/
def cmdTask (side : TxSide τ ι) (s : Eng τ) (m : Msg) (malloc : Bool) : Eng τ × List CmdOut :=
  if s.blockcmdInQ = false then
    match s.pendingCmds with
    | pcmd :: rest =>
      let r := txHdlCmd side { s with pendingCmds := rest } pcmd.frame
      (recycle r.1 pcmd.node, r.2)
    | [] => handleQueue side s malloc m
  else handleQueue side s malloc m

/-- The loop of `CmdEng_FlushPendingCmds` over the parked commands: what becomes of `free_FrmQ`. -/
def flushNodes : List FrmQ → List ℕ → List ℕ
  | [], free => free
  | pcmd :: rest, free =>
    flushNodes rest (if free.length > freeFrmNum then free else free ++ [pcmd.node])

/-- `CmdEng_FlushPendingCmds`. -/
def flushPendingCmds (s : Eng τ) : Eng τ × List CmdOut :=
  ({ s with
      blockcmdInQ := false
      pendingCmdSeqno := 0
      pendingCmds := []
      freeFrmQ := flushNodes s.pendingCmds s.freeFrmQ },
    s.pendingCmds.map fun pcmd => .freed pcmd.frame)

/-- `CmdEng_SetOpMode`. -/
def setOpMode (s : Eng τ) (mode : ModeType) : Eng τ × List CmdOut :=
  match s.currMode with
  | .stop => if mode = .stop then (s, []) else ({ s with currMode := mode }, [])
  | .running =>
    if mode = .stop then
      ({ (flushPendingCmds s).1 with currMode := mode }, (flushPendingCmds s).2)
    else (s, [])
  | .exit => (s, [])

/-- Who moves. -/
inductive CmdIn (ι : Type*)
  | task (m : Msg) (malloc : Bool)
  | flushPendingCmds
  | setOpMode (mode : ModeType)
  | tx (i : ι)

def cmdStep (side : TxSide τ ι) (s : Eng τ) : CmdIn ι → Eng τ × List CmdOut
  | .task m malloc => cmdTask side s m malloc
  | .flushPendingCmds => flushPendingCmds s
  | .setOpMode mode => setOpMode s mode
  | .tx i => ({ s with tx := side.step s.tx i }, [])

/-- A run from `CmdEng_Init`. -/
abbrev cmdRun (side : TxSide τ ι) (tx : τ) (is : List (CmdIn ι)) : Eng τ × List CmdOut :=
  Machine.run (cmdStep side) (cmdEngInit tx) is

/-- The transmit side of `txrx_task.c`. A command is no data frame. -/
def txSide (cfg : Tx.TxCfg) : TxSide Tx.TxState Tx.TxIn where
  enqueue s c := Tx.frameEnqueue s ⟨c.ptr, false⟩ Tx.pri0
  step s i := (Tx.txStep cfg s i).1

/-! ## What a turn can do -/

section Turn

variable (side : TxSide τ ι) (s : Eng τ) (c : HostCmd)

@[simp] theorem closeGate_pendingCmds : (closeGate s c).pendingCmds = s.pendingCmds := by
  unfold closeGate
  split <;> rfl

@[simp] theorem closeGate_freeFrmQ : (closeGate s c).freeFrmQ = s.freeFrmQ := by
  unfold closeGate
  split <;> rfl

@[simp] theorem closeGate_nextNode : (closeGate s c).nextNode = s.nextNode := by
  unfold closeGate
  split <;> rfl

@[simp] theorem txHdlCmd_pendingCmds : (txHdlCmd side s c).1.pendingCmds = s.pendingCmds := by
  unfold txHdlCmd
  split
  · exact closeGate_pendingCmds s c
  · rfl

@[simp] theorem txHdlCmd_freeFrmQ : (txHdlCmd side s c).1.freeFrmQ = s.freeFrmQ := by
  unfold txHdlCmd
  split
  · exact closeGate_freeFrmQ s c
  · rfl

@[simp] theorem txHdlCmd_nextNode : (txHdlCmd side s c).1.nextNode = s.nextNode := by
  unfold txHdlCmd
  split
  · exact closeGate_nextNode s c
  · rfl

@[simp] theorem recycle_pendingCmds (node : ℕ) : (recycle s node).pendingCmds = s.pendingCmds := by
  unfold recycle
  split <;> rfl

@[simp] theorem recycle_blockcmdInQ (node : ℕ) : (recycle s node).blockcmdInQ = s.blockcmdInQ := by
  unfold recycle
  split <;> rfl

@[simp] theorem recycle_pendingCmdSeqno (node : ℕ) :
    (recycle s node).pendingCmdSeqno = s.pendingCmdSeqno := by
  unfold recycle
  split <;> rfl

@[simp] theorem recycle_nextNode (node : ℕ) : (recycle s node).nextNode = s.nextNode := by
  unfold recycle
  split <;> rfl

/-- All that a turn of the loop can do. -/
inductive Turn (m : Msg) (malloc : Bool) : Eng τ → List CmdOut → Prop
  | resume {pcmd : FrmQ} {rest : List FrmQ} (hgate : s.blockcmdInQ = false)
      (hpending : s.pendingCmds = pcmd :: rest) :
      Turn m malloc (recycle (txHdlCmd side { s with pendingCmds := rest } pcmd.frame).1 pcmd.node)
        (txHdlCmd side { s with pendingCmds := rest } pcmd.frame).2
  | event {e : HostEvent} (hm : m = .hostEvent e)
      (hfirst : s.blockcmdInQ = true ∨ s.pendingCmds = []) :
      Turn m malloc (rxHdlEvent s e) [.fetched (.hostEvent e)]
  | park {c : HostCmd} (hm : m = .hostCmd c) (hparks : parks s c) :
      Turn m malloc (park s c malloc).1 (park s c malloc).2
  | handle {c : HostCmd} (hm : m = .hostCmd c) (hparks : parks s c = false)
      (hfirst : s.blockcmdInQ = true ∨ s.pendingCmds = []) :
      Turn m malloc (txHdlCmd side s c).1 (.fetched (.hostCmd c) :: (txHdlCmd side s c).2)
  | other (hm : m = .other) (hfirst : s.blockcmdInQ = true ∨ s.pendingCmds = []) :
      Turn m malloc s [.fetched .other]

theorem turn_cmdTask (m : Msg) (malloc : Bool) :
    Turn side s m malloc (cmdTask side s m malloc).1 (cmdTask side s m malloc).2 := by
  have hqueue : s.blockcmdInQ = true ∨ s.pendingCmds = [] →
      Turn side s m malloc (handleQueue side s malloc m).1 (handleQueue side s malloc m).2 := by
    intro hfirst
    cases m with
    | hostEvent e => exact .event rfl hfirst
    | hostCmd c =>
      rw [handleQueue]
      split
      · rename_i hparks
        exact .park rfl hparks
      · rename_i hparks
        exact .handle rfl (by simpa using hparks) hfirst
    | other => exact .other rfl hfirst
  unfold cmdTask
  split
  · rename_i hgate
    split
    · rename_i pcmd rest hpending
      exact .resume hgate hpending
    · rename_i hpending
      exact hqueue (.inr hpending)
  · rename_i hgate
    exact hqueue (.inl (by simpa using hgate))

end Turn

end Fullmac.Cmd
