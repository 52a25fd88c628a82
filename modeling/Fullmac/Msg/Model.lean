import Fullmac.Lib.Machine
import Fullmac.Lib.Threads
import Mathlib.Algebra.Group.Nat.Defs

/-!
# The message events

Reference: `host/lib/apps/msgevt.c`, `host/lib/ssv_msg.c` (`os_msg_send`) and `host/ap/ap.c`
(`AP_RxHandleFrame`).

The events lie in one block of memory. A free event holds in `MsgData` the address of the next one,
an event in use the data of its message. Allocating and freeing an event is a critical section, so
one step of the machine is one such section with what its caller does before another party can take
notice: a call of `msg_evt_alloc`, `msg_evt_free`, `msg_evt_post`, `msg_evt_post_data1` or
`msg_evt_fetch`, or one allocation of `AP_RxHandleFrame` with what follows it up to the next delay.
Whether a post succeeds is an input.

The callers free, post and write only events they hold. `held` lists what callers have got from
`msg_evt_alloc` or `msg_evt_fetch` and not yet given back; the code keeps no such list.
-/

namespace Fullmac.Msg

/-- `MsgEvent`. `MsgData` of a free event is the address of the next free event. -/
structure MsgEvent where
  msgType : ℕ
  msgData : ℕ
  msgData1 : ℕ
  msgData2 : ℕ
  msgData3 : ℕ
deriving DecidableEq, Repr

/-- `sizeof(MsgEvent)`: five words. -/
def sizeofMsgEvent : ℕ := 20

/-- `MSG_EVT_MIN`. -/
def msgEvtMin : ℕ := 48

/-- `MEVT_PKT_BUF`. -/
def mevtPktBuf : ℕ := 10

/-- The argument of `msg_evt_init` and the memory that `OS_MemAlloc` gave it. -/
structure EvtPool where
  maxEvtCnt : ℕ
  base : ℕ
  base_pos : 0 < base
  fits : base + sizeofMsgEvent * max maxEvtCnt msgEvtMin ≤ 2 ^ 32

namespace EvtPool

/-- `MBOX_MAX_MSG_EVENT`. -/
def count (p : EvtPool) : ℕ := max p.maxEvtCnt msgEvtMin

/-- The address of an element of the block. -/
def addr (p : EvtPool) (k : ℕ) : ℕ := p.base + sizeofMsgEvent * k

/-- The addresses of all events. -/
def events (p : EvtPool) : List ℕ := (List.range p.count).map p.addr

end EvtPool

/-- A call of `AP_RxHandleFrame` that waits for an event: its frame and its local `retry`. -/
structure RxCall where
  frame : ℕ
  retry : ℕ
deriving DecidableEq, Repr

/-- The memory, `sg_msgevt_free_list`, `g_free_msgevt_cnt`, the mailboxes as the events posted and
not yet fetched, each with its queue, the events in the hands of callers, and the call of
`AP_RxHandleFrame` under way in the RX task. -/
structure MsgState where
  mem : ℕ → MsgEvent
  freeList : ℕ
  freeCnt : ℕ
  mboxes : List (ℕ × ℕ)
  held : List ℕ
  rx : Option RxCall

/-- Write `MsgData` of the event at `a`. -/
def setMsgData (mem : ℕ → MsgEvent) (a data : ℕ) : ℕ → MsgEvent :=
  fun b => if b = a then { mem b with msgData := data } else mem b

/-! ## The functions -/

/-- `msg_evt_init`: the loop links each event to the next, the last write ends the list. -/
def msgEvtInit (p : EvtPool) (mem : ℕ → MsgEvent) : MsgState where
  mem := setMsgData
    ((List.range (p.count - 1)).foldl
      (fun m idx => setMsgData m (p.addr idx) (p.addr (idx + 1))) mem)
    (p.addr (p.count - 1)) 0
  freeList := p.base
  freeCnt := p.count
  mboxes := []
  held := []
  rx := none

/-- `msg_evt_alloc_0`: the event and what is left, or the null pointer. -/
def msgEvtAlloc (s : MsgState) : ℕ × MsgState :=
  if s.freeList = 0 then (0, s)
  else (s.freeList, { s with
    freeList := (s.mem s.freeList).msgData
    freeCnt := (s.freeCnt + (2 ^ 32 - 1)) % 2 ^ 32 })

/-- `msg_evt_free_0`. -/
def msgEvtFree (s : MsgState) (msgev : ℕ) : MsgState :=
  { s with
    mem := setMsgData s.mem msgev s.freeList
    freeList := msgev
    freeCnt := (s.freeCnt + 1) % 2 ^ 32 }

/-- `msg_evt_post` that succeeds. -/
def msgEvtPost (s : MsgState) (msgevq msgev : ℕ) : MsgState :=
  { s with mboxes := s.mboxes ++ [(msgevq, msgev)] }

/-- `msg_evt_post_data1`. -/
def msgEvtPostData1 (s : MsgState) (msgevq msgType msgData : ℕ) (posted : Bool) : MsgState :=
  let r := msgEvtAlloc s
  if r.1 = 0 then s
  else
    -- the other words keep what the last user wrote
    let ev := { r.2.mem r.1 with msgType := msgType, msgData := msgData }
    let s' := { r.2 with mem := Function.update r.2.mem r.1 ev }
    if posted then msgEvtPost s' msgevq r.1 else msgEvtFree s' r.1

/-- The first event in a mailbox, and what is left in all of them. -/
def fetchFrom (msgevq : ℕ) : List (ℕ × ℕ) → Option (ℕ × List (ℕ × ℕ))
  | [] => none
  | e :: l =>
    if e.1 = msgevq then some (e.2, l)
    else (fetchFrom msgevq l).map fun r => (r.1, e :: r.2)

/-- `msg_evt_fetch`, when there is something to fetch. -/
def msgEvtFetch (s : MsgState) (msgevq : ℕ) : MsgState :=
  match fetchFrom msgevq s.mboxes with
  | none => s
  | some r => { s with mboxes := r.2, held := r.1 :: s.held }

/-- `MBOX_CMD_ENGINE`. -/
def mboxCmdEngine : ℕ := 0

/-- `os_msg_send`, which relies on its post to succeed. -/
def osMsgSend (s : MsgState) (msg frame : ℕ) : MsgState :=
  msgEvtPost { s with mem := Function.update s.mem msg ⟨mevtPktBuf, frame, 0, 0, 0⟩ }
    mboxCmdEngine msg

/-- How a call of `AP_RxHandleFrame` ends: the frame goes to the mailbox with an event, or it is
freed. Then `msg` is what the last allocation returned. -/
inductive RxEnd
  | queued (frame msg : ℕ)
  | freed (frame msg : ℕ)
deriving DecidableEq, Repr

/-- The condition of the loop of `AP_RxHandleFrame`, with its allocation, and what follows up to the
next delay. -/
def rxTry (s : MsgState) (c : RxCall) : MsgState × List RxEnd :=
  let r := msgEvtAlloc s
  if r.1 = 0 ∧ c.retry < 10 then ({ r.2 with rx := some { c with retry := c.retry + 1 } }, [])
  -- also when this allocation got an event
  else if 10 ≤ c.retry then ({ r.2 with rx := none }, [.freed c.frame r.1])
  else ({ osMsgSend r.2 r.1 c.frame with rx := none }, [.queued c.frame r.1])

/-! ## The machine -/

/-- What happens next. -/
inductive MsgIn
  | alloc
  | write (msgev : ℕ) (ev : MsgEvent)
  | post (msgevq msgev : ℕ) (posted : Bool)
  | free (msgev : ℕ)
  | postData1 (msgevq msgType msgData : ℕ) (posted : Bool)
  | fetch (msgevq : ℕ)
  | rxFrame (frame : ℕ)
  | rxRetry
deriving DecidableEq, Repr

/-- One step. A caller does nothing with an event it does not hold, and the RX task handles one
frame at a time. -/
def msgStep (s : MsgState) : MsgIn → MsgState × List RxEnd
  | .alloc =>
    let r := msgEvtAlloc s
    (if r.1 = 0 then s else { r.2 with held := r.1 :: r.2.held }, [])
  | .write msgev ev =>
    (if msgev ∈ s.held then { s with mem := Function.update s.mem msgev ev } else s, [])
  | .post msgevq msgev posted =>
    (if msgev ∈ s.held ∧ posted then
      msgEvtPost { s with held := s.held.erase msgev } msgevq msgev else s, [])
  | .free msgev =>
    (if msgev ∈ s.held then msgEvtFree { s with held := s.held.erase msgev } msgev else s, [])
  | .postData1 msgevq msgType msgData posted =>
    (msgEvtPostData1 s msgevq msgType msgData posted, [])
  | .fetch msgevq => (msgEvtFetch s msgevq, [])
  | .rxFrame frame => if s.rx = none then rxTry s ⟨frame, 0⟩ else (s, [])
  | .rxRetry =>
    match s.rx with
    | none => (s, [])
    | some c => rxTry s c

/-- A run from `msg_evt_init`. -/
abbrev msgRun (p : EvtPool) (mem : ℕ → MsgEvent) (is : List MsgIn) : MsgState × List RxEnd :=
  Machine.run msgStep (msgEvtInit p mem) is

end Fullmac.Msg
